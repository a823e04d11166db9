import Mathlib.Data.List.Forall2
import Transclude.Proofs.Replacement

/-!
# Several patches

The code blocks that are found in a document stand one below the other, and each has all of its
lines. Patches are applied from the bottom up, that is in the reverse order of their blocks, and
none looks at the lines before its block.

* `CodeBlock.stands_of_find`, `CodeBlock.pairwise_of_find`: where the code blocks of a document
  stand;
* `Replacement.bottomUp_eq_reverse`: the order in which patches are applied;
* `Patch.apply_append`: a patch and the lines before its block.
-/

namespace Transclude

variable {t v : Text} {ls : List Text} {b : CodeBlock} {bs : List CodeBlock}

/-! ## Where code blocks stand -/

namespace Markdown

/-- A fence ends before the next one begins. -/
theorem Ordered.pairwise {lo hi : Nat} {fs : List Fence} (h : Ordered lo hi fs) :
    fs.Pairwise fun f g => f.stop ≤ g.start := by
  induction fs generalizing lo with
  | nil => exact .nil
  | cons f fs ih => exact .cons (fun g hg => (h.2.2.bounds hg).1) (ih h.2.2)

/-- A fence has an opening line, and its markup there. -/
theorem start_lt_stop_of_mem {f : Fence} (hf : f ∈ fences t) :
    f.start < f.stop ∧ f.markup ≠ [] := by
  obtain ⟨d, n, -, hn, hmarkup, -⟩ :=
    (findsHeld_sequence nestingLimit {} _ _ hf).opening.1
  obtain ⟨hi, hordered⟩ := exists_ordered_fences t
  refine ⟨(hordered.bounds hf).2.1, ?_⟩
  rw [hmarkup]
  exact List.ne_nil_of_length_pos (by rw [List.length_replicate]; omega)

theorem pairwise_fences (t : Text) : (fences t).Pairwise fun f g => f.stop ≤ g.start :=
  (keepsOrder_sequence nestingLimit {} 0 (documentLines t) (numbered_documentLines t)).pairwise

end Markdown

namespace CodeBlock

/-- Among `n` lines a code block has all of its lines. -/
structure Stands (n : Nat) (b : CodeBlock) : Prop where
  start_lt_stop : b.startLine < b.endLine
  stop_le : b.endLine ≤ n
  /-- A closed block has a closing line besides its opening line. -/
  closed : b.isClosed → b.startLine + 2 ≤ b.endLine
  markup_ne : b.markup ≠ []

theorem stands_of_ofFence {f : Markdown.Fence} (h : ofFence ls f = .ok b) (hlt : f.start < f.stop)
    (hmarkup : f.markup ≠ []) : Stands ls.length b := by
  obtain ⟨opening, isClosed, hopening, hclosed, rfl⟩ := ofFence_eq_ok_iff.1 h
  have hstart := (List.getElem?_eq_some_iff.1 hopening).1
  rcases closedAt_cases hclosed with ⟨hle, rfl⟩ | ⟨htwo, line, hline, -⟩
  · exact ⟨hlt, Nat.le_trans hle hstart, nofun, hmarkup⟩
  · have hstop := (List.getElem?_eq_some_iff.1 hline).1
    refine ⟨hlt, ?_, fun _ => htwo, hmarkup⟩
    show f.stop ≤ ls.length
    omega

/-- Every code block that is found has its lines. -/
theorem stands_of_find (h : find t = .ok bs) : ∀ b ∈ bs, Stands (Text.lines t).length b := by
  intro b hb
  obtain ⟨f, hmem, hf⟩ := exists_of_forall₂ (mapM_eq_ok_iff.1 h) hb
  obtain ⟨hlt, hmarkup⟩ := Markdown.start_lt_stop_of_mem hmem
  exact stands_of_ofFence hf hlt hmarkup

/-- A code block ends before the next one begins. -/
theorem pairwise_of_find (h : find t = .ok bs) :
    bs.Pairwise fun b c => b.endLine ≤ c.startLine := by
  rw [find, mapM_eq_ok_iff] at h
  have hpairwise := Markdown.pairwise_fences t
  generalize Markdown.fences t = fs at h hpairwise
  induction h with
  | nil => exact .nil
  | @cons f b fs bs hb hbs ih =>
    rw [List.pairwise_cons] at hpairwise
    refine .cons (fun c hc => ?_) (ih hpairwise.2)
    obtain ⟨g, hg, hgc⟩ := exists_of_forall₂ hbs hc
    obtain ⟨opening, isClosed, rfl⟩ := exists_of_ofFence hb
    obtain ⟨opening', isClosed', rfl⟩ := exists_of_ofFence hgc
    exact hpairwise.1 g hg

theorem pairwise_startLine_of_find (h : find t = .ok bs) :
    bs.Pairwise fun b c => b.startLine < c.startLine :=
  (pairwise_of_find h).imp_of_mem fun hb _ hle =>
    Nat.lt_of_lt_of_le (stands_of_find h _ hb).start_lt_stop hle

/-- The patches of blocks that get new bodies. -/
def patches (qs : List (CodeBlock × Option Text)) : List Patch :=
  qs.filterMap fun q => q.2.map q.1.patch

variable {qs : List (CodeBlock × Option Text)}

theorem exists_of_mem_patches {p : Patch} (h : p ∈ patches qs) :
    ∃ q ∈ qs, ∃ v ∈ q.2, p = q.1.patch v := by
  obtain ⟨q, hq, hpatch⟩ := List.mem_filterMap.1 h
  obtain ⟨v, hv, rfl⟩ := Option.map_eq_some_iff.1 hpatch
  exact ⟨q, hq, v, hv, rfl⟩

/-- The patches of blocks stand to each other as the blocks do. -/
theorem pairwise_patches {R : CodeBlock → CodeBlock → Prop} {S : Patch → Patch → Prop}
    (h : (qs.map Prod.fst).Pairwise R)
    (hpatch : ∀ b c v w, R b c → S (b.patch v) (c.patch w)) : (patches qs).Pairwise S := by
  rw [List.pairwise_map] at h
  refine List.pairwise_filterMap.2 (h.imp fun {q q'} hR p hp p' hp' => ?_)
  obtain ⟨v, -, rfl⟩ := Option.map_eq_some_iff.1 hp
  obtain ⟨w, -, rfl⟩ := Option.map_eq_some_iff.1 hp'
  exact hpatch q.1 q'.1 v w hR

end CodeBlock

/-! ## From the bottom up -/

namespace Replacement

/-- Every patch starts above the one that is applied before it, or in the same line. -/
theorem pairwise_bottomUp (patches : List Patch) :
    (bottomUp patches).Pairwise fun p q => q.start ≤ p.start := by
  have hmerged := @List.pairwise_mergeSort Patch (fun p q => decide (q.start ≤ p.start))
    (fun p q r hpq hqr => by
      rw [decide_eq_true_eq] at hpq hqr ⊢
      exact Int.le_trans hqr hpq)
    (fun p q => by
      rw [Bool.or_eq_true, decide_eq_true_eq, decide_eq_true_eq]
      exact Int.le_total _ _) patches
  exact hmerged.imp of_decide_eq_true

theorem bottomUp_perm (patches : List Patch) : (bottomUp patches).Perm patches :=
  List.mergeSort_perm patches _

/-- Patches whose starts ascend are applied in reverse order. -/
theorem bottomUp_eq_reverse {patches : List Patch}
    (h : patches.Pairwise fun p q => p.start < q.start) : bottomUp patches = patches.reverse := by
  have hsorted : patches.reverse.Pairwise fun p q => q.start ≤ p.start :=
    List.pairwise_reverse.2 (h.imp Int.le_of_lt)
  have hperm := (bottomUp_perm patches).trans (List.reverse_perm patches).symm
  -- Two sorted lists of the same patches are equal, since no two of them start in one line.
  refine hperm.eq_of_pairwise (fun p q hp hq hpq hqp => ?_) (pairwise_bottomUp patches) hsorted
  obtain ⟨i, hi, rfl⟩ := List.getElem_of_mem ((bottomUp_perm patches).mem_iff.1 hp)
  obtain ⟨j, hj, rfl⟩ := List.getElem_of_mem (List.mem_reverse.1 hq)
  rw [List.pairwise_iff_getElem] at h
  rcases Nat.lt_trichotomy i j with hij | rfl | hij
  · have := h i j hi hj hij
    omega
  · rfl
  · have := h j i hj hi hij
    omega

/-! ## The lines before a patch -/

variable {pre body : List Text} {start stop index : Int}

theorem offsetOf_append (h : pre.length ≤ index) :
    Excerpt.offsetOf (pre ++ ls).length index =
      pre.length + Excerpt.offsetOf ls.length (index - pre.length) := by
  rw [Excerpt.offsetOf, Excerpt.offsetOf, if_neg (by omega), if_neg (by omega),
    List.length_append]
  omega

theorem splice_append (hstart : pre.length ≤ start) (hstop : pre.length ≤ stop) :
    splice (pre ++ ls) start stop body =
      pre ++ splice ls (start - pre.length) (stop - pre.length) body := by
  rw [splice, splice, offsetOf_append hstart, offsetOf_append hstop]
  rw [List.take_length_add_append, Nat.add_max_add_left, List.drop_length_add_append,
    List.append_assoc, List.append_assoc, List.append_assoc]

theorem position?_append (h : pre.length ≤ index) : position? (pre ++ ls).length index =
    (position? ls.length (index - pre.length)).map (pre.length + ·) := by
  obtain ⟨i, rfl⟩ := Int.eq_ofNat_of_zero_le (Int.le_trans (Int.natCast_nonneg _) h)
  obtain ⟨j, rfl⟩ := Nat.exists_eq_add_of_le (Int.ofNat_le.1 h)
  rw [show ((pre.length + j : Nat) : Int) - pre.length = j by omega]
  by_cases hlt : j < ls.length
  · rw [position?_natCast hlt, position?_natCast (by rw [List.length_append]; omega)]
    rfl
  · rw [position?_natCast_of_le (Nat.not_lt.1 hlt),
      position?_natCast_of_le (by rw [List.length_append]; omega)]
    rfl

theorem modifyLine_append (f : Text → Text) (h : pre.length ≤ index) :
    modifyLine f (pre ++ ls) index =
      (modifyLine f ls (index - pre.length)).map (pre ++ ·) := by
  rw [modifyLine, modifyLine, position?_append h]
  cases position? ls.length (index - pre.length) with
  | none => rfl
  | some n => exact congrArg Except.ok (List.modifyTailIdx_add (List.modifyHead f) n pre ls)

end Replacement

namespace Patch

variable {p : Patch} {pre : List Text}

/-- The same patch of lines of which the first `n` are gone. -/
def up (n : Nat) (p : Patch) : Patch :=
  { p with start := p.start - n, stop := p.stop - n }

theorem refence_append (hstart : pre.length ≤ p.start) (hstop : p.start < p.stop) (fence : Text) :
    p.refence fence (pre ++ ls) = ((p.up pre.length).refence fence ls).map (pre ++ ·) := by
  rw [refence, refence, Replacement.modifyLine_append _ hstart]
  show (Except.map _ _).bind _ = Except.map _ (Except.bind
    (Replacement.modifyLine (Replacement.reopen p.markup fence) ls (p.start - pre.length)) _)
  cases Replacement.modifyLine (Replacement.reopen p.markup fence) ls (p.start - pre.length) with
  | error failure => rfl
  | ok ls' =>
    show (if p.isClosed = true then _ else _) =
      Except.map _ (if p.isClosed = true then _ else _)
    split
    · dsimp only [up]
      cases p.markup with
      | nil => rfl
      | cons c markup =>
        rw [show p.stop - pre.length - 1 = p.stop - 1 - pre.length by omega]
        exact Replacement.modifyLine_append _ (by omega)
    · rfl

/-- A patch does not look at the lines before its block. -/
theorem apply_append (hstart : pre.length ≤ p.start) (hstop : p.start < p.stop) :
    p.apply (pre ++ ls) = ((p.up pre.length).apply ls).map (pre ++ ·) := by
  -- The body is spliced in behind the lines `pre`, whether the fence has become longer or not.
  have hsplice (ls : List Text) : Replacement.splice (pre ++ ls) (p.start + 1)
      (if p.isClosed then p.stop - 1 else p.stop) (Replacement.bodyLines p.lead p.value) =
      pre ++ Replacement.splice ls ((p.up pre.length).start + 1)
        (if p.isClosed then (p.up pre.length).stop - 1 else (p.up pre.length).stop)
        (Replacement.bodyLines p.lead p.value) := by
    have hbody : (p.start + 1 - pre.length : Int) = (p.up pre.length).start + 1 := by
      show p.start + 1 - pre.length = p.start - pre.length + 1
      omega
    have hafter : (if p.isClosed then p.stop - 1 else p.stop) - pre.length =
        if p.isClosed then (p.up pre.length).stop - 1 else (p.up pre.length).stop := by
      show _ = if p.isClosed then p.stop - pre.length - 1 else p.stop - pre.length
      split <;> omega
    rw [Replacement.splice_append (by omega) (by split <;> omega), hbody, hafter]
  cases hfit : Replacement.fit p.markup p.value with
  | error failure =>
    show (Replacement.fit p.markup p.value).bind _ =
      Except.map _ ((Replacement.fit p.markup p.value).bind _)
    rw [hfit]
    rfl
  | ok fence =>
    rw [apply_eq_bind p _ hfit, apply_eq_bind (p.up pre.length) _ hfit]
    show Except.bind (if fence = p.markup then _ else _) _ =
      Except.map _ (Except.bind (if fence = p.markup then _ else _) _)
    split
    · exact congrArg Except.ok (hsplice ls)
    · rw [refence_append hstart hstop]
      cases (p.up pre.length).refence fence ls with
      | error failure => rfl
      | ok ls' => exact congrArg Except.ok (hsplice ls')

end Patch

end Transclude
