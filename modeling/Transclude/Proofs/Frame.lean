import Transclude.Proofs.Patches

/-!
# What a replacement leaves alone

If the blocks of several patches have no line in common, then each patch changes the lines of its
own block, and no patch gets in the way of another: what becomes of a line depends on its number,
on the line and on the one patch that covers it. A line that no patch covers stays as it is, an
opening line keeps what stands around its markup, and the order in which the patches are listed
does not matter.

A closing line keeps what stands before its run of fence characters. What stands behind the run
is lost if the fence becomes longer.

* `Replacement.image`: the lines that come out of a line;
* `Replacement.foldlM_apply`: several patches, from the bottom up;
* `Replacement.replace_frame`: what a replacement changes and what it does not.
-/

namespace Transclude

variable {t : Text} {ls : List Text} {p q : Patch} {ps qs : List Patch}

/-! ## Lines and patches -/

namespace Patch

/-- Line `i` is one of the lines of the block. -/
def Covers (p : Patch) (i : Nat) : Prop :=
  p.start ≤ i ∧ i < p.stop

instance (p : Patch) (i : Nat) : Decidable (p.Covers i) :=
  inferInstanceAs (Decidable (_ ∧ _))

/-- Two blocks have no line in common. -/
def Apart (p q : Patch) : Prop :=
  p.stop ≤ q.start ∨ q.stop ≤ p.start

/-- The block is one of a document of `n` lines. -/
structure Stands (n : Nat) (p : Patch) : Prop where
  zero_le : 0 ≤ p.start
  start_lt_stop : p.start < p.stop
  stop_le : p.stop ≤ n
  /-- A closed block has a closing line besides its opening line. -/
  closed : p.isClosed → p.start + 2 ≤ p.stop
  markup_ne : p.markup ≠ []

/-- What becomes of line `i`, if it is one of the block: the opening line is followed by the new
    body, the old body is gone. -/
def image (p : Patch) (i : Nat) (line : Text) : List Text :=
  if p.start = i then p.newOpening line :: Replacement.bodyLines p.lead p.value
  else if p.isClosed ∧ p.stop = i + 1 then [p.newClosing line]
  else []

theorem Apart.not_covers {i : Nat} (h : p.Apart q) (hp : p.Covers i) : ¬q.Covers i := by
  intro hq
  obtain ⟨hp, hp'⟩ := hp
  obtain ⟨hq, hq'⟩ := hq
  rcases h with h | h <;> omega

end Patch

namespace Replacement

/-- What becomes of line `i`: the first patch that covers it decides. -/
def image : List Patch → Nat → Text → List Text
  | [], _, line => [line]
  | p :: ps, i, line => if p.Covers i then p.image i line else image ps i line

/-- What becomes of the lines from line `i` on. -/
def rewritten (ps : List Patch) : Nat → List Text → List Text
  | _, [] => []
  | i, line :: ls => image ps i line ++ rewritten ps (i + 1) ls

/-! ## The image of a line -/

theorem image_cons_of_covers {i : Nat} (h : p.Covers i) (line : Text) :
    image (p :: ps) i line = p.image i line :=
  if_pos h

theorem image_cons_of_not_covers {i : Nat} (h : ¬p.Covers i) (line : Text) :
    image (p :: ps) i line = image ps i line :=
  if_neg h

theorem image_of_not_covers {i : Nat} (h : ∀ p ∈ ps, ¬p.Covers i) (line : Text) :
    image ps i line = [line] := by
  induction ps with
  | nil => rfl
  | cons p ps ih =>
    rw [List.forall_mem_cons] at h
    rw [image_cons_of_not_covers h.1, ih h.2]

/-- Only the patch that covers a line decides what becomes of it. -/
theorem image_of_covers {i : Nat} (hapart : ps.Pairwise Patch.Apart) (hp : p ∈ ps)
    (h : p.Covers i) (line : Text) : image ps i line = p.image i line := by
  induction ps with
  | nil => exact absurd hp List.not_mem_nil
  | cons q ps ih =>
    rw [List.pairwise_cons] at hapart
    rcases List.mem_cons.1 hp with rfl | hp
    · exact image_cons_of_covers h line
    · rw [image_cons_of_not_covers fun hq => (hapart.1 p hp).not_covers hq h]
      exact ih hapart.2 hp

theorem image_perm (hapart : ps.Pairwise Patch.Apart) (hperm : qs.Perm ps) :
    image qs = image ps := by
  funext i line
  by_cases hcovers : ∃ p ∈ ps, p.Covers i
  · obtain ⟨p, hp, h⟩ := hcovers
    have hapart' := hperm.symm.pairwise hapart fun hpq => Or.symm hpq
    rw [image_of_covers hapart hp h, image_of_covers hapart' (hperm.mem_iff.2 hp) h]
  · have hnot : ∀ p ∈ ps, ¬p.Covers i := fun p hp h => hcovers ⟨p, hp, h⟩
    rw [image_of_not_covers hnot, image_of_not_covers fun p hp => hnot p (hperm.mem_iff.1 hp)]

/-! ## The image of a document -/

theorem rewritten_append (i : Nat) (ls ls' : List Text) :
    rewritten ps i (ls ++ ls') = rewritten ps i ls ++ rewritten ps (i + ls.length) ls' := by
  induction ls generalizing i with
  | nil => rfl
  | cons line ls ih =>
    rw [List.cons_append, rewritten, ih, rewritten, List.append_assoc, List.length_cons,
      Nat.add_right_comm, Nat.add_assoc]

theorem rewritten_congr {i : Nat}
    (h : ∀ j, i ≤ j → j < i + ls.length → ∀ line, image ps j line = image qs j line) :
    rewritten ps i ls = rewritten qs i ls := by
  induction ls generalizing i with
  | nil => rfl
  | cons line ls ih =>
    rw [List.length_cons] at h
    rw [rewritten, rewritten, h i (Nat.le_refl i) (by omega),
      ih fun j hle hlt => h j (by omega) (by omega)]

theorem rewritten_perm {i : Nat} (hapart : ps.Pairwise Patch.Apart) (hperm : qs.Perm ps) :
    rewritten qs i ls = rewritten ps i ls :=
  rewritten_congr fun j _ _ line => congrFun (congrFun (image_perm hapart hperm) j) line

theorem rewritten_nil (i : Nat) (ls : List Text) : rewritten [] i ls = ls := by
  induction ls generalizing i with
  | nil => rfl
  | cons line ls ih => rw [rewritten, ih, image, List.singleton_append]

/-- Lines that no patch covers stay as they are. -/
theorem rewritten_of_not_covers {i : Nat}
    (h : ∀ j, i ≤ j → j < i + ls.length → ∀ p ∈ ps, ¬p.Covers j) : rewritten ps i ls = ls := by
  rw [rewritten_congr fun j hle hlt line => (image_of_not_covers (h j hle hlt) line).trans
    (image.eq_1 j line).symm, rewritten_nil]

/-- The old body goes. -/
theorem rewritten_eq_nil {i : Nat}
    (h : ∀ j, i ≤ j → j < i + ls.length → ∀ line, image ps j line = []) :
    rewritten ps i ls = [] := by
  induction ls generalizing i with
  | nil => rfl
  | cons line ls ih =>
    rw [List.length_cons] at h
    rw [rewritten, h i (Nat.le_refl i) (by omega), ih fun j hle hlt => h j (by omega) (by omega)]
    rfl

/-! ## One patch -/

end Replacement

namespace Patch

open Replacement (rewritten)

variable {before after old : List Text} {opening : Text}

/-- What becomes of the lines of a block, as the first patch is the one that covers them. -/
theorem rewritten_own {i : Nat} (ps : List Patch) {closing : Option Text} (hstart : p.start = i)
    (hclosing : closing.isSome = p.isClosed)
    (hstop : p.stop = i + (opening :: (old ++ closing.toList)).length) :
    rewritten (p :: ps) i (opening :: (old ++ closing.toList)) =
      p.newOpening opening :: (Replacement.bodyLines p.lead p.value ++
        (closing.map p.newClosing).toList) := by
  rw [List.length_cons, List.length_append] at hstop
  have hopening : Replacement.image (p :: ps) i opening =
      p.newOpening opening :: Replacement.bodyLines p.lead p.value := by
    rw [Replacement.image_cons_of_covers ⟨Int.le_of_eq hstart, by omega⟩, image, if_pos hstart]
  have hold : rewritten (p :: ps) (i + 1) old = [] :=
    Replacement.rewritten_eq_nil fun j hle hlt line => by
      have hlast : ¬(p.isClosed ∧ p.stop = j + 1) := fun ⟨hclosed, hlast⟩ => by
        obtain ⟨line, rfl⟩ := Option.isSome_iff_exists.1 (hclosing.trans hclosed)
        rw [Option.toList_some, List.length_singleton] at hstop
        omega
      rw [Replacement.image_cons_of_covers ⟨by omega, by omega⟩, image, if_neg (by omega),
        if_neg hlast]
  have hclosing' : rewritten (p :: ps) (i + 1 + old.length) closing.toList =
      (closing.map p.newClosing).toList := by
    cases closing with
    | none => rfl
    | some line =>
      rw [Option.toList_some, List.length_singleton] at hstop
      rw [Option.toList_some, rewritten, Replacement.image_cons_of_covers ⟨by omega, by omega⟩,
        image, if_neg (by omega), if_pos ⟨hclosing.symm, by omega⟩]
      rfl
  rw [rewritten, hopening, Replacement.rewritten_append, hold, hclosing']
  rfl

/-- The lines of a document around those of a block: its opening line, its old body and, if it is
    closed, its closing line. -/
theorem Stands.exists_own (h : p.Stands ls.length) :
    ∃ before opening old closing after, ls = before ++ (opening :: (old ++ Option.toList closing) ++
        after) ∧ closing.isSome = p.isClosed ∧ p.start = before.length ∧
      p.stop = before.length + (opening :: (old ++ closing.toList)).length := by
  have hlt := h.start_lt_stop
  have hle := h.stop_le
  have hzero := h.zero_le
  obtain ⟨opening, hopening⟩ : ∃ opening, ls[p.start.toNat]? = some opening :=
    ⟨_, List.getElem?_eq_getElem (by omega)⟩
  obtain ⟨before, tail, rfl, hbefore⟩ := Markdown.exists_append_of_getElem? hopening
  rw [List.length_append, List.length_cons] at hle
  obtain ⟨own, after, rfl, hown⟩ := Markdown.exists_append_of_le
    (show (p.stop - p.start - 1).toNat ≤ tail.length by omega)
  cases hclosed : p.isClosed with
  | false =>
    refine ⟨before, opening, own, none, after, ?_, rfl, by omega, ?_⟩
    · rw [Option.toList_none, List.append_nil]
      rfl
    · rw [Option.toList_none, List.append_nil, List.length_cons]
      omega
  | true =>
    have htwo := h.closed hclosed
    obtain rfl | ⟨old, closing, rfl⟩ := List.eq_nil_or_concat' own
    · rw [List.length_nil] at hown
      omega
    · exact ⟨before, opening, old, some closing, after, rfl, rfl, by omega, by
        rw [Option.toList_some, List.length_cons]
        omega⟩

/-- What a patch does to the lines of a block: the old body goes, and the fence is exchanged in
    the opening line and in the closing one. -/
theorem apply_own {closing : Option Text} (hmarkup : p.markup ≠ [])
    (hclosing : closing.isSome = p.isClosed) (hstart : p.start = before.length)
    (hstop : p.stop = before.length + (opening :: (old ++ closing.toList)).length) :
    p.apply (before ++ (opening :: (old ++ closing.toList) ++ after)) =
      .ok (before ++ (p.newOpening opening :: (Replacement.bodyLines p.lead p.value ++
        (closing.map p.newClosing).toList) ++ after)) := by
  cases closing with
  | none =>
    rw [Option.toList_none, List.append_nil, List.length_cons] at hstop
    rw [Option.map_none, Option.toList_none, List.append_nil, List.append_nil]
    exact apply_of_unclosed hmarkup hstart (by omega) hclosing.symm opening after
  | some closing =>
    rw [Option.toList_some, List.length_cons, List.length_append, List.length_singleton] at hstop
    rw [Option.map_some, Option.toList_some, Option.toList_some, List.cons_append, List.cons_append,
      List.append_assoc, List.append_assoc]
    exact apply_of_closed hmarkup hstart (by omega) hclosing.symm opening closing after

/-- The lines of a document after one patch. -/
theorem Stands.apply_eq (h : p.Stands ls.length) : p.apply ls = .ok (rewritten [p] 0 ls) := by
  obtain ⟨before, opening, old, closing, after, rfl, hclosing, hstart, hstop⟩ := h.exists_own
  have houtside (j : Nat) (hj : j < before.length ∨ p.stop ≤ j) : ∀ q ∈ [p], ¬q.Covers j := by
    rintro q hq ⟨hle, hlt⟩
    rw [List.mem_singleton.1 hq] at hle hlt
    omega
  have hbefore : rewritten [p] 0 before = before :=
    Replacement.rewritten_of_not_covers fun j _ hlt => houtside j (.inl (by omega))
  have hafter : rewritten [p] (before.length + (opening :: (old ++ closing.toList)).length) after =
      after :=
    Replacement.rewritten_of_not_covers fun j hle _ => houtside j (.inr (by omega))
  rw [apply_own h.markup_ne hclosing hstart hstop, Replacement.rewritten_append,
    Replacement.rewritten_append, Nat.zero_add, rewritten_own [] hstart hclosing hstop, hbefore,
    hafter]

/-- Seen from line `n` on, a block that does not start before this line stands among the lines
    that are left. -/
theorem Stands.up {n k : Nat} (h : p.Stands (n + k)) (hle : n ≤ p.start) : (p.up n).Stands k := by
  obtain ⟨-, hlt, hstop, hclosed, hmarkup⟩ := h
  refine ⟨?_, ?_, ?_, fun hisClosed => ?_, hmarkup⟩ <;> dsimp only [Patch.up]
  · omega
  · omega
  · omega
  · have := hclosed hisClosed
    omega

end Patch

/-! ## Several patches -/

namespace Replacement

theorem image_cons_eq_singleton {i : Nat} (h : ∀ p ∈ ps, ¬p.Covers i) (line : Text) :
    image (q :: ps) i line = image [q] i line := by
  rw [image, image, image_of_not_covers h, image]

/-- Patches from the bottom up, each of a block above those before it. -/
theorem foldlM_apply (hstands : ∀ p ∈ ps, p.Stands ls.length)
    (habove : ps.Pairwise fun q p => p.stop ≤ q.start) :
    ps.foldlM (fun ls p => p.apply ls) ls = .ok (rewritten ps 0 ls) := by
  induction ps generalizing ls with
  | nil =>
    rw [rewritten_nil]
    rfl
  | cons q ps ih =>
    rw [List.forall_mem_cons] at hstands
    rw [List.pairwise_cons] at habove
    -- The first patch leaves the lines above its block, and the later ones change no others.
    have hlt := hstands.1.start_lt_stop
    have hle := hstands.1.stop_le
    have hzero := hstands.1.zero_le
    obtain ⟨above, rest, rfl, hlength⟩ :=
      Markdown.exists_append_of_le (show q.start.toNat ≤ ls.length by omega)
    have hq (j : Nat) (hlt : j < above.length) : ¬q.Covers j := fun hcovers => by
      have := hcovers.1
      omega
    have hps (j : Nat) (hle : above.length ≤ j) : ∀ p ∈ ps, ¬p.Covers j := fun p hp hcovers => by
      have := habove.1 p hp
      have := hcovers.2
      omega
    have hfirst : rewritten [q] 0 (above ++ rest) = above ++ rewritten [q] above.length rest := by
      rw [rewritten_append, Nat.zero_add, rewritten_of_not_covers fun j _ hlt p hp => ?_]
      rw [List.mem_singleton.1 hp]
      exact hq j (by omega)
    have hlater (rest : List Text) : rewritten ps above.length rest = rest :=
      rewritten_of_not_covers fun j hle _ => hps j hle
    have hsame : rewritten (q :: ps) 0 above = rewritten ps 0 above :=
      rewritten_congr fun j _ hlt => image_cons_of_not_covers (hq j (by omega))
    have hrest : rewritten (q :: ps) above.length rest = rewritten [q] above.length rest :=
      rewritten_congr fun j hle _ => image_cons_eq_singleton (hps j hle)
    rw [List.foldlM_cons, hstands.1.apply_eq, hfirst]
    show List.foldlM _ (above ++ rewritten [q] above.length rest) ps = _
    rw [ih (fun p hp => ?_) habove.2]
    · rw [rewritten_append, rewritten_append, Nat.zero_add, hlater, hsame, hrest]
    · have hp' := hstands.2 p hp
      refine ⟨hp'.zero_le, hp'.start_lt_stop, ?_, hp'.closed, hp'.markup_ne⟩
      have := habove.1 p hp
      rw [List.length_append]
      omega

/-- Patches of blocks that have no line in common. -/
theorem replace_eq_rewritten (hstands : ∀ p ∈ ps, p.Stands (Text.lines t).length)
    (hapart : ps.Pairwise Patch.Apart) :
    replace t ps = .ok (Text.unlines (rewritten ps 0 (Text.lines t))) := by
  have hperm := bottomUp_perm ps
  have hstands' : ∀ p ∈ bottomUp ps, p.Stands (Text.lines t).length := fun p hp =>
    hstands p (hperm.mem_iff.1 hp)
  have hapart' : (bottomUp ps).Pairwise Patch.Apart :=
    hperm.symm.pairwise hapart fun hpq => Or.symm hpq
  -- Of two blocks that have no line in common, the one that starts first ends first.
  have habove : (bottomUp ps).Pairwise fun q p => p.stop ≤ q.start := by
    refine (hapart'.and (pairwise_bottomUp ps)).imp_of_mem fun hq hp ⟨hqp, hle⟩ => ?_
    have := (hstands' _ hq).start_lt_stop
    rcases hqp with h | h
    · omega
    · exact h
  rw [replace, foldlM_apply hstands' habove, rewritten_perm hapart hperm]
  rfl

end Replacement

/-! ## Patches of the code blocks of a document -/

theorem CodeBlock.Stands.patch {n : Nat} {b : CodeBlock} (h : b.Stands n) (v : Text) :
    (b.patch v).Stands n :=
  ⟨Int.natCast_nonneg _, Int.ofNat_lt.2 h.start_lt_stop, Int.ofNat_le.2 h.stop_le,
    fun hclosed => Int.ofNat_le.2 (h.closed hclosed), h.markup_ne⟩

/-- The code blocks that are found can get new bodies, whichever they are. -/
theorem CodeBlock.replace_patches {qs : List (CodeBlock × Option Text)}
    (hfind : find t = .ok (qs.map Prod.fst)) : Replacement.replace t (patches qs) =
      .ok (Text.unlines (Replacement.rewritten (patches qs) 0 (Text.lines t))) := by
  refine Replacement.replace_eq_rewritten (fun p hp => ?_)
    (pairwise_patches (pairwise_of_find hfind) fun _ _ _ _ hle => .inl (Int.ofNat_le.2 hle))
  obtain ⟨q, hq, v, -, rfl⟩ := exists_of_mem_patches hp
  exact (stands_of_find hfind q.1 (List.mem_map_of_mem hq)).patch v

/-! ## Fences -/

theorem Text.exists_offset?_of_infix {needle t : Text} (h : needle <:+: t) :
    ∃ n, Text.offset? needle t = some n ∧
      t = t.take n ++ (needle ++ t.drop (n + needle.length)) := by
  have hprefix {t : Text} (h : needle <+: t) :
      t = t.take 0 ++ (needle ++ t.drop (0 + needle.length)) := by
    obtain ⟨rest, rfl⟩ := h
    rw [Nat.zero_add, List.drop_left]
    rfl
  induction t with
  | nil =>
    obtain rfl := List.infix_nil.1 h
    exact ⟨0, rfl, rfl⟩
  | cons c t ih =>
    by_cases hhead : needle <+: c :: t
    · exact ⟨0, if_pos (List.isPrefixOf_iff_prefix.2 hhead), hprefix hhead⟩
    · obtain ⟨n, hn, ht⟩ := ih ((List.infix_cons_iff.1 h).resolve_left hhead)
      refine ⟨n + 1, ?_, ?_⟩
      · rw [Text.offset?, if_neg fun htrue => hhead (List.isPrefixOf_iff_prefix.1 htrue), hn]
        rfl
      · rw [Nat.add_right_comm, List.drop_succ_cons, List.take_succ_cons, List.cons_append, ← ht]

namespace Patch

variable {line : Text}

/-- The new fence is the old one, or a longer run. -/
theorem fence_eq_or (h : p.markup ≠ []) : p.fence = p.markup ∨
    ∃ c ∈ p.markup.head?, ∃ n, p.markup.length < n ∧ p.fence = List.replicate n c := by
  obtain ⟨c, markup, hmarkup⟩ := List.exists_cons_of_ne_nil h
  rw [fence, hmarkup]
  dsimp only
  split
  · exact .inl rfl
  · rename_i hlong
    exact .inr ⟨c, rfl, _, Nat.lt_succ_of_le (Nat.not_lt.1 hlong), rfl⟩

/-- The opening line keeps what stands around its markup. -/
theorem exists_newOpening (h : p.markup <:+: line) :
    ∃ x y, line = x ++ (p.markup ++ y) ∧ p.newOpening line = x ++ (p.fence ++ y) := by
  obtain ⟨n, hn, hline⟩ := Text.exists_offset?_of_infix h
  refine ⟨_, _, hline, ?_⟩
  rw [newOpening]
  split
  · rename_i hsame
    rw [hsame]
    exact hline
  · rw [Replacement.reopen, hn]
    exact List.append_assoc ..

/-- The closing line keeps what stands before its run of fence characters. -/
theorem exists_newClosing {c : Char} (hc : c ∈ p.markup.head?) (h : c ∈ line) :
    ∃ x n y, c ∉ x ∧ 0 < n ∧ y.head? ≠ some c ∧ line = x ++ (List.replicate n c ++ y) ∧
      p.newClosing line = if p.fence = p.markup then line else x ++ p.fence := by
  obtain ⟨x, rest, rfl, hx⟩ := List.eq_append_cons_of_mem h
  refine ⟨x, (rest.takeWhile (· = c)).length + 1, rest.dropWhile (· = c), hx, Nat.succ_pos _,
    Markdown.Fence.head?_dropWhile c rest, ?_, ?_⟩
  · rw [List.replicate_succ, ← Markdown.Fence.takeWhile_eq_replicate, List.cons_append,
      List.takeWhile_append_dropWhile]
  · rw [newClosing]
    obtain ⟨markup, hmarkup⟩ := List.head?_eq_some_iff.1 hc
    refine ite_congr rfl (fun _ => rfl) fun _ => ?_
    rw [hmarkup]
    exact Replacement.reclose_eq (k := 1) (s := rest) hx Nat.zero_lt_one

end Patch

/-! ## What changes and what does not -/

/-- The patch is one of the document: its markup stands in its opening line, and if its block is
    closed, the fence character stands in the last line of the block. -/
structure Patch.Within (ls : List Text) (p : Patch) : Prop extends p.Stands ls.length where
  opening : ∃ line ∈ ls[p.start.toNat]?, p.markup <:+: line
  closing : p.isClosed → ∃ line ∈ ls[(p.stop - 1).toNat]?, ∃ c ∈ p.markup.head?, c ∈ line

/-- What a replacement makes of the lines of a block. -/
structure Patch.Renews (ls : List Text) (image : Nat → Text → List Text) (p : Patch) :
    Prop where
  /-- The fence stays as it is, or becomes a longer run of its character. -/
  fence : p.fence = p.markup ∨
    ∃ c ∈ p.markup.head?, ∃ n, p.markup.length < n ∧ p.fence = List.replicate n c
  /-- The opening line keeps what stands around the markup, and the new body follows. -/
  opening : ∃ x y, x ++ (p.markup ++ y) ∈ ls[p.start.toNat]? ∧
    image p.start.toNat (x ++ (p.markup ++ y)) =
      (x ++ (p.fence ++ y)) :: Replacement.bodyLines p.lead p.value
  /-- The old body is gone. -/
  body : ∀ (i : Nat) line, p.start < i → i < (if p.isClosed then p.stop - 1 else p.stop) →
    image i line = []
  /-- The closing line stays as it is, or keeps what stands before its run. -/
  closing : p.isClosed → ∃ c ∈ p.markup.head?, ∃ x n y, c ∉ x ∧ 0 < n ∧ y.head? ≠ some c ∧
    x ++ (List.replicate n c ++ y) ∈ ls[(p.stop - 1).toNat]? ∧
    image (p.stop - 1).toNat (x ++ (List.replicate n c ++ y)) =
      [if p.fence = p.markup then x ++ (List.replicate n c ++ y) else x ++ p.fence]

theorem Patch.Within.renews (h : p.Within ls) (hp : p ∈ ps) (hapart : ps.Pairwise Patch.Apart) :
    p.Renews ls (Replacement.image ps) := by
  have hzero := h.zero_le
  have hlt := h.start_lt_stop
  refine ⟨Patch.fence_eq_or h.markup_ne, ?_, fun i line hle hlt => ?_, fun hclosed => ?_⟩
  · obtain ⟨line, hline, hmarkup⟩ := h.opening
    obtain ⟨x, y, rfl, hnew⟩ := Patch.exists_newOpening hmarkup
    refine ⟨x, y, hline, ?_⟩
    rw [Replacement.image_of_covers hapart hp ⟨by omega, by omega⟩, Patch.image,
      if_pos (by omega), hnew]
  · have hbody : (i : Int) < p.stop ∧ ¬(p.isClosed ∧ p.stop = i + 1) := by
      split at hlt
      · omega
      · rename_i hopen
        exact ⟨hlt, fun hlast => hopen hlast.1⟩
    rw [Replacement.image_of_covers hapart hp ⟨Int.le_of_lt hle, hbody.1⟩, Patch.image,
      if_neg (Int.ne_of_lt hle), if_neg hbody.2]
  · have htwo := h.closed hclosed
    obtain ⟨line, hline, c, hc, hmem⟩ := h.closing hclosed
    obtain ⟨x, n, y, hx, hn, hy, rfl, hnew⟩ := Patch.exists_newClosing hc hmem
    refine ⟨c, hc, x, n, y, hx, hn, hy, hline, ?_⟩
    rw [Replacement.image_of_covers hapart hp ⟨by omega, by omega⟩, Patch.image,
      if_neg (by omega), if_pos ⟨hclosed, by omega⟩, hnew]

namespace Replacement

theorem replace_nil (t : Text) : replace t [] = .ok (Text.unifyBreaks t) := by
  rw [replace, bottomUp, List.mergeSort_nil, List.foldlM_nil]
  exact congrArg Except.ok (Text.join_splitAt '\n' (Text.unifyBreaks t))

/-- Patches of blocks that have no line in common exchange the bodies of these blocks and the
    fences around them, in whatever order they are listed, and leave all other lines as they
    are. -/
theorem replace_frame (hwithin : ∀ p ∈ ps, p.Within (Text.lines t))
    (hapart : ps.Pairwise Patch.Apart) :
    (∀ qs, qs.Perm ps → replace t qs = .ok (Text.unlines (rewritten ps 0 (Text.lines t)))) ∧
      replace t [] = .ok (Text.unifyBreaks t) ∧
      (∀ i line, (∀ p ∈ ps, ¬p.Covers i) → image ps i line = [line]) ∧
      ∀ p ∈ ps, p.Renews (Text.lines t) (image ps) := by
  refine ⟨fun qs hperm => ?_, replace_nil t, fun i line h => image_of_not_covers h line,
    fun p hp => (hwithin p hp).renews hp hapart⟩
  rw [replace_eq_rewritten (fun q hq => (hwithin q (hperm.mem_iff.1 hq)).toStands)
    (hperm.symm.pairwise hapart fun hpq => Or.symm hpq), rewritten_perm hapart hperm]

/-- A closed block of which the fence becomes longer, and one that is not closed and loses its
    body. -/
theorem replace_frame_of_two_blocks :
    let t : Text := "a\r\n~~~x\nold\n~~~\n> ```\n> b\nc".toList
    let p : Patch := ⟨1, 4, true, [], "~~~".toList, "~~~\nnew".toList⟩
    let q : Patch := ⟨4, 6, false, "> ".toList, "```".toList, []⟩
    let t' : Text := "a\n~~~~x\n~~~\nnew\n~~~~\n> ```\nc".toList
    (∀ r ∈ [p, q], r.Within (Text.lines t)) ∧ [p, q].Pairwise Patch.Apart ∧
      replace t [p, q] = .ok t' ∧ replace t [q, p] = .ok t' := by
  intro t p q t'
  have hwithin : ∀ r ∈ [p, q], r.Within (Text.lines t) := by
    rw [List.forall_mem_cons, List.forall_mem_singleton]
    constructor
    · exact ⟨⟨by decide, by decide, by decide, by decide, by decide⟩,
        ⟨"~~~x".toList, rfl, [], "x".toList, rfl⟩, fun _ => ⟨"~~~".toList, rfl, '~', rfl, by decide⟩⟩
    · exact ⟨⟨by decide, by decide, by decide, by decide, by decide⟩,
        ⟨"> ```".toList, rfl, "> ".toList, [], rfl⟩, nofun⟩
  have hapart : [p, q].Pairwise Patch.Apart :=
    .cons (fun r hr => .inl (List.mem_singleton.1 hr ▸ Int.le_refl 4)) (List.pairwise_singleton ..)
  obtain ⟨hperm, -⟩ := replace_frame hwithin hapart
  have hlines : Text.unlines (rewritten [p, q] 0 (Text.lines t)) = t' := by decide
  rw [hlines] at hperm
  exact ⟨hwithin, hapart, hperm _ (.refl _), hperm _ (.swap p q [])⟩

/-- What stands behind the run of a closing line is lost if the fence becomes longer: no exchange
    of the run alone turns the old closing line into the new one. -/
theorem not_only_run_of_longer_fence :
    let t : Text := "~~~\na\n~~~ \nb".toList
    let block : CodeBlock :=
      { lang := none, metadata := none, value := ['a'], startLine := 0, endLine := 3,
        markup := "~~~".toList }
    let p := block.patch "~~~".toList
    CodeBlock.find t = .ok [block] ∧ p.Within (Text.lines t) ∧
      Text.lines t = ["~~~".toList, ['a'], "~~~ ".toList, ['b']] ∧
      replace t [p] = .ok (Text.unlines ["~~~~".toList, "~~~".toList, "~~~~".toList, ['b']]) ∧
      ¬∃ x m n y, "~~~ ".toList = x ++ (List.replicate m '~' ++ y) ∧
        "~~~~".toList = x ++ (List.replicate n '~' ++ y) := by
  intro t block p
  refine ⟨by decide +kernel, ?_, by decide, ?_, ?_⟩
  · exact ⟨⟨by decide, by decide, by decide, by decide, by decide⟩,
      ⟨"~~~".toList, rfl, [], [], rfl⟩, fun _ => ⟨"~~~ ".toList, rfl, '~', rfl, by decide⟩⟩
  · rw [replace, bottomUp, List.mergeSort_singleton]
    decide +kernel
  · rintro ⟨x, m, n, y, hold, hnew⟩
    -- The blank would have to stand in one of the parts, and the new line has none.
    have hblank : ' ' ∈ x ++ (List.replicate m '~' ++ y) := hold ▸ by decide
    have hnone : ' ' ∉ x ++ (List.replicate n '~' ++ y) := hnew ▸ by decide
    rw [List.mem_append, List.mem_append] at hblank hnone
    rw [not_or, not_or] at hnone
    rcases hblank with h | h | h
    · exact hnone.1 h
    · exact absurd (List.eq_of_mem_replicate h) (by decide)
    · exact hnone.2.2 h

end Replacement

end Transclude
