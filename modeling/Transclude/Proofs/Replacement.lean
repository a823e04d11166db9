import Transclude.Proofs.CodeBlock
import Transclude.Proofs.Replacement.Fit

/-!
# Replacing the body of a code block

A patch exchanges the body lines of a block, puts the lead in front of each new one, and where
the new body holds too long a run of the fence character, it makes both fences longer. In terms
of the lines of the document this is an `Edit`.

* `Replacement.bodyLines_eq`: the new body lines, as they are written;
* `Replacement.not_closes_of_mem_valueLines`: none of them closes the new fence;
* `Patch.apply_of_closed`, `Patch.apply_of_unclosed`: the lines of a document after a patch,
  whatever the markup is;
* `Markdown.FenceLines.replace_eq`: the document after a patch.
-/

namespace Transclude

open Markdown (IsFenceChar Blanks carry leadChar solid)

namespace Replacement

variable {d c : Char} {n : Nat} {v x line : Text}

/-! ## The new body lines -/

/-- The lines of a body; the empty body has none. -/
def valueLines (v : Text) : List Text :=
  if v.isEmpty then [] else Text.splitAt '\n' v

theorem unlines_valueLines (v : Text) : Text.unlines (valueLines v) = v := by
  rw [valueLines]
  split
  · rename_i h
    rw [List.isEmpty_iff.1 h]
    rfl
  · exact Text.join_splitAt '\n' v

theorem mem_lines_of_mem_valueLines (hv : v.IsPlain) (h : line ∈ valueLines v) :
    line ∈ Text.lines v := by
  rw [valueLines] at h
  rw [Text.lines_eq_splitAt hv.no_return]
  split at h
  · exact absurd h List.not_mem_nil
  · exact h

theorem no_break_of_mem_valueLines (h : line ∈ valueLines v) : '\n' ∉ line := by
  rw [valueLines] at h
  split at h
  · exact absurd h List.not_mem_nil
  · exact Text.not_mem_of_mem_splitAt h

theorem infix_of_mem_valueLines (h : line ∈ valueLines v) : line <:+: v := by
  rw [valueLines] at h
  split at h
  · exact absurd h List.not_mem_nil
  · exact Text.infix_of_mem_splitAt h

/-- The lines of a body that is not empty are the only plain ones that make it up. -/
theorem eq_valueLines {ls : List Text} (h : ∀ line ∈ ls, line.IsLine) (hne : valueLines v ≠ [])
    (hv : Text.unlines ls = v) : ls = valueLines v := by
  rw [valueLines] at hne ⊢
  split at hne
  · exact absurd rfl hne
  · rename_i hv'
    have hls : ls ≠ [] := fun hnil => by
      rw [hnil] at hv
      exact hv' (List.isEmpty_iff.2 hv.symm)
    rw [if_neg hv', ← hv]
    exact (Text.splitAt_join hls fun line hline hmem => (h line hline _ hmem).1 rfl).symm

theorem isBlank_leadChar (c : Char) : Text.isBlank (leadChar c) = decide (c ≠ '>') := by
  by_cases hquote : c = '>'
  · rw [hquote]
    rfl
  · rw [decide_eq_true hquote, leadChar]
    split
    · rename_i h
      rw [Bool.or_eq_true, Bool.or_eq_true, decide_eq_true_eq, decide_eq_true_eq,
        decide_eq_true_eq] at h
      rcases h with (rfl | rfl) | h
      · decide
      · decide
      · exact absurd h hquote
    · decide

/-- A body line behind the lead; of an empty line the lead is left without white space at
    its end. -/
theorem carry_eq (x line : Text) : carry x line =
    if line.isEmpty then Text.trimEnd Text.isBlank (CodeBlock.leadOf x)
    else CodeBlock.leadOf x ++ line := by
  rw [Markdown.leadOf_eq_map]
  induction x with
  | nil =>
    split
    · rename_i h
      exact List.isEmpty_iff.1 h
    · rfl
  | cons c x ih =>
    rw [carry, ih, List.map_cons]
    split
    · rw [Text.trimEnd_cons, isBlank_leadChar]
    · rename_i h
      rw [if_neg]
      · rfl
      · rw [Bool.and_eq_true, List.isEmpty_iff, List.append_eq_nil_iff]
        exact fun hnil => h (List.isEmpty_iff.2 hnil.1.2)

theorem bodyLines_eq (x v : Text) :
    bodyLines (CodeBlock.leadOf x) v = (valueLines v).map (carry x) := by
  rw [bodyLines, valueLines]
  split
  · rfl
  · exact List.map_congr_left fun line _ => (carry_eq x line).symm

/-! ## The new body in the new fence -/

/-- No body line starts with a run that reaches the length of the new fence. -/
theorem lt_fitSize (h : line ∈ valueLines v) :
    ((solid line).takeWhile (· = c)).length < fitSize c n v := by
  refine lt_fitSize_of_run ?_
  rw [← Markdown.Fence.takeWhile_eq_replicate]
  exact ((List.takeWhile_prefix _).isInfix.trans (List.dropWhile_suffix _).isInfix).trans
    (infix_of_mem_valueLines h)

theorem isLeadChar_leadChar (c : Char) : CodeBlock.isLeadChar (leadChar c) := by
  rw [leadChar]
  split
  · rename_i h
    exact h
  · decide

/-- The lead does not change whether a line closes a fence. -/
theorem closes_carry (markup x line : Text) :
    CodeBlock.closes markup (carry x line) = CodeBlock.closes markup line := by
  -- The lead consists of characters that are dropped in any case.
  have hdrop : (carry x line).dropWhile CodeBlock.isLeadChar =
      line.dropWhile CodeBlock.isLeadChar := by
    induction x with
    | nil => rfl
    | cons c x ih =>
      by_cases hnil : carry (c :: x) line = []
      · rw [hnil, (Markdown.carry_eq_nil_iff.1 hnil).1]
      · rw [Markdown.carry_cons_of_ne_nil hnil,
          List.dropWhile_cons_of_pos (isLeadChar_leadChar c), ih]
  unfold CodeBlock.closes
  rw [hdrop]

/-- No line of the new body looks as if it closed the new fence. -/
theorem not_closes_of_mem_valueLines (hn : 0 < n) (h : line ∈ valueLines v) :
    CodeBlock.closes (List.replicate (fitSize d n v) d) line = .ok false := by
  have hpos : 0 < fitSize d n v := fitSize_pos hn
  refine CodeBlock.closes_eq_false hpos rfl fun htrue => ?_
  obtain ⟨c, rfl⟩ := CodeBlock.exists_closingLine hpos htrue
  have hrun : List.replicate c.run d <:+: v :=
    List.IsInfix.trans ⟨c.outer, c.rest, List.append_assoc ..⟩ (infix_of_mem_valueLines h)
  exact absurd c.le_run (Nat.not_le.2 (lt_fitSize_of_run hrun))

end Replacement

/-! ## The new document -/

namespace Markdown.FenceLines

open CodeBlock (ClosingLine)

variable {t v : Text} {f : Fence} (h : FenceLines t f)

/-- How the document changes if the body of the fence becomes `v`. -/
def edit (v : Text) : Edit where
  fence := h.fence
  isFenceChar := h.isFenceChar
  size := h.size
  size' := Replacement.fitSize h.fence h.size v
  size_le := h.size_le
  size_le' := Nat.le_trans h.size_le (Replacement.le_fitSize _ _ _)
  info := f.info
  isInfo := h.isInfo
  body := Replacement.valueLines v
  runs := fun _ hline => Replacement.lt_fitSize hline
  isClosed := h.closing.isSome
  lead := h.lead
  before := h.before
  old := h.old ++ h.closing.toList.map ClosingLine.text
  closing := h.closing.toList.map fun c => (c.renew (Replacement.fitSize h.fence h.size v)).text
  after := h.after

theorem lines_eq (v : Text) : Text.lines t = (h.edit v).pieces := by
  rw [h.lines, h.markup]
  rfl

/-- The lines around the new fence. -/
def renew {exact : Prop} {t' : Text} {g f' : Fence} (hlines : Text.lines t' = (h.edit v).pieces')
    (hfences : Site.Fences (h.edit v).toExchange exact (h.edit v).before.length
      (h.edit v).old.length (h.edit v).new.length g f') : FenceLines t' f' where
  fence := h.fence
  isFenceChar := h.isFenceChar
  size := Replacement.fitSize h.fence h.size v
  size_le := (h.edit v).size_le'
  markup := hfences.markup'
  isInfo := hfences.info' ▸ h.isInfo
  lead := h.lead
  lead_not := h.lead_not
  before := h.before
  old := (Replacement.valueLines v).map (carry h.lead)
  after := h.after
  closing := h.closing.map fun c => c.renew (Replacement.fitSize h.fence h.size v)
  lines := by
    rw [hlines, hfences.markup', hfences.info', Option.toList_map, List.map_map]
    rfl
  start := hfences.start'
  stop := by
    rw [hfences.stop', Option.toList_map, List.map_map]
    rfl
  not_closes := fun _ line hline => by
    obtain ⟨w, hw, rfl⟩ := List.mem_map.1 (List.mem_of_getLast? hline)
    rw [hfences.markup']
    exact (Replacement.closes_carry ..).trans
      (Replacement.not_closes_of_mem_valueLines h.size_pos hw)

/-- The new fence ends as the old one does. -/
theorem ends_edit (hlast : h.closing = none → h.after = [] →
    ∀ line ∈ (Replacement.valueLines v).getLast?, solid line ≠ []) : (h.edit v).Ends := by
  cases hclosing : h.closing with
  | none =>
    refine .unclosed ?_ ?_ (hlast hclosing)
    · show h.closing.isSome = false
      rw [hclosing]
      rfl
    · show h.closing.toList.map _ = []
      rw [hclosing]
      rfl
  | some c =>
    have hpos : 0 < Replacement.fitSize h.fence h.size v := Replacement.fitSize_pos h.size_pos
    refine @Edit.Ends.closed _ h.old _ _ _ ?_ c.outer_mark
      (c.startsFence h.isFenceChar h.size_pos) ((c.renew _).startsFence h.isFenceChar hpos)
      (c.closing_renew _) ?_ ?_
    · show h.closing.isSome = true
      rw [hclosing]
      rfl
    · show h.old ++ h.closing.toList.map ClosingLine.text = _
      rw [hclosing]
      rfl
    · show h.closing.toList.map _ = _
      rw [hclosing, ← c.outer_renew (Replacement.fitSize h.fence h.size v)]
      rfl

theorem correct_edit {exact : Prop} (htabs : TabsUpTo 2 h.lead)
    (hsuits : (h.edit v).Suits exact h.lead) (hends : (h.edit v).Ends) :
    (h.edit v).Correct exact :=
  ⟨h.lead_not, htabs, hsuits, hends⟩

end Markdown.FenceLines

namespace Replacement

variable {t v : Text} {f : Markdown.Fence}

theorem position?_natCast {n m : Nat} (h : m < n) : position? n (m : Int) = some m := by
  have hindex : ¬(m : Int) < 0 := by omega
  have hbounds : (decide ((0 : Int) ≤ m) && decide ((m : Int) < n)) = true := by
    rw [Bool.and_eq_true, decide_eq_true_eq, decide_eq_true_eq]
    omega
  rw [position?]
  simp only [if_neg hindex, if_pos hbounds, Int.toNat_natCast]

theorem position?_natCast_of_le {n m : Nat} (h : n ≤ m) : position? n (m : Int) = none := by
  have hindex : ¬(m : Int) < 0 := by omega
  have hbounds : ¬(decide ((0 : Int) ≤ m) && decide ((m : Int) < n)) = true := by
    rw [Bool.and_eq_true, decide_eq_true_eq, decide_eq_true_eq]
    omega
  rw [position?]
  simp only [if_neg hindex, if_neg hbounds]

theorem modifyLine_eq {g : Text → Text} {before after : List Text} {line : Text} {index : Int}
    (h : index = before.length) :
    modifyLine g (before ++ line :: after) index = .ok (before ++ g line :: after) := by
  rw [modifyLine, h, position?_natCast (by simp)]
  exact congrArg Except.ok (List.modifyTailIdx_add (List.modifyHead g) 0 before (line :: after))

theorem splice_eq {before old new after : List Text} {start stop : Int}
    (hstart : start = before.length) (hstop : stop = before.length + old.length) :
    splice (before ++ (old ++ after)) start stop new = before ++ (new ++ after) := by
  have hi : Excerpt.offsetOf (before ++ (old ++ after)).length start = before.length := by
    rw [Excerpt.offsetOf, if_neg (by omega), hstart, List.length_append]
    omega
  have hj : Excerpt.offsetOf (before ++ (old ++ after)).length stop =
      before.length + old.length := by
    rw [Excerpt.offsetOf, if_neg (by omega), hstop, List.length_append, List.length_append]
    omega
  rw [splice, hi, hj]
  rw [Nat.max_eq_right (Nat.le_add_right _ _), List.take_left, List.drop_append,
    List.drop_eq_nil_of_le (Nat.le_add_right _ _), List.nil_append, Nat.add_sub_cancel_left,
    List.drop_left, List.append_assoc]

/-! ## The edit that a patch makes -/

theorem reopen_eq {d : Char} {n : Nat} {x fence info : Text} (hx : d ∉ x) (hn : 0 < n) :
    reopen (List.replicate n d) fence (x ++ (List.replicate n d ++ info)) =
      x ++ (fence ++ info) := by
  rw [reopen, Text.offset?_replicate hx hn (Nat.le_refl n)]
  dsimp only
  rw [List.take_left, List.length_replicate, List.drop_append, List.drop_eq_nil_of_le
    (Nat.le_add_right _ _), List.nil_append, Nat.add_sub_cancel_left, List.append_assoc]
  congr 2
  exact List.drop_left' (List.length_replicate ..)

theorem reclose_eq {d : Char} {k : Nat} {z s fence : Text} (hz : d ∉ z) (hk : 0 < k) :
    reclose d fence (z ++ (List.replicate k d ++ s)) = z ++ fence := by
  have := CodeBlock.beforeMarkup_replicate (s := s) hz Nat.zero_lt_one (show 1 ≤ k from hk)
  rw [List.replicate_one] at this
  rw [reclose, this]

end Replacement

/-- A patch, once the new fence is known. -/
theorem Patch.apply_eq_bind (p : Patch) (ls : List Text) {fence : Text}
    (hfit : Replacement.fit p.markup p.value = .ok fence) :
    p.apply ls = (if fence = p.markup then pure ls else p.refence fence ls).bind fun ls =>
      .ok (Replacement.splice ls (p.start + 1) (if p.isClosed then p.stop - 1 else p.stop)
        (Replacement.bodyLines p.lead p.value)) := by
  rw [apply, hfit]
  show (if _ then _ else _) = _
  split
  · rfl
  · rfl

namespace Patch

open Replacement (fitSize)

variable {p : Patch} {before old : List Text} {d : Char} {n k : Nat} {x z : Text}

/-- The fence that the block has with the new body. -/
def fence (p : Patch) : Text :=
  match p.markup with
  | [] => []
  | c :: _ =>
    if Replacement.longestRun c p.value < p.markup.length then p.markup
    else List.replicate (Replacement.longestRun c p.value + 1) c

theorem fit_eq_fence (h : p.markup ≠ []) : Replacement.fit p.markup p.value = .ok p.fence := by
  rw [fence]
  split
  · rename_i hmarkup
    exact absurd hmarkup h
  · rename_i c markup hmarkup
    rw [hmarkup]
    rfl

/-- The opening line of the block with the new body. -/
def newOpening (p : Patch) (line : Text) : Text :=
  if p.fence = p.markup then line else Replacement.reopen p.markup p.fence line

/-- The closing line of the block with the new body. -/
def newClosing (p : Patch) (line : Text) : Text :=
  if p.fence = p.markup then line
  else match p.markup with
    | [] => line
    | c :: _ => Replacement.reclose c p.fence line

theorem splice_body {stop : Int} (hstart : p.start = before.length)
    (hstop : stop = before.length + 1 + old.length) (opening : Text) (new after : List Text) :
    Replacement.splice (before ++ opening :: (old ++ after)) (p.start + 1) stop new =
      before ++ opening :: (new ++ after) := by
  rw [List.append_cons, Replacement.splice_eq, ← List.append_cons]
  · rw [hstart, List.length_append, List.length_singleton]
    rfl
  · rw [hstop, List.length_append, List.length_singleton]
    rfl

/-- What a patch does to the lines of a closed block: the fences are exchanged if the new one
    is longer, and the body is. -/
theorem apply_of_closed (hmarkup : p.markup ≠ []) (hstart : p.start = before.length)
    (hstop : p.stop = before.length + old.length + 2) (hclosed : p.isClosed)
    (opening closing : Text) (after : List Text) :
    p.apply (before ++ opening :: (old ++ closing :: after)) =
      .ok (before ++ p.newOpening opening :: (Replacement.bodyLines p.lead p.value ++
        p.newClosing closing :: after)) := by
  have hbefore : (if p.isClosed then p.stop - 1 else p.stop) = before.length + 1 + old.length := by
    rw [if_pos hclosed, hstop]
    omega
  rw [apply_eq_bind p _ (fit_eq_fence hmarkup), hbefore, newOpening, newClosing]
  -- If the fence is long enough, the patch leaves the opening and the closing line alone.
  by_cases hsame : p.fence = p.markup
  · rw [if_pos hsame, if_pos hsame, if_pos hsame]
    exact congrArg Except.ok (splice_body hstart rfl _ _ _)
  · rw [if_neg hsame, if_neg hsame, if_neg hsame]
    obtain ⟨c, markup, heq⟩ := List.exists_cons_of_ne_nil hmarkup
    have hrefence : p.refence p.fence (before ++ opening :: (old ++ closing :: after)) =
        .ok (before ++ Replacement.reopen p.markup p.fence opening ::
          (old ++ Replacement.reclose c p.fence closing :: after)) := by
      have hindex : p.stop - 1 =
          (before ++ Replacement.reopen p.markup p.fence opening :: old).length := by
        rw [hstop, List.length_append, List.length_cons]
        omega
      rw [refence, Replacement.modifyLine_eq hstart]
      show (if p.isClosed = true then (match p.markup with | [] => _ | c :: _ => _) else _) = _
      rw [if_pos hclosed, heq]
      show Replacement.modifyLine (Replacement.reclose c p.fence) _ _ = _
      rw [← heq, ← List.cons_append, ← List.append_assoc, Replacement.modifyLine_eq hindex,
        List.append_assoc, List.cons_append]
    rw [hrefence, heq]
    exact congrArg Except.ok (splice_body hstart rfl _ _ _)

/-- What a patch does to the lines of a block that is not closed. -/
theorem apply_of_unclosed (hmarkup : p.markup ≠ []) (hstart : p.start = before.length)
    (hstop : p.stop = before.length + 1 + old.length) (hclosed : p.isClosed = false)
    (opening : Text) (after : List Text) :
    p.apply (before ++ opening :: (old ++ after)) =
      .ok (before ++ p.newOpening opening ::
        (Replacement.bodyLines p.lead p.value ++ after)) := by
  have hafter : (if p.isClosed then p.stop - 1 else p.stop) = before.length + 1 + old.length := by
    rw [hclosed, if_neg Bool.false_ne_true, hstop]
  rw [apply_eq_bind p _ (fit_eq_fence hmarkup), hafter, newOpening]
  by_cases hsame : p.fence = p.markup
  · rw [if_pos hsame, if_pos hsame]
    exact congrArg Except.ok (splice_body hstart rfl _ _ _)
  · rw [if_neg hsame, if_neg hsame, refence, Replacement.modifyLine_eq hstart]
    show ((if p.isClosed = true then _ else _ : Except Failure (List Text)).bind _) = _
    rw [hclosed, if_neg Bool.false_ne_true]
    exact congrArg Except.ok (splice_body hstart rfl _ _ _)

/-! ### Fences that are runs of one character -/

theorem ne_nil_of_replicate (hn : 0 < n) (hmarkup : p.markup = List.replicate n d) :
    p.markup ≠ [] :=
  List.ne_nil_of_length_pos (by rw [hmarkup, List.length_replicate]; exact hn)

theorem fence_eq_replicate (hn : 0 < n) (hmarkup : p.markup = List.replicate n d) :
    p.fence = List.replicate (fitSize d n p.value) d := by
  have h := fit_eq_fence (ne_nil_of_replicate hn hmarkup)
  rw [hmarkup, Replacement.fit_eq hn] at h
  exact (Except.ok.inj h).symm

theorem fence_eq_markup_iff (hn : 0 < n) (hmarkup : p.markup = List.replicate n d) :
    p.fence = p.markup ↔ fitSize d n p.value = n := by
  rw [fence_eq_replicate hn hmarkup, hmarkup]
  refine ⟨fun h => ?_, fun h => by rw [h]⟩
  have := congrArg List.length h
  rwa [List.length_replicate, List.length_replicate] at this

theorem newOpening_eq (hn : 0 < n) (hx : d ∉ x) (hmarkup : p.markup = List.replicate n d)
    (info : Text) : p.newOpening (x ++ (List.replicate n d ++ info)) =
      x ++ (List.replicate (fitSize d n p.value) d ++ info) := by
  rw [newOpening]
  split
  · rename_i hsame
    rw [(fence_eq_markup_iff hn hmarkup).1 hsame]
  · rw [hmarkup, Replacement.reopen_eq hx hn, fence_eq_replicate hn hmarkup]

theorem newClosing_eq (hn : 0 < n) (hk : 0 < k) (hz : d ∉ z)
    (hmarkup : p.markup = List.replicate n d) (rest : Text) :
    p.newClosing (z ++ (List.replicate k d ++ rest)) =
      if fitSize d n p.value = n then z ++ (List.replicate k d ++ rest)
      else z ++ List.replicate (fitSize d n p.value) d := by
  rw [newClosing]
  refine ite_congr (propext (fence_eq_markup_iff hn hmarkup)) (fun _ => rfl) fun _ => ?_
  obtain ⟨m, rfl⟩ : ∃ m, n = m + 1 := ⟨n - 1, by omega⟩
  rw [fence_eq_replicate hn hmarkup, hmarkup]
  exact Replacement.reclose_eq hz hk

theorem apply_closed (hn : 0 < n) (hk : 0 < k) (hx : d ∉ x) (hz : d ∉ z)
    (hstart : p.start = before.length) (hstop : p.stop = before.length + old.length + 2)
    (hclosed : p.isClosed) (hmarkup : p.markup = List.replicate n d) (info rest : Text)
    (after : List Text) : p.apply (before ++ (x ++ (List.replicate n d ++ info)) ::
        (old ++ (z ++ (List.replicate k d ++ rest)) :: after)) =
      .ok (before ++ (x ++ (List.replicate (fitSize d n p.value) d ++ info)) ::
        (Replacement.bodyLines p.lead p.value ++
          (if fitSize d n p.value = n then z ++ (List.replicate k d ++ rest)
            else z ++ List.replicate (fitSize d n p.value) d) :: after)) := by
  rw [apply_of_closed (ne_nil_of_replicate hn hmarkup) hstart hstop hclosed,
    newOpening_eq hn hx hmarkup, newClosing_eq hn hk hz hmarkup]

theorem apply_unclosed (hn : 0 < n) (hx : d ∉ x) (hstart : p.start = before.length)
    (hstop : p.stop = before.length + 1 + old.length) (hclosed : p.isClosed = false)
    (hmarkup : p.markup = List.replicate n d) (info : Text) (after : List Text) :
    p.apply (before ++ (x ++ (List.replicate n d ++ info)) :: (old ++ after)) =
      .ok (before ++ (x ++ (List.replicate (fitSize d n p.value) d ++ info)) ::
        (Replacement.bodyLines p.lead p.value ++ after)) := by
  rw [apply_of_unclosed (ne_nil_of_replicate hn hmarkup) hstart hstop hclosed,
    newOpening_eq hn hx hmarkup]

end Patch

theorem Replacement.replace_singleton {t : Text} {p : Patch} {ls : List Text}
    (h : p.apply (Text.lines t) = .ok ls) : replace t [p] = .ok (Text.unlines ls) := by
  rw [replace, bottomUp, List.mergeSort_singleton, List.foldlM_cons, h]
  rfl

namespace Markdown.FenceLines

open CodeBlock (ClosingLine)

variable {t v : Text} {f : Fence} (h : FenceLines t f)

/-- The lines of the document after the patch that gives the block another body. -/
theorem apply_eq (v : Text) :
    (h.codeBlock.patch v).apply (Text.lines t) = .ok (h.edit v).pieces' := by
  have hbody : Replacement.bodyLines (CodeBlock.leadOf h.lead) v =
      (Replacement.valueLines v).map (carry h.lead) := Replacement.bodyLines_eq h.lead v
  have hlines := h.lines
  have hstop := h.stop
  have hstart : (h.codeBlock.patch v).start = h.before.length := congrArg Nat.cast h.start
  have hpatch : (h.codeBlock.patch v).stop = (f.stop : Int) := rfl
  have hkept : (h.codeBlock.patch v).isClosed = h.closing.isSome := rfl
  rw [Edit.pieces', Edit.new]
  show _ = Except.ok (h.before ++ _ :: ((Replacement.valueLines v).map (carry h.lead) ++
    h.closing.toList.map _ ++ h.after))
  cases hclosing : h.closing with
  | none =>
    rw [hclosing, Option.toList_none, List.map_nil, List.append_nil] at hlines hstop
    rw [hclosing] at hkept
    rw [hlines, h.markup, Option.toList_none, List.map_nil, List.append_nil, ← hbody]
    exact Patch.apply_unclosed h.size_pos h.not_mem_lead hstart (by omega) hkept h.markup f.info
      h.after
  | some c =>
    have hrun : 0 < c.run := Nat.lt_of_lt_of_le h.size_pos c.le_run
    rw [hclosing, Option.toList_some, List.map_singleton, List.append_assoc,
      List.singleton_append] at hlines
    rw [hclosing, Option.toList_some, List.map_singleton, List.length_append,
      List.length_singleton] at hstop
    rw [hclosing] at hkept
    rw [hlines, h.markup, Option.toList_some, List.map_singleton, List.append_assoc,
      List.singleton_append, c.text_renew, ← hbody]
    exact Patch.apply_closed h.size_pos hrun h.not_mem_lead (c.not_mem_outer h.isFenceChar) hstart
      (by omega) hkept h.markup f.info c.rest h.after

/-- The patch that gave the new fence its body leaves it as it is. -/
theorem apply_renew {exact : Prop} {t' : Text} {g f' : Fence}
    (hlines : Text.lines t' = (h.edit v).pieces')
    (hfences : Site.Fences (h.edit v).toExchange exact (h.edit v).before.length
      (h.edit v).old.length (h.edit v).new.length g f') :
    ((h.renew hlines hfences).codeBlock.patch v).apply (Text.lines t') = .ok (Text.lines t') := by
  have hsize := Replacement.fitSize_fitSize h.fence h.size v
  have hmarkup : ((h.renew hlines hfences).edit v).markup' = (h.edit v).markup' :=
    congrArg (List.replicate · h.fence) hsize
  have hnew : ((h.renew hlines hfences).edit v).new = (h.edit v).new :=
    congrArg ((Replacement.valueLines v).map (carry h.lead) ++ ·)
      (ClosingLine.map_text_renew h.closing hsize)
  rw [apply_eq, hlines]
  show Except.ok (h.before ++ (h.lead ++ (((h.renew hlines hfences).edit v).markup' ++ f'.info)) ::
    (((h.renew hlines hfences).edit v).new ++ h.after)) = _
  rw [hmarkup, hnew, hfences.info']
  rfl

/-- The document after that patch. -/
theorem replace_eq (v : Text) : Replacement.replace t [h.codeBlock.patch v] =
    .ok (Text.unlines (h.edit v).pieces') :=
  Replacement.replace_singleton (h.apply_eq v)

end Markdown.FenceLines

end Transclude
