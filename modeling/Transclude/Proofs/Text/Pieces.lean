import Transclude.Text.Basic

/-!
# Pieces and lines of a text

Taking a text apart at a separator and putting the pieces together again undo each other:
`join` undoes `splitAt` on every text, and `splitAt` undoes `join` on every list of pieces
that could have come from a text, that is, on a list that is not empty and whose pieces do
not hold the separator.

A text without carriage returns has no line breaks to unify, so its lines are simply its
pieces between line feeds.

* `Text.join_splitAt`, `Text.splitAt_join`: the two round trips;
* `Text.lines_eq_splitAt`: the lines of a text without carriage returns;
* `Text.lines_unlines`: the lines of a text that is made of plain lines.
-/

namespace Transclude

namespace Text

variable {sep : Char} {t piece : Text} {pieces : List Text}

/-! ## Splitting -/

theorem splitAt_ne_nil (sep : Char) (t : Text) : splitAt sep t ≠ [] := by
  cases t with
  | nil => exact List.cons_ne_nil _ _
  | cons c t =>
    rw [splitAt]
    split
    · exact List.cons_ne_nil _ _
    · split <;> exact List.cons_ne_nil _ _

/-- A character that does not separate goes to the first piece. -/
theorem splitAt_cons_of_ne {c : Char} (h : c ≠ sep) :
    ∃ piece pieces, splitAt sep t = piece :: pieces ∧
      splitAt sep (c :: t) = (c :: piece) :: pieces := by
  obtain ⟨piece, pieces, ht⟩ := List.exists_cons_of_ne_nil (splitAt_ne_nil sep t)
  exact ⟨piece, pieces, ht, by rw [splitAt, if_neg h, ht]⟩

/-- The first separator ends the first piece. -/
theorem splitAt_append_cons (h : sep ∉ piece) :
    splitAt sep (piece ++ sep :: t) = piece :: splitAt sep t := by
  induction piece with
  | nil => rw [List.nil_append, splitAt, if_pos rfl]
  | cons c piece ih =>
    rw [List.mem_cons, not_or] at h
    rw [List.cons_append, splitAt, if_neg (Ne.symm h.1), ih h.2]

/-- Each separator parts the pieces before it from those after it. -/
theorem splitAt_append_sep (sep : Char) (s t : Text) :
    splitAt sep (s ++ sep :: t) = splitAt sep s ++ splitAt sep t := by
  induction s with
  | nil => exact splitAt_append_cons List.not_mem_nil
  | cons c s ih =>
    by_cases hc : c = sep
    · rw [List.cons_append, splitAt, if_pos hc, ih, splitAt, if_pos hc]
      rfl
    · obtain ⟨first, pieces, hs, hcs⟩ := splitAt_cons_of_ne (t := s) hc
      rw [List.cons_append, splitAt, if_neg hc, ih, hcs, hs]
      rfl

/-- A text without the separator is its only piece. -/
theorem splitAt_of_not_mem (h : sep ∉ piece) : splitAt sep piece = [piece] := by
  induction piece with
  | nil => rfl
  | cons c piece ih =>
    rw [List.mem_cons, not_or] at h
    rw [splitAt, if_neg (Ne.symm h.1), ih h.2]

/-- No piece holds the separator. -/
theorem not_mem_of_mem_splitAt (h : piece ∈ splitAt sep t) : sep ∉ piece := by
  induction t generalizing piece with
  | nil =>
    rw [splitAt, List.mem_singleton] at h
    rw [h]
    exact List.not_mem_nil
  | cons c t ih =>
    by_cases hc : c = sep
    · rw [splitAt, if_pos hc, List.mem_cons] at h
      rcases h with rfl | h
      · exact List.not_mem_nil
      · exact ih h
    · obtain ⟨first, pieces, ht, hct⟩ := splitAt_cons_of_ne (t := t) hc
      rw [hct, List.mem_cons] at h
      rcases h with rfl | h
      · rw [List.mem_cons, not_or]
        exact ⟨Ne.symm hc, ih (ht ▸ List.mem_cons_self)⟩
      · exact ih (ht ▸ List.mem_cons_of_mem _ h)

/-- Every character of a piece is one of the text. -/
theorem mem_of_mem_splitAt {c : Char} (h : piece ∈ splitAt sep t) (hc : c ∈ piece) : c ∈ t := by
  induction t generalizing piece with
  | nil =>
    rw [splitAt, List.mem_singleton] at h
    rwa [h] at hc
  | cons d t ih =>
    by_cases hd : d = sep
    · rw [splitAt, if_pos hd, List.mem_cons] at h
      rcases h with rfl | h
      · exact absurd hc List.not_mem_nil
      · exact List.mem_cons_of_mem _ (ih h hc)
    · obtain ⟨first, pieces, ht, hdt⟩ := splitAt_cons_of_ne (t := t) hd
      rw [hdt, List.mem_cons] at h
      rcases h with rfl | h
      · rcases List.mem_cons.1 hc with rfl | hc
        · exact List.mem_cons_self
        · exact List.mem_cons_of_mem _ (ih (ht ▸ List.mem_cons_self) hc)
      · exact List.mem_cons_of_mem _ (ih (ht ▸ List.mem_cons_of_mem _ h) hc)

/-! ## Joining -/

theorem join_cons (sep : Char) (piece : Text) (h : pieces ≠ []) :
    join sep (piece :: pieces) = piece ++ sep :: join sep pieces := by
  cases pieces with
  | nil => exact absurd rfl h
  | cons => rfl

/-- Two lists of pieces, one after the other, have one more separator between them. -/
theorem join_append {pieces' : List Text} (sep : Char) (h : pieces ≠ []) (h' : pieces' ≠ []) :
    join sep (pieces ++ pieces') = join sep pieces ++ sep :: join sep pieces' := by
  induction pieces with
  | nil => exact absurd rfl h
  | cons piece pieces ih =>
    cases pieces with
    | nil => exact join_cons sep piece h'
    | cons next pieces =>
      have hne : next :: pieces ++ pieces' ≠ [] := List.cons_ne_nil _ _
      rw [List.cons_append, join_cons _ _ hne, ih (List.cons_ne_nil _ _),
        join_cons _ _ (List.cons_ne_nil _ _), List.append_assoc, List.cons_append]

/-- The pieces of a text make up the text. -/
theorem join_splitAt (sep : Char) (t : Text) : join sep (splitAt sep t) = t := by
  induction t with
  | nil => rfl
  | cons c t ih =>
    by_cases hc : c = sep
    · rw [splitAt, if_pos hc, join_cons _ _ (splitAt_ne_nil sep t), ih, List.nil_append, hc]
    · obtain ⟨first, pieces, ht, hct⟩ := splitAt_cons_of_ne (t := t) hc
      rw [ht] at ih
      rw [hct, ← ih]
      cases pieces <;> rfl

/-- A text made of pieces without the separator has these pieces. -/
theorem splitAt_join (hne : pieces ≠ []) (h : ∀ piece ∈ pieces, sep ∉ piece) :
    splitAt sep (join sep pieces) = pieces := by
  induction pieces with
  | nil => exact absurd rfl hne
  | cons piece pieces ih =>
    have hpiece := h piece List.mem_cons_self
    rcases pieces with _ | ⟨next, pieces⟩
    · exact splitAt_of_not_mem hpiece
    · rw [join_cons _ _ (List.cons_ne_nil _ _), splitAt_append_cons hpiece,
        ih (List.cons_ne_nil _ _) fun piece hmem => h piece (List.mem_cons_of_mem _ hmem)]

/-- A character of a text that is made of pieces separates them or belongs to one. -/
theorem mem_join {c : Char} (h : c ∈ join sep pieces) : c = sep ∨ ∃ piece ∈ pieces, c ∈ piece := by
  induction pieces with
  | nil => exact absurd h List.not_mem_nil
  | cons piece pieces ih =>
    rcases pieces with _ | ⟨next, pieces⟩
    · exact .inr ⟨piece, List.mem_cons_self, h⟩
    · rw [join_cons _ _ (List.cons_ne_nil _ _), List.mem_append, List.mem_cons] at h
      rcases h with h | rfl | h
      · exact .inr ⟨piece, List.mem_cons_self, h⟩
      · exact .inl rfl
      · exact (ih h).imp_right fun ⟨p, hp, hc⟩ => ⟨p, List.mem_cons_of_mem _ hp, hc⟩

/-- Each piece stands somewhere in the text. -/
theorem infix_join (h : piece ∈ pieces) : piece <:+: join sep pieces := by
  induction pieces with
  | nil => exact absurd h List.not_mem_nil
  | cons first pieces ih =>
    rcases pieces with _ | ⟨next, pieces⟩
    · rw [List.mem_singleton.1 h]
      exact List.infix_rfl
    · rw [join_cons _ _ (List.cons_ne_nil _ _)]
      rcases List.mem_cons.1 h with rfl | h
      · exact (List.prefix_append _ _).isInfix
      · exact (ih h).trans ((List.suffix_cons _ _).trans (List.suffix_append _ _)).isInfix

theorem infix_of_mem_splitAt (h : piece ∈ splitAt sep t) : piece <:+: t := by
  have : piece <:+: join sep (splitAt sep t) := infix_join h
  rwa [join_splitAt] at this

/-! ## Line breaks -/

/-- A text without carriage returns has no line breaks to unify. -/
theorem unifyBreaks_eq_self (h : '\r' ∉ t) : unifyBreaks t = t := by
  fun_induction unifyBreaks t with
  | case1 => rfl
  | case2 t => exact absurd List.mem_cons_self h
  | case3 c t _ ih => rw [ih fun ht => h (List.mem_cons_of_mem _ ht)]

/-- A text without carriage returns has no line breaks to unify, whichever they are. -/
theorem unifyAllBreaks_eq_self (h : '\r' ∉ t) : unifyAllBreaks t = t := by
  fun_induction unifyAllBreaks t with
  | case1 => rfl
  | case2 t => exact absurd List.mem_cons_self h
  | case3 t => exact absurd List.mem_cons_self h
  | case4 c t _ _ ih => rw [ih fun ht => h (List.mem_cons_of_mem _ ht)]

/-- The lines of a text without carriage returns are its pieces between line feeds. -/
theorem lines_eq_splitAt (h : '\r' ∉ t) : lines t = splitAt '\n' t := by
  rw [lines, unifyBreaks_eq_self h]

/-- Unifying line breaks keeps the lines. -/
theorem lines_unifyBreaks (h : '\r' ∉ unifyBreaks t) : lines (unifyBreaks t) = lines t :=
  lines_eq_splitAt h

theorem no_return_of_mem_lines (ht : '\r' ∉ t) (h : piece ∈ lines t) : '\r' ∉ piece := fun hmem =>
  ht (mem_of_mem_splitAt (lines_eq_splitAt ht ▸ h) hmem)

/-! ## Plain texts -/

/-- A text without carriage returns and NUL. -/
structure IsPlain (t : Text) : Prop where
  no_return : '\r' ∉ t
  no_nul : '\x00' ∉ t

/-- A plain text without line breaks. -/
def IsLine (t : Text) : Prop :=
  ∀ c ∈ t, c ≠ '\n' ∧ c ≠ '\r' ∧ c ≠ '\x00'

theorem isLine_append : IsLine (t ++ piece) ↔ IsLine t ∧ IsLine piece :=
  List.forall_mem_append

/-- The lines of a plain text are plain. -/
theorem IsPlain.isLine (ht : t.IsPlain) (h : piece ∈ lines t) : piece.IsLine := by
  rw [lines_eq_splitAt ht.no_return] at h
  have hmem {c : Char} (hc : c ∈ piece) : c ∈ t := mem_of_mem_splitAt h hc
  refine fun c hc => ⟨?_, ?_, ?_⟩
  · rintro rfl
    exact not_mem_of_mem_splitAt h hc
  · rintro rfl
    exact ht.no_return (hmem hc)
  · rintro rfl
    exact ht.no_nul (hmem hc)

/-- A text that is made of plain lines is plain. -/
theorem isPlain_unlines (h : ∀ piece ∈ pieces, IsLine piece) : (unlines pieces).IsPlain := by
  have hmem {c : Char} (hc : c ∈ unlines pieces) : c = '\n' ∨ c ≠ '\r' ∧ c ≠ '\x00' :=
    (mem_join hc).imp_right fun ⟨piece, hpiece, hc⟩ => (h piece hpiece c hc).2
  refine ⟨fun hc => ?_, fun hc => ?_⟩
  · exact (hmem hc).elim (absurd · (by decide)) fun hne => hne.1 rfl
  · exact (hmem hc).elim (absurd · (by decide)) fun hne => hne.2 rfl

/-- The lines of a plain text make up the text. -/
theorem unlines_lines (ht : t.IsPlain) : unlines (lines t) = t := by
  rw [unlines, lines_eq_splitAt ht.no_return, join_splitAt]

/-- A text that is made of plain lines has these lines. -/
theorem lines_unlines (hne : pieces ≠ []) (h : ∀ piece ∈ pieces, IsLine piece) :
    lines (unlines pieces) = pieces := by
  rw [lines_eq_splitAt (isPlain_unlines h).no_return]
  exact splitAt_join hne fun piece hpiece hmem => (h piece hpiece _ hmem).1 rfl

end Text

end Transclude
