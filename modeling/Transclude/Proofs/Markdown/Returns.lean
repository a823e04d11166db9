import Transclude.Proofs.Markdown.Document

/-!
# Carriage returns in a document

The block structure counts a carriage return that stands alone as a line break, `Text.lines` does
not. So both count the same lines only as far as no carriage return stands inside a line. At the
end of a line a carriage return may stand: it belongs to the line break after it for the block
structure, and to the line otherwise.

* `Text.Whole`: the lines without such a carriage return;
* `Markdown.take_pieces_iff`: how far both count the same lines;
* `Markdown.getElem?_of_mem_documentLines_of_whole`: which line of the document a line is.
-/

namespace Transclude

variable {t line w s : Text} {ls before rest : List Text} {n : Nat}

/-! ## Lines without a carriage return inside -/

namespace Text

/-- No carriage return stands inside the line; one may stand at its end. -/
def Whole (line : Text) : Prop :=
  '\r' ∉ line.dropLast

instance (line : Text) : Decidable line.Whole :=
  inferInstanceAs (Decidable (¬_))

/-- The line without a carriage return at its end. -/
def withoutReturn (line : Text) : Text :=
  if line.getLast? = some '\r' then line.dropLast else line

theorem whole_of_not_mem (h : '\r' ∉ line) : line.Whole := fun hmem =>
  h (List.dropLast_subset line hmem)

/-- A whole line is its text and at most one carriage return. -/
theorem Whole.eq_or (h : line.Whole) : '\r' ∉ line.withoutReturn ∧
    (line = line.withoutReturn ∨ line = line.withoutReturn ++ ['\r']) := by
  rcases List.eq_nil_or_concat line with rfl | ⟨w, c, rfl⟩
  · exact ⟨List.not_mem_nil, .inl rfl⟩
  · rw [Whole, List.concat_eq_append, List.dropLast_concat] at h
    rw [List.concat_eq_append, withoutReturn, List.getLast?_concat, List.dropLast_concat]
    split
    · rename_i hc
      rw [Option.some.inj hc]
      exact ⟨h, .inr rfl⟩
    · rename_i hc
      refine ⟨fun hmem => ?_, .inl rfl⟩
      rcases List.mem_append.1 hmem with hmem | hmem
      · exact h hmem
      · exact hc (congrArg some (List.mem_singleton.1 hmem).symm)

theorem unifyAllBreaks_append (h : '\r' ∉ w) (s : Text) :
    unifyAllBreaks (w ++ s) = w ++ unifyAllBreaks s := by
  induction w with
  | nil => rfl
  | cons c w ih =>
    rw [List.mem_cons, not_or] at h
    rw [List.cons_append, unifyAllBreaks, ih h.2, List.cons_append]
    · exact fun _ hc => absurd hc (Ne.symm h.1)
    · exact fun hc => absurd hc (Ne.symm h.1)

/-- A carriage return before a line feed belongs to the line break. -/
theorem Whole.unifyAllBreaks_append (h : line.Whole) (s : Text) :
    unifyAllBreaks (line ++ '\n' :: s) = line.withoutReturn ++ '\n' :: unifyAllBreaks s := by
  obtain ⟨hreturn, heq⟩ := h.eq_or
  have hfeed : unifyAllBreaks ('\n' :: s) = '\n' :: unifyAllBreaks s :=
    Text.unifyAllBreaks_append (w := ['\n']) (by decide) s
  generalize line.withoutReturn = w at hreturn heq ⊢
  rcases heq with rfl | rfl
  · rw [Text.unifyAllBreaks_append hreturn, hfeed]
  · rw [List.append_assoc, Text.unifyAllBreaks_append hreturn]
    rfl

/-- The last line of a text may end with a carriage return; nothing is left behind it. -/
theorem Whole.unifyAllBreaks_eq (h : line.Whole) :
    unifyAllBreaks line = line.withoutReturn ∨ unifyAllBreaks line = line.withoutReturn ++ ['\n'] := by
  obtain ⟨hreturn, heq⟩ := h.eq_or
  generalize line.withoutReturn = w at hreturn heq ⊢
  rcases heq with rfl | rfl
  · exact .inl (unifyAllBreaks_eq_self hreturn)
  · exact .inr (Text.unifyAllBreaks_append hreturn ['\r'])

theorem splitAt_map {sep : Char} {f : Char → Char} (h : ∀ c, f c = sep ↔ c = sep) (t : Text) :
    splitAt sep (t.map f) = (splitAt sep t).map (List.map f) := by
  induction t with
  | nil => rfl
  | cons c t ih =>
    by_cases hc : c = sep
    · rw [List.map_cons, splitAt, if_pos ((h c).2 hc), ih, splitAt, if_pos hc]
      rfl
    · obtain ⟨piece, pieces, ht, hcons⟩ := splitAt_cons_of_ne (t := t) hc
      rw [hcons, List.map_cons, splitAt, if_neg fun hf => hc ((h c).1 hf), ih, ht]
      rfl

/-- Whole lines are pieces, whichever the line breaks. After the last line of a text a
    carriage return leaves one more piece, which is empty. -/
theorem exists_splitAt_unifyAllBreaks (hbefore : ∀ line ∈ before, line.Whole ∧ '\n' ∉ line)
    (rest : List Text) :
    ∃ extra, splitAt '\n' (unifyAllBreaks (join '\n' (before ++ rest))) =
      before.map withoutReturn ++ extra ∧ (rest = [] → extra = [] ∨ extra = [[]]) := by
  induction before with
  | nil => exact ⟨_, rfl, fun hrest => .inr (by rw [hrest]; rfl)⟩
  | cons line before ih =>
    rw [List.forall_mem_cons] at hbefore
    obtain ⟨⟨hwhole, hfeed⟩, hbefore⟩ := hbefore
    have hfeed' : '\n' ∉ line.withoutReturn := by
      rw [withoutReturn]
      split
      · exact fun hmem => hfeed (List.dropLast_subset line hmem)
      · exact hfeed
    by_cases hnil : before ++ rest = []
    · obtain ⟨rfl, rfl⟩ := List.append_eq_nil_iff.1 hnil
      rcases hwhole.unifyAllBreaks_eq with heq | heq
      · refine ⟨[], ?_, fun _ => .inl rfl⟩
        rw [List.append_nil, join, heq, splitAt_of_not_mem hfeed']
        rfl
      · refine ⟨[[]], ?_, fun _ => .inr rfl⟩
        rw [List.append_nil, join, heq, splitAt_append_cons hfeed']
        rfl
    · obtain ⟨extra, hsplit, hextra⟩ := ih hbefore
      refine ⟨extra, ?_, hextra⟩
      rw [List.cons_append, join_cons _ _ hnil, hwhole.unifyAllBreaks_append,
        splitAt_append_cons hfeed', hsplit]
      rfl

/-- No carriage return is left once all line breaks are unified. -/
theorem not_mem_unifyAllBreaks (t : Text) : '\r' ∉ unifyAllBreaks t := by
  fun_induction unifyAllBreaks t with
  | case1 => exact List.not_mem_nil
  | case2 t ih => exact List.not_mem_cons_of_ne_of_not_mem (by decide) ih
  | case3 t _ ih => exact List.not_mem_cons_of_ne_of_not_mem (by decide) ih
  | case4 c t _ hne ih => exact List.not_mem_cons_of_ne_of_not_mem (Ne.symm hne) ih

end Text

/-! ## The lines that are counted -/

namespace Markdown

variable {l : Line}

/-- A line of a document as the block structure has it. -/
def seen (line : Text) : Text :=
  line.withoutReturn.map fun c => if c = '\x00' then replacement else c

/-- A line without carriage returns and NUL is taken as it is. -/
theorem seen_eq_self (hreturn : '\r' ∉ line) (hnul : '\x00' ∉ line) : seen line = line := by
  rw [seen, Text.withoutReturn, if_neg fun hlast => hreturn (List.mem_of_getLast? hlast)]
  refine (List.map_congr_left fun c hc => ?_).trans (List.map_id' line)
  exact if_neg fun h : c = '\x00' => hnul (h ▸ hc)

theorem exists_pieces (h : ∀ line ∈ (Text.lines t).take n, line.Whole) :
    ∃ extra, pieces t = ((Text.lines t).take n).map seen ++ extra ∧
      ((Text.lines t).length ≤ n → extra = [] ∨ extra = [[]]) := by
  have hfeed : ∀ line ∈ (Text.lines t).take n, line.Whole ∧ '\n' ∉ line := fun line hline =>
    ⟨h line hline, Text.not_mem_of_mem_splitAt (List.mem_of_mem_take hline)⟩
  obtain ⟨extra, hsplit, hextra⟩ :=
    Text.exists_splitAt_unifyAllBreaks hfeed ((Text.lines t).drop n)
  have hjoin : Text.join '\n' ((Text.lines t).take n ++ (Text.lines t).drop n) =
      Text.unifyBreaks t := by
    rw [List.take_append_drop]
    exact Text.join_splitAt '\n' (Text.unifyBreaks t)
  rw [hjoin] at hsplit
  have hnul (c : Char) : (if c = '\x00' then replacement else c) = '\n' ↔ c = '\n' := by
    split
    · rename_i hc
      rw [hc]
      decide
    · exact Iff.rfl
  refine ⟨extra.map (List.map fun c => if c = '\x00' then replacement else c), ?_, fun hle => ?_⟩
  · rw [pieces, cleaned, Text.splitAt_map hnul, hsplit, List.map_append, List.map_map]
    rfl
  · rcases hextra (List.drop_eq_nil_of_le hle) with rfl | rfl
    · exact .inl rfl
    · exact .inr rfl

theorem not_mem_of_mem_pieces {piece : Text} (h : piece ∈ pieces t) : '\r' ∉ piece := fun hmem => by
  obtain ⟨c, hc, heq⟩ := List.mem_map.1 (Text.mem_of_mem_splitAt h hmem)
  split at heq
  · exact absurd heq (by decide)
  · exact Text.not_mem_unifyAllBreaks _ (heq ▸ hc)

theorem whole_of_not_mem_seen (h : '\r' ∉ seen line) : line.Whole := by
  have hreturn : '\r' ∉ line.withoutReturn := fun hmem =>
    h (List.mem_map.2 ⟨'\r', hmem, by decide⟩)
  rw [Text.withoutReturn] at hreturn
  split at hreturn
  · exact hreturn
  · exact Text.whole_of_not_mem hreturn

/-- The block structure goes by the first `n` lines of a document exactly if no carriage return
    stands inside one of them. -/
theorem take_pieces_iff (hn : n ≤ (Text.lines t).length) :
    (pieces t).take n = ((Text.lines t).take n).map seen ↔
      ∀ line ∈ (Text.lines t).take n, line.Whole := by
  refine ⟨fun heq line hline => whole_of_not_mem_seen (not_mem_of_mem_pieces (t := t) ?_),
    fun h => ?_⟩
  · have hmem : seen line ∈ (pieces t).take n := heq ▸ List.mem_map_of_mem hline
    exact List.mem_of_mem_take hmem
  · obtain ⟨extra, hpieces, -⟩ := exists_pieces h
    rw [hpieces]
    exact List.take_left' (by rw [List.length_map, List.length_take, Nat.min_eq_left hn])

/-- If all lines are whole, the block structure has no further ones. -/
theorem length_documentLines_le_of_whole (h : ∀ line ∈ Text.lines t, line.Whole) :
    (documentLines t).length ≤ (Text.lines t).length := by
  obtain ⟨extra, hpieces, hextra⟩ := exists_pieces (t := t) (n := (Text.lines t).length) (by
    rwa [List.take_length])
  have hlength := congrArg List.length hpieces
  rw [List.take_length, List.length_append, List.length_map] at hlength
  rw [length_documentLines]
  rcases hextra (Nat.le_refl _) with rfl | rfl
  · rw [List.length_nil] at hlength
    split <;> omega
  · have hlast : ((pieces t).getLast?.getD []).all Text.isSpaceOrTab := by
      rw [hpieces, List.getLast?_concat]
      rfl
    rw [List.length_singleton] at hlength
    rw [if_pos hlast]
    omega

/-- As long as the lines are whole, a line is the one of the document that has its number. -/
theorem getElem?_of_mem_documentLines_of_whole (h : ∀ line ∈ (Text.lines t).take n, line.Whole)
    (hl : l ∈ documentLines t) (hlt : l.number < n) :
    ∃ line ∈ (Text.lines t)[l.number]?, l.text = seen line := by
  have hnumber : l.number < (Text.lines t).length := by
    by_cases hn : n ≤ (Text.lines t).length
    · omega
    · rw [List.take_of_length_le (by omega)] at h
      have hle := length_documentLines_le_of_whole h
      have := ((numbered_documentLines t).bounds hl).2
      omega
  obtain ⟨extra, hpieces, -⟩ := exists_pieces h
  have hline := getElem?_pieces hl
  rw [hpieces, List.getElem?_append_left (by rw [List.length_map, List.length_take]; omega),
    List.getElem?_map, List.getElem?_take_of_lt hlt] at hline
  obtain ⟨line, hmem, hseen⟩ := Option.map_eq_some_iff.1 hline
  exact ⟨line, hmem, hseen.symm⟩

end Markdown

end Transclude
