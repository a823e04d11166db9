import Transclude.Markdown.Line

/-!
# Columns

The column at which the content of a line begins can be found piece by piece: first to the
end of some blanks, then on from there. Only differences of columns matter as long as the
tab stops move along, and without tabs not even these.

Taking off blanks of a given width undoes putting blanks of that width in front, whatever
the line begins with.

* `contentColumn_append`: columns piece by piece;
* `contentColumn_add`: columns counted from another place;
* `dropColumnsFrom_append`: blanks put in front and taken off again.
-/

namespace Transclude

namespace Markdown

variable {shift shift' column width : Int} {c : Char} {t d : Text}

/-- A text of blanks. -/
def Blanks (t : Text) : Prop :=
  ∀ c ∈ t, Text.isSpaceOrTab c

theorem Blanks.append (hd : Blanks d) (ht : Blanks t) : Blanks (d ++ t) := fun c hc =>
  (List.mem_append.1 hc).elim (hd c) (ht c)

theorem blanks_cons : Blanks (c :: t) ↔ Text.isSpaceOrTab c ∧ Blanks t :=
  List.forall_mem_cons

theorem blanks_nil : Blanks [] := fun _ hc => absurd hc List.not_mem_nil

theorem blanks_spaces (n : Nat) : Blanks (Text.spaces n) := fun c hc => by
  rw [List.eq_of_mem_replicate hc]
  rfl

theorem blanks_takeWhile (t : Text) : Blanks (t.takeWhile Text.isSpaceOrTab) := by
  intro c hc
  exact List.all_eq_true.1 (List.all_takeWhile (p := Text.isSpaceOrTab) (l := t)) c hc

/-- Blanks in front of a text do not change where its content begins. -/
theorem dropWhile_append (hd : Blanks d) :
    (d ++ t).dropWhile Text.isSpaceOrTab = t.dropWhile Text.isSpaceOrTab := by
  induction d with
  | nil => rfl
  | cons c d ih =>
    rw [blanks_cons] at hd
    rw [List.cons_append, List.dropWhile_cons_of_pos hd.1, ih hd.2]

/-! ## The column of the content -/

theorem lt_nextColumn (shift column : Int) (c : Char) : column < nextColumn shift column c := by
  rw [nextColumn]
  split <;> omega

theorem le_contentColumn (shift column : Int) (t : Text) :
    column ≤ contentColumn shift column t := by
  induction t generalizing column with
  | nil => exact Int.le_refl _
  | cons c t ih =>
    rw [contentColumn]
    split
    · exact Int.le_trans (Int.le_of_lt (lt_nextColumn shift column c)) (ih _)
    · exact Int.le_refl _

/-- The column after blanks is the one from which the rest is counted. -/
theorem contentColumn_append (hd : Blanks d) :
    contentColumn shift column (d ++ t) =
      contentColumn shift (contentColumn shift column d) t := by
  induction d generalizing column with
  | nil => rfl
  | cons c d ih =>
    rw [blanks_cons] at hd
    rw [List.cons_append, contentColumn, if_pos hd.1, ih hd.2, contentColumn, if_pos hd.1]

theorem contentColumn_of_not_blank (h : Text.isSpaceOrTab c = false) :
    contentColumn shift column (c :: t) = column := by
  rw [contentColumn, if_neg (ne_true_of_eq_false h)]

/-- Columns can be counted from another place if tab stops are counted from there too. -/
theorem contentColumn_add (shift column start : Int) (t : Text) :
    contentColumn shift (start + column) t = start + contentColumn (shift + start) column t := by
  induction t generalizing column with
  | nil => rfl
  | cons c t ih =>
    have hnext : nextColumn shift (start + column) c =
        start + nextColumn (shift + start) column c := by
      simp only [nextColumn]
      split <;> omega
    rw [contentColumn, contentColumn]
    split
    · rw [hnext, ih]
    · rfl

/-- Without tabs it does not matter where tab stops are. -/
theorem contentColumn_of_not_mem (h : '\t' ∉ t) :
    contentColumn shift column t = contentColumn shift' column t := by
  induction t generalizing column with
  | nil => rfl
  | cons c t ih =>
    rw [List.mem_cons, not_or] at h
    rw [contentColumn, contentColumn, nextColumn, nextColumn, if_neg (Ne.symm h.1),
      if_neg (Ne.symm h.1), ih h.2]

theorem contentColumn_spaces (shift column : Int) (n : Nat) :
    contentColumn shift column (Text.spaces n) = column + n := by
  induction n generalizing column with
  | zero => exact (Int.add_zero column).symm
  | succ n ih =>
    rw [Text.spaces, List.replicate_succ, contentColumn, if_pos (by decide), nextColumn,
      if_neg (by decide), ← Text.spaces, ih]
    omega

/-! ## Blanks taken off -/

/-- Taking off as many columns of blanks as there are in front leaves the text. -/
theorem dropColumnsFrom_append (hd : Blanks d) (h : contentColumn shift column d = width) :
    dropColumnsFrom shift width column (d ++ t) = t := by
  induction d generalizing column with
  | nil =>
    have hwidth : column = width := h
    subst hwidth
    have hspaces : Text.spaces (column - column).toNat = [] := by rw [Int.sub_self]; rfl
    cases t with
    | nil => exact hspaces
    | cons c t =>
      rw [List.nil_append, dropColumnsFrom, if_neg (by simp), hspaces, List.nil_append]
  | cons c d ih =>
    rw [blanks_cons] at hd
    rw [contentColumn, if_pos hd.1] at h
    have hlt : column < width :=
      Int.lt_of_lt_of_le (lt_nextColumn shift column c) (h ▸ le_contentColumn shift _ d)
    rw [List.cons_append, dropColumnsFrom, if_pos (by simp [hlt, hd.1]), ih hd.2 h]

/-- Nothing is left of blanks that are no wider than what is taken off. -/
theorem dropColumnsFrom_of_le (hd : Blanks d) (h : contentColumn shift column d ≤ width) :
    dropColumnsFrom shift width column d = [] := by
  induction d generalizing column with
  | nil =>
    rw [contentColumn] at h
    rw [dropColumnsFrom, Int.toNat_of_nonpos (by omega)]
    rfl
  | cons c d ih =>
    rw [blanks_cons] at hd
    rw [contentColumn, if_pos hd.1] at h
    have hlt : column < width :=
      Int.lt_of_lt_of_le (lt_nextColumn shift column c)
        (Int.le_trans (le_contentColumn shift _ d) h)
    rw [dropColumnsFrom, if_pos (by simp [hlt, hd.1]), ih hd.2 h]

end Markdown

end Transclude
