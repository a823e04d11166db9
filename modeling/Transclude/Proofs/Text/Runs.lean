import Transclude.Text.Blank
import Transclude.Text.WordChar

/-!
# Runs of characters of a class

A scan by a class of characters takes the *run* of the class from the start of a text: all its
characters are of the class, and the character behind it, if there is one, is not. This says all
about the scan, as no text has two runs of one class at its start.

* `Text.IsRun`: the run at the start of a text;
* `Text.IsRun.takeWhile_eq`, `Text.IsRun.dropWhile_eq`, `Text.isRun_takeWhile`: it is what a scan
  takes;
* `Text.isWordChar_of_isBlank`: a run of white space stops before a letter or a digit.
-/

namespace Transclude

namespace Text

variable {p : Char → Bool} {run rest : Text}

/-- The text `run ++ rest` starts with the run `run` of characters of the class `p`. -/
structure IsRun (p : Char → Bool) (run rest : Text) : Prop where
  all : ∀ c ∈ run, p c
  stop : ∀ c ∈ rest.head?, p c = false

theorem takeWhile_eq_nil (h : ∀ c ∈ rest.head?, p c = false) : rest.takeWhile p = [] := by
  cases rest with
  | nil => rfl
  | cons c rest => rw [List.takeWhile_cons, h c rfl]; rfl

theorem dropWhile_eq_self (h : ∀ c ∈ rest.head?, p c = false) : rest.dropWhile p = rest := by
  cases rest with
  | nil => rfl
  | cons c rest => rw [List.dropWhile_cons, h c rfl]; rfl

theorem IsRun.takeWhile_eq (h : IsRun p run rest) : (run ++ rest).takeWhile p = run := by
  rw [List.takeWhile_append_of_pos h.all, takeWhile_eq_nil h.stop, List.append_nil]

theorem IsRun.dropWhile_eq (h : IsRun p run rest) : (run ++ rest).dropWhile p = rest := by
  rw [List.dropWhile_append_of_pos h.all, dropWhile_eq_self h.stop]

/-- What a scan takes is a run. -/
theorem isRun_takeWhile (p : Char → Bool) (t : Text) : IsRun p (t.takeWhile p) (t.dropWhile p) where
  all := List.all_eq_true.1 List.all_takeWhile
  stop c hc := by
    have := List.head?_dropWhile_not p t
    rw [hc] at this
    exact this

end Text

/-! ## Classes that have nothing in common -/

namespace CodePoint

variable {n : Nat} {ranges others : List (Nat × Nat)}

theorem exists_of_within (h : within n ranges) : ∃ range ∈ ranges, range.1 ≤ n ∧ n ≤ range.2 := by
  induction ranges with
  | nil => exact absurd h Bool.false_ne_true
  | cons range ranges ih =>
    rw [within] at h
    split at h
    · exact absurd h Bool.false_ne_true
    · rename_i hlow
      rw [Bool.or_eq_true, decide_eq_true_eq] at h
      rcases h with hhigh | h
      · exact ⟨range, List.mem_cons_self, Nat.le_of_not_lt hlow, hhigh⟩
      · obtain ⟨range', hmem, hn⟩ := ih h
        exact ⟨range', List.mem_cons_of_mem _ hmem, hn⟩

/-- Tables of ranges that do not overlap have no number in common. -/
theorem not_within_of_apart
    (h : ranges.all fun a => others.all fun b => a.2 < b.1 || b.2 < a.1) (hn : within n ranges) :
    within n others = false := by
  refine Bool.eq_false_iff.2 fun hn' => ?_
  obtain ⟨a, ha, hlow, hhigh⟩ := exists_of_within hn
  obtain ⟨b, hb, hlow', hhigh'⟩ := exists_of_within hn'
  have hapart := List.all_eq_true.1 (List.all_eq_true.1 h a ha) b hb
  simp only [Bool.or_eq_true, decide_eq_true_eq] at hapart
  omega

end CodePoint

/-- White space is neither a letter nor a digit. -/
theorem Text.isWordChar_of_isBlank {c : Char} (h : isBlank c) : isWordChar c = false :=
  CodePoint.not_within_of_apart (by decide +kernel) h

end Transclude
