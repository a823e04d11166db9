import Transclude.Excerpt
import Transclude.Proofs.Template
import Transclude.Proofs.Text.Pieces

/-!
# The lines of a span

Which lines a span takes from a file can be said with their numbers alone, counted from one: those
from the first line of the span to its last, both included. Where the bounds are natural numbers no
case is needed for a bound that is too large, or for two bounds in the wrong order: then there are
just no such lines.

Two spans of which the second goes on where the first ends take together, with a line break in
between, what the span over both takes. And a whole file can be taken: its line breaks are unified,
and a break at its very end is left out unless it is to be preserved.

* `Excerpt.linesNumbered`, `Excerpt.lastNumber`: the lines of a span by their numbers;
* `Excerpt.ofSpan_ofNumbers`: they are what a span takes;
* `Excerpt.unlines_linesNumbered_append`: two spans, one after the other;
* `Excerpt.ofSpan_open`: a whole file;
* `Excerpt.ofSpan_by_number`: all of it together.
-/

namespace Transclude

/-- The span with natural numbers for its bounds. -/
def Span.ofNumbers (first : Option Nat) (isOpen : Bool) (last : Option Nat) : Span where
  first := first.map Int.ofNat
  isOpen := isOpen
  last := last.map Int.ofNat

namespace Excerpt

variable {content t : Text} {ls : List Text} {a b c : Nat} {first last : Option Nat}
  {isOpen preserve : Bool}

/-! ## Spans by number -/

/-- A bound; one that is zero is none. -/
def number? (bound : Option Nat) : Option Nat :=
  bound.filter (· ≠ 0)

/-- The number of the first line of a span: one, unless another is given. -/
def firstNumber (first : Option Nat) : Nat :=
  (number? first).getD 1

/-- The number of the last line of a span in a file of these lines: if it is not open, that of its
    first line; then the one that is given; and else that of the last line of the file, or of the
    line before, if the last one is empty and this is not to be preserved. -/
def lastNumber (first : Option Nat) (isOpen : Bool) (last : Option Nat) (preserve : Bool)
    (ls : List Text) : Nat :=
  if isOpen then
    (number? last).getD
      (if ls.getLast? = some [] ∧ preserve = false then ls.length - 1 else ls.length)
  else firstNumber first

/-- The lines of which the numbers lie between two bounds, both included. The numbers are counted
    from one, so the line at the index `i` has the number `i + 1`. -/
def linesNumbered (start stop : Nat) (ls : List Text) : List Text :=
  ((List.range ls.length).filter fun i => start ≤ i + 1 && i + 1 ≤ stop).filterMap (ls[·]?)

theorem linesNumbered_eq (start stop : Nat) (ls : List Text) :
    linesNumbered start stop ls = (ls.take stop).drop (start - 1) := by
  rw [← Template.filterMap_getElem?_range, linesNumbered]
  congr 1
  refine List.filter_congr fun i _ => ?_
  rw [Bool.eq_iff_iff]
  simp only [Bool.and_eq_true, decide_eq_true_eq]
  omega

theorem given?_map_ofNat (bound : Option Nat) :
    given? (bound.map Int.ofNat) = (number? bound).map Int.ofNat := by
  rcases bound with _ | _ | n <;> rfl

theorem firstNumber_pos (first : Option Nat) : 1 ≤ firstNumber first := by
  rcases first with _ | _ | n
  · exact Nat.le_refl 1
  · exact Nat.le_refl 1
  · exact Nat.succ_pos n

/-- The bounds of a slice that are no larger than the list and those that are do the same. -/
theorem slice_natCast {α : Type} (l : List α) (start stop : Nat) :
    slice l start stop = (l.take stop).drop start := by
  have hoffset (n k : Nat) : offsetOf n k = min k n := by
    rw [offsetOf, if_neg (by omega), Int.toNat_natCast]
  rw [slice, hoffset, hoffset, ← List.take_eq_take_min]
  rcases Nat.le_total start l.length with hle | hle
  · rw [Nat.min_eq_left hle]
  · have hlength : (l.take stop).length ≤ l.length := List.length_take_le' _ _
    rw [Nat.min_eq_right hle, List.drop_eq_nil_of_le hlength,
      List.drop_eq_nil_of_le (Nat.le_trans hlength hle)]

theorem given?_getD_one (first : Option Nat) :
    (given? (first.map Int.ofNat)).getD 1 = firstNumber first := by
  rw [given?_map_ofNat, firstNumber]
  cases number? first <;> rfl

theorem lastLine_ofNumbers (first : Option Nat) (isOpen : Bool) (last : Option Nat)
    (preserve : Bool) (ls : List Text) : lastLine (.ofNumbers first isOpen last) preserve ls =
      lastNumber first isOpen last preserve ls := by
  cases isOpen with
  | false => exact given?_getD_one first
  | true =>
    simp only [lastLine, Span.ofNumbers, lastNumber, given?_map_ofNat]
    cases number? last with
    | some number => rfl
    | none =>
      by_cases hlast : ls.getLast? = some []
      · -- There is a line, so that the one before the last has a number.
        have hne : ls ≠ [] := fun hnil => by rw [hnil] at hlast; cases hlast
        have hpos : 1 ≤ ls.length := List.length_pos_of_ne_nil hne
        cases preserve with
        | false => simp [hlast, Int.natCast_sub hpos]
        | true => simp
      · simp [hlast]

/-- A span takes the lines with its numbers. -/
theorem ofSpan_ofNumbers (first : Option Nat) (isOpen : Bool) (last : Option Nat) (preserve : Bool)
    (content : Text) : ofSpan (.ofNumbers first isOpen last) preserve content =
      Text.unlines (linesNumbered (firstNumber first)
        (lastNumber first isOpen last preserve (Text.lines content)) (Text.lines content)) := by
  have hstart : (given? (Span.ofNumbers first isOpen last).first).getD 1 - 1 =
      ((firstNumber first - 1 : Nat) : Int) := by
    rw [Int.natCast_sub (firstNumber_pos first)]
    exact congrArg (· - 1) (given?_getD_one first)
  rw [ofSpan, linesOfSpan, hstart, lastLine_ofNumbers, slice_natCast, linesNumbered_eq]

theorem ofSpan_closed (ha : 1 ≤ a) (hb : 1 ≤ b) (preserve : Bool) (content : Text) :
    ofSpan (.ofNumbers (some a) true (some b)) preserve content =
      Text.unlines (linesNumbered a b (Text.lines content)) := by
  have hnumber {n : Nat} (hn : 1 ≤ n) : number? (some n) = some n := by
    rw [number?, Option.filter_some, if_pos (by simpa using Nat.ne_of_gt hn)]
  rw [ofSpan_ofNumbers, firstNumber, lastNumber, hnumber ha, hnumber hb]
  rfl

/-! ## Two spans, one after the other -/

theorem linesNumbered_append (hab : a ≤ b) (hbc : b ≤ c) (hc : c ≤ ls.length) :
    linesNumbered a c ls = linesNumbered a b ls ++ linesNumbered (b + 1) c ls := by
  have htake := (List.take_append_drop b (ls.take c)).symm
  rw [List.take_take, Nat.min_eq_left hbc] at htake
  have hlength : a - 1 ≤ (ls.take b).length := by
    rw [List.length_take_of_le (Nat.le_trans hbc hc)]
    omega
  rw [linesNumbered_eq, linesNumbered_eq, linesNumbered_eq, Nat.add_sub_cancel,
    ← List.drop_append_of_le_length hlength]
  exact congrArg (·.drop (a - 1)) htake

theorem linesNumbered_ne_nil (ha : 1 ≤ a) (hab : a ≤ b) (hb : b ≤ ls.length) :
    linesNumbered a b ls ≠ [] := by
  rw [← List.length_pos_iff_ne_nil, linesNumbered_eq, List.length_drop, List.length_take_of_le hb]
  omega

/-- A span over two that adjoin takes what they take, with a line break in between. -/
theorem unlines_linesNumbered_append (ha : 1 ≤ a) (hab : a ≤ b) (hbc : b < c)
    (hc : c ≤ ls.length) : Text.unlines (linesNumbered a c ls) =
      Text.unlines (linesNumbered a b ls) ++ '\n' :: Text.unlines (linesNumbered (b + 1) c ls) := by
  have hle : b ≤ c := Nat.le_of_lt hbc
  rw [linesNumbered_append hab hle hc]
  exact Text.join_append '\n' (linesNumbered_ne_nil ha hab (Nat.le_trans hle hc))
    (linesNumbered_ne_nil (Nat.le_add_left 1 b) hbc hc)

/-! ## Whole files -/

/-- The text without the line feed at its end, if it ends in one. -/
def withoutFinalBreak (t : Text) : Text :=
  if t.getLast? = some '\n' then t.dropLast else t

/-- Without its last line, if that is empty, a text lacks just a line feed at its end. -/
theorem unlines_dropLast (t : Text) : Text.unlines
    (if (Text.splitAt '\n' t).getLast? = some [] then (Text.splitAt '\n' t).dropLast
      else Text.splitAt '\n' t) = withoutFinalBreak t := by
  by_cases hbreak : t.getLast? = some '\n'
  · obtain ⟨s, rfl⟩ := List.getLast?_eq_some_iff.1 hbreak
    have hsplit : Text.splitAt '\n' (s ++ ['\n']) = Text.splitAt '\n' s ++ [[]] :=
      Text.splitAt_append_sep '\n' s []
    rw [withoutFinalBreak, if_pos hbreak, hsplit, if_pos List.getLast?_concat,
      List.dropLast_concat, List.dropLast_concat]
    exact Text.join_splitAt '\n' s
  · rw [withoutFinalBreak, if_neg hbreak]
    have hjoin := Text.join_splitAt '\n' t
    split
    · rename_i hlast
      obtain ⟨pieces, hpieces⟩ := List.getLast?_eq_some_iff.1 hlast
      rw [hpieces] at hjoin ⊢
      rw [List.dropLast_concat]
      by_cases hne : pieces = []
      · -- The only line is empty, and so is the text.
        rw [hne] at hjoin ⊢
        exact hjoin
      · rw [Text.join_append _ hne (List.cons_ne_nil _ _)] at hjoin
        rw [← hjoin] at hbreak
        exact absurd List.getLast?_concat hbreak
    · exact hjoin

/-- The lines of an open span from the first line on make up the whole text, with its line breaks
    unified, but for a break at the end that is not to be preserved. -/
theorem ofSpan_open (hfirst : firstNumber first = 1) (hlast : number? last = none)
    (preserve : Bool) (content : Text) : ofSpan (.ofNumbers first true last) preserve content =
      if preserve then Text.unifyBreaks content
      else withoutFinalBreak (Text.unifyBreaks content) := by
  rw [ofSpan_ofNumbers, hfirst, lastNumber, if_pos rfl, hlast, Option.getD_none, linesNumbered_eq,
    Nat.sub_self, List.drop_zero]
  cases preserve with
  | true =>
    rw [if_neg (by simp), List.take_length]
    exact Text.join_splitAt '\n' _
  | false =>
    rw [if_neg Bool.false_ne_true, ← unlines_dropLast, Text.lines]
    congr 1
    by_cases hempty : (Text.splitAt '\n' (Text.unifyBreaks content)).getLast? = some []
    · rw [if_pos ⟨hempty, rfl⟩, if_pos hempty, List.dropLast_eq_take]
    · rw [if_neg fun h => hempty h.1, if_neg hempty, List.take_length]

/-- A span with natural bounds takes the lines with its numbers. Two spans that adjoin take, with a
    line break in between, what the span over both takes. An open span from the first line on takes
    the whole text with its line breaks unified, and leaves out the last break, if the text ends in
    one, unless it is to be preserved. -/
theorem ofSpan_by_number (content : Text) :
    let ls := Text.lines content
    (∀ first isOpen last preserve, ofSpan (.ofNumbers first isOpen last) preserve content =
        Text.unlines
          (linesNumbered (firstNumber first) (lastNumber first isOpen last preserve ls) ls)) ∧
      (∀ a b c preserve, 1 ≤ a → a ≤ b → b < c → c ≤ ls.length →
        ofSpan (.ofNumbers (some a) true (some c)) preserve content =
          ofSpan (.ofNumbers (some a) true (some b)) preserve content ++
            '\n' :: ofSpan (.ofNumbers (some (b + 1)) true (some c)) preserve content) ∧
      ∀ first ∈ [none, some 0, some 1], ∀ last ∈ [none, some 0],
        ofSpan (.ofNumbers first true last) true content = Text.unifyBreaks content ∧
          ofSpan (.ofNumbers first true last) false content =
            withoutFinalBreak (Text.unifyBreaks content) := by
  intro ls
  refine ⟨fun first isOpen last preserve => ofSpan_ofNumbers first isOpen last preserve content,
    fun a b c preserve ha hab hbc hc => ?_, fun first hfirst last hlast => ?_⟩
  · have hb : 1 ≤ b := Nat.le_trans ha hab
    rw [ofSpan_closed ha (Nat.le_trans hb (Nat.le_of_lt hbc)), ofSpan_closed ha hb,
      ofSpan_closed (Nat.le_add_left 1 b) (Nat.le_trans hb (Nat.le_of_lt hbc))]
    exact unlines_linesNumbered_append ha hab hbc hc
  · have hone : firstNumber first = 1 := by
      simp only [List.mem_cons, List.not_mem_nil, or_false] at hfirst
      rcases hfirst with rfl | rfl | rfl <;> rfl
    have hnone : number? last = none := by
      simp only [List.mem_cons, List.not_mem_nil, or_false] at hlast
      rcases hlast with rfl | rfl <;> rfl
    exact ⟨ofSpan_open hone hnone true content, ofSpan_open hone hnone false content⟩

/-- Line breaks of both kinds, an empty line in between and a break at the end. -/
theorem ofSpan_by_number_of_mixed_breaks :
    let content : Text := "a\r\nb\n\nc\r\n".toList
    5 ≤ (Text.lines content).length ∧
      ofSpan (.ofNumbers (some 2) true (some 5)) false content =
        ofSpan (.ofNumbers (some 2) true (some 3)) false content ++
          '\n' :: ofSpan (.ofNumbers (some 4) true (some 5)) false content ∧
      ofSpan (.ofNumbers (some 2) true (some 5)) false content = "b\n\nc\n".toList ∧
      ofSpan (.ofNumbers none true none) false content = "a\nb\n\nc".toList := by
  intro content
  have hlength : 5 ≤ (Text.lines content).length := by decide
  obtain ⟨-, hadjoin, hwhole⟩ := ofSpan_by_number content
  refine ⟨hlength, hadjoin 2 3 5 false (by decide) (by decide) (by decide) hlength, by decide, ?_⟩
  exact ((hwhole none (by decide) none (by decide)).2).trans (by decide)

end Excerpt

end Transclude
