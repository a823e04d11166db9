import Transclude.LineRange
import Transclude.Proofs.Text.Runs

/-!
# Writing line ranges

Reading a range is greedy: it takes as many digits as there are. In a written range a number
is followed by the end, by a dash or by the letter `L`, none of which is a digit, so exactly
the digits that were written are taken. Only a range with a last line but neither a first
line nor a dash cannot be written, because its last line would be read as the first.

* `Text.numeral_ofNat`: the numeral of a number means the number;
* `LineRange.bound_of_digits`: as many digits are taken as there are;
* `LineRange.scan_render`: what was written is read back.
-/

namespace Transclude

namespace Text

/-! ## Numerals -/

variable {c : Char} {n : Nat}

/-- The ASCII digits are the row of decimal digits that begins with `0`. -/
theorem decimalValue?_of_isDigit (h : c.isDigit = true) :
    decimalValue? c = some (c.toNat - '0'.toNat) := by
  have hrange : 0x30 ≤ c.toNat ∧ c.toNat ≤ 0x30 + 9 := by
    simpa [Char.isDigit, UInt32.le_iff_toNat_le] using h
  rw [decimalValue?, decimalZeros, List.find?_cons_of_pos (by simpa using hrange)]
  rfl

theorem isDigit_of_charIsDigit (h : c.isDigit = true) : isDigit c = true := by
  rw [isDigit, decimalValue?_of_isDigit h, Option.isSome_some, Bool.true_or]

/-- A numeral consists of ASCII digits. -/
theorem isDigit_of_mem_ofNat (h : c ∈ ofNat n) : c.isDigit = true :=
  Nat.isDigit_of_mem_toDigits (by decide) (by decide) h

theorem ofNat_ne_nil (n : Nat) : ofNat n ≠ [] :=
  Nat.toDigits_ne_nil

/-- The values of ASCII digits. -/
theorem filterMap_decimalValue? {t : Text} (h : ∀ c ∈ t, c.isDigit = true) :
    t.filterMap decimalValue? = t.map fun c => c.toNat - '0'.toNat := by
  induction t with
  | nil => rfl
  | cons c t ih =>
    rw [List.filterMap_cons_some (decimalValue?_of_isDigit (h c List.mem_cons_self)), List.map_cons,
      ih fun c hc => h c (List.mem_cons_of_mem _ hc)]

/-- ASCII digits are a numeral, if they are not too many. -/
theorem numeral_of_isDigit {digits : Text} (h : ∀ c ∈ digits, c.isDigit)
    (hlimit : digits.length ≤ numeralLimit) :
    numeral digits = .ok (Nat.ofDigitChars 10 digits 0) := by
  have hdigits : digits.takeWhile (fun c => (decimalValue? c).isSome) = digits := by
    rw [← List.append_nil digits, List.takeWhile_append_of_pos, List.takeWhile_nil]
    intro c hc
    rw [decimalValue?_of_isDigit (h c hc), Option.isSome_some]
  rw [numeral, hdigits, if_neg (Nat.not_lt.2 hlimit), if_neg (Nat.lt_irrefl _),
    filterMap_decimalValue? h, ofDigits, List.foldl_map]
  rfl

/-- The decimal digits of a number are a numeral that means it, if they are not too many. -/
theorem numeral_ofNat (hlimit : (ofNat n).length ≤ numeralLimit) : numeral (ofNat n) = .ok n := by
  rw [numeral_of_isDigit (fun c => isDigit_of_mem_ofNat) hlimit]
  exact congrArg Except.ok Nat.ofDigitChars_ten_toDigits

end Text

namespace LineRange

variable {n : Nat} {rest : Text} {range : LineRange}

/-! ## Lines -/

/-- A text does not start with a digit. -/
def NoDigitFirst (t : Text) : Prop :=
  ∀ c ∈ t.head?, Text.isDigit c = false

/-- Digits after an `L` are read as far as they go. -/
theorem bound_of_digits {digits : Text} (hne : digits ≠ [])
    (hdigits : ∀ c ∈ digits, Text.isDigit c) (hrest : NoDigitFirst rest) :
    bound ('L' :: (digits ++ rest)) =
      match Text.numeral digits with
      | .error error => (.invalid error, rest)
      | .ok number => (.line number, rest) := by
  have hempty : digits.isEmpty = false := List.isEmpty_eq_false_iff.2 hne
  have hrun : Text.IsRun Text.isDigit digits rest := ⟨hdigits, hrest⟩
  rw [bound, hrun.takeWhile_eq, hrun.dropWhile_eq, hempty]
  rfl

/-- A written line is read back, together with what follows it. -/
theorem bound_line (hlimit : (Text.ofNat n).length ≤ Text.numeralLimit)
    (hrest : NoDigitFirst rest) :
    bound ('L' :: Text.ofNat n ++ rest) = (.line n, rest) := by
  have hdigits : ∀ c ∈ Text.ofNat n, Text.isDigit c :=
    fun c hc => Text.isDigit_of_charIsDigit (Text.isDigit_of_mem_ofNat hc)
  rw [List.cons_append, bound_of_digits (Text.ofNat_ne_nil n) hdigits hrest,
    Text.numeral_ofNat hlimit]

/-- Where no `L` stands, no line is written. -/
theorem bound_absent (h : rest.head? ≠ some 'L') : bound rest = (.absent, rest) := by
  unfold bound
  split
  · exact absurd rfl h
  · rfl

/-! ## Ranges -/

/-- What follows the first line of a written range. -/
theorem noDigitFirst_tail (dash : Bool) (last : Option Nat) :
    NoDigitFirst ((if dash then ['-'] else []) ++ renderBound last) := by
  cases dash <;> cases last <;> intro c hc <;> cases hc <;> decide

theorem noDigitFirst_nil : NoDigitFirst [] :=
  fun _ hc => nomatch hc

/-- The last line of a written range is read back. -/
theorem bound_renderBound {last : Option Nat}
    (hlimit : ∀ n ∈ last, (Text.ofNat n).length ≤ Text.numeralLimit) :
    bound (renderBound last) = ((last.map Bound.line).getD .absent, []) := by
  cases last with
  | none => rfl
  | some n =>
    have hline := bound_line (hlimit n rfl) noDigitFirst_nil
    rwa [List.append_nil] at hline

/-- The first line of a written range is read back, if the last one cannot be taken for it. -/
theorem bound_render
    (hwritten : range.last.isSome → range.first.isSome ∨ range.dash)
    (hlimit : ∀ n ∈ range.first, (Text.ofNat n).length ≤ Text.numeralLimit) :
    bound (render range) = ((range.first.map Bound.line).getD .absent,
      (if range.dash then ['-'] else []) ++ renderBound range.last) := by
  obtain ⟨first, dash, last⟩ := range
  rw [render, List.append_assoc]
  cases first with
  | some n => exact bound_line (hlimit n rfl) (noDigitFirst_tail dash last)
  | none =>
    refine bound_absent ?_
    -- Without a first line there must be a dash or no last line.
    cases dash with
    | true => exact fun h => absurd (Option.some.inj h) (by decide)
    | false =>
      cases last with
      | none => exact fun h => nomatch h
      | some n => exact absurd (hwritten rfl) (by simp)

theorem dash?_append (dash : Bool) (last : Option Nat) :
    dash? ((if dash then ['-'] else []) ++ renderBound last) = (dash, renderBound last) := by
  cases dash <;> cases last <;> rfl

/-- A written range is read back, unless it has a last line but neither a first line nor a
    dash. -/
theorem scan_render
    (hwritten : range.last.isSome → range.first.isSome ∨ range.dash)
    (hfirst : ∀ n ∈ range.first, (Text.ofNat n).length ≤ Text.numeralLimit)
    (hlast : ∀ n ∈ range.last, (Text.ofNat n).length ≤ Text.numeralLimit) :
    (scan (render range)).outcome = .ok (some range) := by
  have hread := bound_render hwritten hfirst
  have htail := bound_renderBound hlast
  obtain ⟨first, dash, last⟩ := range
  cases first <;> cases last <;>
    simp only [scan, hread, dash?_append, htail, Option.map, Option.getD] <;> rfl

end LineRange

end Transclude
