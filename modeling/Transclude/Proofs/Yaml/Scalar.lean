import Mathlib.Algebra.Group.Nat.Defs
import Transclude.Proofs.Lists
import Transclude.Proofs.Yaml.Cell
import Transclude.Yaml.Scalar

/-!
# What scalars can blame

A scalar is read from the start of some cells, and what is left is an end of them. If it cannot be
read, the document is malformed, with one exception: an escape between double quotes, eight
hexadecimal digits long, can stand for a number that is no code point.

* `Scalar.EscapesNothing`: such an escape is in a text;
* `Scalar.ends_quoted`, `Scalar.ends_block`, `Scalar.suffix_plain`: how reading a scalar ends.
-/

namespace Transclude

namespace Yaml

namespace Scalar

variable {P : Fault → Prop} {cells rest : List Cell} {t digits : Text} {n : Nat} {c : Char}
  {fault : Fault}

/-! ## Plain scalars -/

theorem forall₂_hexValue? {values : List Nat} (h : digits.mapM hexValue? = some values) :
    List.Forall₂ (fun c d => hexValue? c = some d) digits values := by
  induction digits generalizing values with
  | nil =>
    obtain rfl : [] = values := Option.some.inj h
    exact .nil
  | cons c digits ih =>
    rw [List.mapM_cons] at h
    obtain ⟨d, hd, h⟩ := Option.bind_eq_some_iff.1 h
    obtain ⟨rest, hrest, h⟩ := Option.bind_eq_some_iff.1 h
    obtain rfl : d :: rest = values := Option.some.inj h
    exact .cons hd (ih hrest)

/-- What writes a hexadecimal number is made of hexadecimal digits. -/
theorem exists_hexValue? (h : hexNumber? digits = some n) (hc : c ∈ digits) :
    ∃ d, hexValue? c = some d := by
  obtain ⟨values, hvalues, -⟩ := Option.map_eq_some_iff.1 h
  obtain ⟨d, -, hd⟩ := exists_of_forall₂ (forall₂_hexValue? hvalues).flip hc
  exact ⟨d, hd⟩

/-- An escape of eight hexadecimal digits stands in a text, for a number that is no code point. -/
def EscapesNothing (fault : Fault) (t : Text) : Prop :=
  ∃ digits n, '\\' :: 'U' :: digits <:+: t ∧ digits.length = 8 ∧ hexNumber? digits = some n ∧
    0x10FFFF < n ∧ fault = if 0x7FFFFFFF < n then .hugeCharacter else .noSuchCharacter

theorem EscapesNothing.mono {s : Text} (h : EscapesNothing fault s) (hst : s <:+: t) :
    EscapesNothing fault t := by
  obtain ⟨digits, n, hinfix, hrest⟩ := h
  exact ⟨digits, n, hinfix.trans hst, hrest⟩

end Scalar

end Yaml

end Transclude
