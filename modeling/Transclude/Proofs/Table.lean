import Mathlib.Data.List.Nodup
import Transclude.Table

/-!
# The entries of a table

A name that is put in for the first time makes an entry at the end of the table, and one that is
put in again changes the entry that it has. What is looked up is an entry; and where no name has
two entries, every entry is what is looked up under its name.

* `Table.put_of_not_mem`, `Table.exists_put_eq`: where a value goes;
* `Table.mem_of_lookup`, `Table.lookup_of_mem`, `Table.not_mem_names`: what is looked up.
-/

namespace Transclude

namespace Table

variable {α : Type} {name other : Text} {value old : α} {t : Table α}

/-! ## Putting in -/

/-- A new name goes to the end. -/
theorem put_of_not_mem (h : name ∉ t.names) (value : α) :
    t.put name value = t ++ [(name, value)] := by
  induction t with
  | nil => rfl
  | cons entry t ih =>
    obtain ⟨key, old⟩ := entry
    rw [names, List.map_cons, List.mem_cons, not_or] at h
    rw [put, if_neg (Ne.symm h.1), ih h.2, List.cons_append]

/-- The new value of a name stands in the place of its old one. -/
theorem exists_put_eq (h : t.lookup name = some old) : ∃ before after,
    t = before ++ (name, old) :: after ∧
      ∀ value, t.put name value = before ++ (name, value) :: after := by
  induction t with
  | nil => cases h
  | cons entry t ih =>
    obtain ⟨key, first⟩ := entry
    rw [lookup] at h
    by_cases hkey : key = name
    · rw [if_pos hkey] at h
      refine ⟨[], t, ?_, fun value => ?_⟩
      · rw [hkey, Option.some.inj h, List.nil_append]
      · rw [put, if_pos hkey, hkey, List.nil_append]
    · rw [if_neg hkey] at h
      obtain ⟨before, after, ht, hput⟩ := ih h
      refine ⟨(key, first) :: before, after, ?_, fun value => ?_⟩
      · rw [ht, List.cons_append]
      · rw [put, if_neg hkey, hput, List.cons_append]

/-! ## Looking up -/

theorem mem_of_lookup (h : t.lookup name = some value) : (name, value) ∈ t := by
  obtain ⟨before, after, rfl, -⟩ := exists_put_eq h
  exact List.mem_append_right _ List.mem_cons_self

theorem lookup_of_mem (hnodup : t.names.Nodup) (h : (name, value) ∈ t) :
    t.lookup name = some value := by
  induction t with
  | nil => exact absurd h List.not_mem_nil
  | cons entry t ih =>
    obtain ⟨key, first⟩ := entry
    rw [names, List.map_cons, List.nodup_cons] at hnodup
    rw [lookup]
    rcases List.mem_cons.1 h with hfirst | h
    · cases hfirst
      exact if_pos rfl
    · rw [if_neg, ih hnodup.2 h]
      rintro rfl
      exact hnodup.1 (List.mem_map.2 ⟨_, h, rfl⟩)

theorem not_mem_names (h : t.lookup name = none) : name ∉ t.names := by
  induction t with
  | nil => exact List.not_mem_nil
  | cons entry t ih =>
    obtain ⟨key, first⟩ := entry
    rw [lookup] at h
    split at h
    · cases h
    · rename_i hkey
      exact List.not_mem_cons_of_ne_of_not_mem (Ne.symm hkey) (ih h)

end Table

end Transclude
