import Mathlib.Data.List.Basic
import Transclude.Marker

/-!
# Where markers stand

A marker index is built line by line, and what it holds for a group in the end are the numbers
of the lines that mark the group, in ascending order (`MarkerIndex.get_ofLines`). That lines
without the token are not looked at makes no difference: no such line marks a group.

* `Marker.positions`: the numbers of the lines that mark a group;
* `MarkerIndex.get_ofLines`: the index holds just these;
* `MarkerCursor.take?_eq_some`, `MarkerCursor.take?_eq_none`: what a cursor hands out, and when
  it does not.
-/

namespace Transclude

variable {token line group other : Text} {ls : List Text}

/-! ## Lines that mark a group -/

theorem Text.occursIn_of_isPrefixOf {needle t : Text} (h : needle.isPrefixOf t) :
    Text.occursIn needle t := by
  cases t with
  | nil =>
    rw [occursIn, offset?, if_pos]
    · rfl
    · rw [List.isEmpty_iff, List.prefix_nil.1 (List.isPrefixOf_iff_prefix.1 h)]
  | cons c t =>
    rw [occursIn, offset?, if_pos h]
    rfl

theorem Text.occursIn_cons {needle t : Text} (c : Char) (h : Text.occursIn needle t) :
    Text.occursIn needle (c :: t) := by
  rw [occursIn, offset?]
  split
  · rfl
  · rwa [Option.isSome_map]

namespace Marker

/-- A line without the token marks no group. -/
theorem occursIn_of_groupOf (h : groupOf token line = some group) :
    Text.occursIn token line := by
  have hprefix {t : Text} (h : (nameAt token t).isSome) : Text.occursIn token t := by
    rw [nameAt] at h
    split at h
    · rename_i hprefix
      exact Text.occursIn_of_isPrefixOf hprefix
    · exact nomatch h
  induction line with
  | nil => exact hprefix (Option.isSome_of_eq_some h)
  | cons c t ih =>
    rw [groupOf] at h
    split at h
    · rename_i hname
      exact hprefix (Option.isSome_of_eq_some hname)
    · exact Text.occursIn_cons c (ih h)

theorem groupOfLine_eq (token line : Text) : groupOfLine token line = groupOf token line := by
  rw [groupOfLine]
  split
  · rfl
  · rename_i h
    cases hgroup : groupOf token line with
    | none => rfl
    | some group => exact absurd (occursIn_of_groupOf hgroup) h

/-- The numbers of the lines that mark a group, counted from zero. -/
def positions (token : Text) (ls : List Text) (group : Text) : List Nat :=
  (List.range ls.length).filter fun i => ls[i]?.bind (groupOf token) = some group

/-- The positions of a group's markers ascend. -/
theorem pairwise_positions (token : Text) (ls : List Text) (group : Text) :
    (positions token ls group).Pairwise (· < ·) :=
  List.pairwise_lt_range.filter _

theorem positions_cons (token line : Text) (ls : List Text) (group : Text) :
    positions token (line :: ls) group =
      (if groupOf token line = some group then [0] else []) ++
        (positions token ls group).map (· + 1) := by
  rw [positions, List.length_cons, List.range_succ_eq_map, List.filter_cons, List.filter_map]
  by_cases h : groupOf token line = some group
  · rw [if_pos h]
    exact if_pos (decide_eq_true h)
  · rw [if_neg h]
    exact if_neg fun hmem => h (of_decide_eq_true hmem)

end Marker

namespace MarkerIndex

variable {index : MarkerIndex}

theorem get_insert_self (index : MarkerIndex) (group : Text) (n : Nat) :
    (index.insert group n).get group = index.get group ++ [n] := by
  rw [insert, get, Table.lookup_put_self]
  rfl

theorem get_insert_of_ne (h : other ≠ group) (index : MarkerIndex) (n : Nat) :
    (index.insert group n).get other = index.get other := by
  rw [insert, get, Table.lookup_put_of_ne h]
  rfl

theorem get_addLines (token : Text) (index : MarkerIndex) (n : Nat) (ls : List Text)
    (group : Text) : (addLines token index n ls).get group =
      index.get group ++ (Marker.positions token ls group).map (· + n) := by
  -- The induction is over the index built so far and the number of the next line.
  induction ls generalizing index n with
  | nil => exact (List.append_nil _).symm
  | cons line ls ih =>
    have hshift : ((Marker.positions token ls group).map (· + 1)).map (· + n) =
        (Marker.positions token ls group).map (· + (n + 1)) := by
      rw [List.map_map]
      exact List.map_congr_left fun i _ => by simp only [Function.comp_apply]; omega
    rw [addLines, Marker.groupOfLine_eq, Marker.positions_cons, List.map_append, hshift]
    cases hgroup : Marker.groupOf token line with
    | none =>
      rw [if_neg nofun]
      exact ih index (n + 1)
    | some found =>
      dsimp only
      rw [ih]
      by_cases hfound : found = group
      · rw [hfound, if_pos rfl, get_insert_self, List.append_assoc]
        simp
      · rw [if_neg fun h => hfound (Option.some.inj h),
          get_insert_of_ne (Ne.symm hfound)]
        rfl

/-- The index of a file holds the numbers of the lines that mark a group. -/
theorem get_ofLines (token : Text) (ls : List Text) (group : Text) :
    (ofLines token ls).get group = Marker.positions token ls group := by
  rw [ofLines, get_addLines]
  exact List.map_id _

end MarkerIndex

namespace MarkerCursor

variable {cursor cursor' : MarkerCursor} {start stop : Nat}

/-- A cursor hands out the next two positions of a group and goes on with those after them;
    what it does with other groups stays the same. -/
theorem take?_eq_some (hstart : (cursor.index.get group)[cursor.count group]? = some start)
    (hstop : (cursor.index.get group)[cursor.count group + 1]? = some stop) :
    ∃ cursor', cursor.take? group = some ((start, stop), cursor') ∧
      cursor'.index = cursor.index ∧ cursor'.count group = cursor.count group + 2 ∧
        ∀ other ≠ group, cursor'.count other = cursor.count other := by
  have hdrop : (cursor.index.get group).drop (cursor.count group) = start :: stop ::
      (cursor.index.get group).drop (cursor.count group + 2) := by
    obtain ⟨hlt, rfl⟩ := List.getElem?_eq_some_iff.1 hstart
    obtain ⟨hlt', rfl⟩ := List.getElem?_eq_some_iff.1 hstop
    rw [List.drop_eq_getElem_cons hlt, List.drop_eq_getElem_cons hlt']
  refine ⟨⟨cursor.index, Table.put group (cursor.count group + 2) cursor.consumed⟩, ?_, rfl, ?_,
    fun other hother => ?_⟩
  · rw [take?, hdrop]
  · rw [count, Table.lookup_put_self]
    rfl
  · rw [count, Table.lookup_put_of_ne hother]
    rfl

/-- A cursor hands out nothing if fewer than two positions are left. -/
theorem take?_eq_none (h : (cursor.index.get group)[cursor.count group + 1]? = none) :
    cursor.take? group = none := by
  have hlength : ((cursor.index.get group).drop (cursor.count group)).length < 2 := by
    rw [List.length_drop]
    have := List.getElem?_eq_none_iff.1 h
    omega
  rw [take?]
  split
  · rename_i hdrop
    rw [hdrop] at hlength
    simp only [List.length_cons] at hlength
    omega
  · rfl

end MarkerCursor

end Transclude
