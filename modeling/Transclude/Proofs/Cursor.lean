import Mathlib.Data.List.Induction
import Transclude.Proofs.Marker

/-!
# Histories of takes

A cursor is never changed: a take leaves it as it is and returns another one. So takes need not go
on from the newest cursor, and the cursors that are obtained in the course of time form a tree
with the fresh cursor as its root. Every cursor is still reached from the fresh one by a chain of
takes, and nothing but this chain decides what it hands out: of each group the positions in
order, two for every take that succeeded, as long as there are two.

* `MarkerCursor.obtained`, `MarkerCursor.chains`: the cursors of a history, and how each of them
  was reached;
* `MarkerCursor.taken_cases`: what one take does;
* `MarkerCursor.Reached.run`: what a chain of takes does;
* `MarkerCursor.takes_of_history`: all takes of a history.
-/

namespace Transclude

namespace MarkerCursor

variable {index : MarkerIndex} {cursor : MarkerCursor} {group other : Text} {groups : List Text}
  {k : Nat}

/-! ## Takes -/

/-- The pair that a take of a group hands out, if there is one, and the cursor to go on with:
    without a pair it is the cursor itself. -/
def taken (cursor : MarkerCursor) (group : Text) : Option (Nat × Nat) × MarkerCursor :=
  match cursor.take? group with
  | some (pair, next) => (some pair, next)
  | none => (none, cursor)

/-- The cursor after a chain of takes. -/
def after (cursor : MarkerCursor) : List Text → MarkerCursor
  | [] => cursor
  | group :: groups => after (cursor.taken group).2 groups

/-- The pairs that a chain of takes hands out to a group, in order. -/
def pairs (group : Text) (cursor : MarkerCursor) : List Text → List (Nat × Nat)
  | [] => []
  | next :: groups =>
    (if next = group then (cursor.taken next).1.toList else []) ++
      pairs group (cursor.taken next).2 groups

/-- A take of a group on one of the cursors that were obtained so far; the fresh cursor is number
    zero. -/
structure Call where
  cursor : Nat
  group : Text

/-- What was obtained so far, and what a call obtains from one of these. A call on what is not
    there obtains nothing. -/
def Call.extend {α : Type} (call : Call) (next : α → α) (obtained : List α) : List α :=
  obtained ++ (obtained[call.cursor]?.map next).toList

/-- The cursor that has handed out nothing. -/
def fresh (index : MarkerIndex) : MarkerCursor := ⟨index, []⟩

/-- The cursors that are obtained in a history of calls. -/
def obtained (index : MarkerIndex) (calls : List Call) : List MarkerCursor :=
  calls.foldl (fun cursors call => call.extend (fun c => (c.taken call.group).2) cursors)
    [fresh index]

/-- How the cursors of a history were reached from the fresh one: the groups that were taken on
    the way. -/
def chains (calls : List Call) : List (List Text) :=
  calls.foldl (fun chains call => call.extend (· ++ [call.group]) chains) [[]]

/-! ## One take -/

/-- A take hands out the next two positions of its group and counts them, or there are no two
    left and nothing changes. -/
theorem taken_cases (cursor : MarkerCursor) (group : Text) :
    (∃ start stop next, (cursor.index.get group)[cursor.count group]? = some start ∧
        (cursor.index.get group)[cursor.count group + 1]? = some stop ∧
        cursor.taken group = (some (start, stop), next) ∧ next.index = cursor.index ∧
        next.count group = cursor.count group + 2 ∧
        ∀ other ≠ group, next.count other = cursor.count other) ∨
      (cursor.index.get group).length < cursor.count group + 2 ∧
        cursor.taken group = (none, cursor) := by
  cases hstop : (cursor.index.get group)[cursor.count group + 1]? with
  | none =>
    have := List.getElem?_eq_none_iff.1 hstop
    exact .inr ⟨by omega, by rw [taken, take?_eq_none hstop]⟩
  | some stop =>
    obtain ⟨hlt, -⟩ := List.getElem?_eq_some_iff.1 hstop
    have hstart := List.getElem?_eq_getElem (Nat.lt_of_succ_lt hlt)
    obtain ⟨next, htake, hnext⟩ := take?_eq_some hstart hstop
    exact .inl ⟨_, stop, next, hstart, rfl, by rw [taken, htake], hnext⟩

theorem index_taken (cursor : MarkerCursor) (group : Text) :
    (cursor.taken group).2.index = cursor.index := by
  rcases taken_cases cursor group with ⟨_, _, next, -, -, htaken, hindex, -⟩ | ⟨-, htaken⟩ <;>
    rw [htaken]
  exact hindex

/-- A take of one group does not count for another. -/
theorem count_taken_of_ne (cursor : MarkerCursor) (h : other ≠ group) :
    (cursor.taken group).2.count other = cursor.count other := by
  rcases taken_cases cursor group with ⟨_, _, next, -, -, htaken, -, -, hother⟩ | ⟨-, htaken⟩ <;>
    rw [htaken]
  exact hother other h

/-- What a take hands out, and how much it counts, depends on what was handed out to its group
    before. -/
theorem taken_congr {cursor' : MarkerCursor} (hindex : cursor'.index = cursor.index)
    (hcount : cursor'.count group = cursor.count group) :
    (cursor'.taken group).1 = (cursor.taken group).1 ∧
      (cursor'.taken group).2.count group = (cursor.taken group).2.count group := by
  have h := taken_cases cursor group
  have h' := taken_cases cursor' group
  rw [hindex, hcount] at h'
  rcases h with ⟨start, stop, next, hstart, hstop, htaken, -, hnext, -⟩ | ⟨hlast, htaken⟩
  · obtain ⟨hlt, -⟩ := List.getElem?_eq_some_iff.1 hstop
    rcases h' with ⟨start', stop', next', hstart', hstop', htaken', -, hnext', -⟩ | ⟨hlast', -⟩
    · rw [htaken, htaken', Option.some.inj (hstart.symm.trans hstart'),
        Option.some.inj (hstop.symm.trans hstop'), hnext, hnext']
      exact ⟨rfl, rfl⟩
    · omega
  · rcases h' with ⟨_, _, _, -, hstop', -⟩ | ⟨-, htaken'⟩
    · obtain ⟨hlt, -⟩ := List.getElem?_eq_some_iff.1 hstop'
      omega
    · rw [htaken, htaken']
      exact ⟨rfl, hcount⟩

/-- Takes of different groups do not get in each other's way. -/
theorem taken_comm (h : other ≠ group) (cursor : MarkerCursor) :
    ((cursor.taken group).2.taken other).1 = (cursor.taken other).1 ∧
      ((cursor.taken other).2.taken group).1 = (cursor.taken group).1 ∧
      ∀ name, ((cursor.taken group).2.taken other).2.count name =
        ((cursor.taken other).2.taken group).2.count name := by
  have hother := taken_congr (index_taken cursor group) (count_taken_of_ne cursor h)
  have hgroup := taken_congr (index_taken cursor other) (count_taken_of_ne cursor h.symm)
  refine ⟨hother.1, hgroup.1, fun name => ?_⟩
  by_cases hname : name = other
  · rw [hname, hother.2, count_taken_of_ne _ h]
  · rw [count_taken_of_ne _ hname]
    by_cases hname' : name = group
    · rw [hname', hgroup.2]
    · rw [count_taken_of_ne _ hname', count_taken_of_ne _ hname', count_taken_of_ne _ hname]

/-! ## Chains of takes -/

theorem after_append (cursor : MarkerCursor) (groups : List Text) (group : Text) :
    cursor.after (groups ++ [group]) = ((cursor.after groups).taken group).2 := by
  induction groups generalizing cursor with
  | nil => rfl
  | cons next groups ih => exact ih _

theorem index_after (cursor : MarkerCursor) (groups : List Text) :
    (cursor.after groups).index = cursor.index := by
  induction groups generalizing cursor with
  | nil => rfl
  | cons group groups ih => rw [after, ih, index_taken]

/-- On the way to a cursor, `k` takes of a group have succeeded. -/
structure Reached (group : Text) (k : Nat) (cursor : MarkerCursor) : Prop where
  count_eq : cursor.count group = 2 * k
  le_length : 2 * k ≤ (cursor.index.get group).length

theorem reached_fresh (index : MarkerIndex) (group : Text) : Reached group 0 (fresh index) :=
  ⟨rfl, Nat.zero_le _⟩

/-- One take: it succeeds if it is one of the group and two positions are left. -/
theorem Reached.step (h : Reached group k cursor) (next : Text) :
    ∃ found : List (Nat × Nat),
      (if next = group then (cursor.taken next).1.toList else []) = found ∧
      Reached group (k + found.length) (cursor.taken next).2 ∧
      found.flatMap (fun pair => [pair.1, pair.2]) =
        ((cursor.index.get group).drop (2 * k)).take (2 * found.length) ∧
      k + found.length = min (k + if next = group then 1 else 0)
        ((cursor.index.get group).length / 2) := by
  have hle := h.le_length
  by_cases hnext : next = group
  · subst hnext
    rw [if_pos rfl, if_pos rfl]
    have hcases := taken_cases cursor next
    rw [h.count_eq] at hcases
    rcases hcases with ⟨start, stop, c, hstart, hstop, htaken, hindex, hcount, -⟩ | ⟨hlast, htaken⟩
    · obtain ⟨hlt, rfl⟩ := List.getElem?_eq_some_iff.1 hstop
      obtain ⟨hlt', rfl⟩ := List.getElem?_eq_some_iff.1 hstart
      refine ⟨[_], by rw [htaken]; rfl, ⟨?_, ?_⟩, ?_, ?_⟩
      · rw [htaken, hcount, List.length_singleton, Nat.mul_add]
      · rw [htaken, hindex, List.length_singleton]
        omega
      · rw [List.drop_eq_getElem_cons hlt', List.drop_eq_getElem_cons hlt]
        rfl
      · rw [List.length_singleton]
        omega
    · refine ⟨[], by rw [htaken]; rfl, ?_, rfl, ?_⟩
      · rw [htaken]
        exact h
      · rw [List.length_nil]
        omega
  · rw [if_neg hnext, if_neg hnext]
    refine ⟨[], rfl, ⟨?_, ?_⟩, rfl, ?_⟩
    · rw [count_taken_of_ne _ (Ne.symm hnext)]
      exact h.count_eq
    · rw [index_taken]
      exact hle
    · rw [List.length_nil]
      omega

/-- A chain of takes: it hands out the next positions of the group one after the other, two for
    each of its takes as long as two are left. -/
theorem Reached.run (h : Reached group k cursor) (groups : List Text) :
    Reached group (k + (pairs group cursor groups).length) (cursor.after groups) ∧
      (pairs group cursor groups).flatMap (fun pair => [pair.1, pair.2]) =
        ((cursor.index.get group).drop (2 * k)).take (2 * (pairs group cursor groups).length) ∧
      k + (pairs group cursor groups).length =
        min (k + groups.count group) ((cursor.index.get group).length / 2) := by
  -- The induction is on the takes that are still to come.
  induction groups generalizing cursor k with
  | nil =>
    have := h.le_length
    refine ⟨h, rfl, ?_⟩
    rw [pairs, List.length_nil, List.count_nil]
    omega
  | cons next groups ih =>
    obtain ⟨found, hfound, hreached, hflat, hmin⟩ := h.step next
    obtain ⟨hlater, hflat', hmin'⟩ := ih hreached
    rw [index_taken] at hflat' hmin'
    have hle := hreached.le_length
    rw [pairs, hfound, after, List.length_append, List.flatMap_append, hflat, hflat']
    refine ⟨?_, ?_, ?_⟩
    · rwa [← Nat.add_assoc]
    · rw [Nat.mul_add, Nat.mul_add 2 found.length, List.take_add, List.drop_drop]
    · rw [← Nat.add_assoc, hmin', hmin, List.count_cons]
      simp only [beq_iff_eq]
      omega

/-! ## Histories -/

theorem Call.map_extend {α β : Type} (call : Call) {f : α → β} {next : α → α} (next' : β → β)
    (h : ∀ a, f (next a) = next' (f a)) (obtained : List α) :
    (call.extend next obtained).map f = call.extend next' (obtained.map f) := by
  rw [extend, extend, List.map_append, ← Option.toList_map, List.getElem?_map, Option.map_map,
    Option.map_map]
  congr 3
  exact funext h

/-- Every cursor of a history is reached by its chain of takes. -/
theorem obtained_eq (index : MarkerIndex) (calls : List Call) :
    obtained index calls = (chains calls).map (fresh index).after := by
  induction calls using List.reverseRecOn with
  | nil => rfl
  | append_singleton calls call ih =>
    have hchains : chains (calls ++ [call]) = call.extend (· ++ [call.group]) (chains calls) :=
      List.foldl_append
    rw [hchains, call.map_extend (fun c => (c.taken call.group).2) fun chain =>
      after_append _ chain _, ← ih]
    exact List.foldl_append

/-- Takes in any history, on whichever of the cursors obtained so far. Of each group a cursor
    hands out the positions in order, two for every take that succeeds: the take after `k` that
    succeeded hands out the positions number `2 * k` and `2 * k + 1` and counts them, and when no
    two are left, it hands out nothing and returns the very cursor. -/
theorem takes_of_history (index : MarkerIndex) :
    (∀ calls, obtained index calls = (chains calls).map (fresh index).after) ∧
      ∀ groups group,
        let cursor := (fresh index).after groups
        let positions := index.get group
        let k := (pairs group (fresh index) groups).length
        ((∃ start stop next, positions[2 * k]? = some start ∧ positions[2 * k + 1]? = some stop ∧
              cursor.taken group = (some (start, stop), next) ∧ next.index = cursor.index ∧
              next.count group = 2 * k + 2 ∧
              ∀ other ≠ group, next.count other = cursor.count other) ∨
            positions.length < 2 * k + 2 ∧ cursor.taken group = (none, cursor)) ∧
          (cursor.index = index ∧ cursor.count group = 2 * k ∧ 2 * k ≤ positions.length) ∧
          (pairs group (fresh index) groups).flatMap (fun pair => [pair.1, pair.2]) =
            positions.take (2 * k) ∧
          k = min (groups.count group) (positions.length / 2) ∧
          ∀ other ≠ group,
            ((cursor.taken group).2.taken other).1 = (cursor.taken other).1 ∧
              ((cursor.taken other).2.taken group).1 = (cursor.taken group).1 ∧
              ∀ name, ((cursor.taken group).2.taken other).2.count name =
                ((cursor.taken other).2.taken group).2.count name := by
  refine ⟨obtained_eq index, fun groups group => ?_⟩
  intro cursor positions k
  have hindex : cursor.index = index := index_after _ groups
  obtain ⟨hreached, hflat, hmin⟩ := (reached_fresh index group).run groups
  rw [Nat.zero_add] at hreached hmin
  rw [Nat.zero_add] at hmin
  have hcount : cursor.count group = 2 * k := hreached.count_eq
  have hle := hreached.le_length
  have hcases := taken_cases cursor group
  rw [hindex] at hle
  rw [hcount, hindex] at hcases
  rw [hindex]
  exact ⟨hcases, ⟨rfl, hcount, hle⟩, hflat, hmin, fun other hother => taken_comm hother cursor⟩

/-- Two groups, one with a marker too many: a cursor that is used again when newer ones are there,
    and a take that fails. -/
theorem takes_of_two_groups :
    let a : Text := ['a']
    let b : Text := ['b']
    let index : MarkerIndex := ⟨[(a, [1, 3, 4]), (b, [2, 5])]⟩
    let calls : List Call := [⟨0, a⟩, ⟨0, b⟩, ⟨1, b⟩, ⟨1, a⟩]
    (obtained index calls).map (fun c => (c.count a, c.count b)) =
        [(0, 0), (2, 0), (0, 2), (2, 2), (2, 0)] ∧
      a ≠ b ∧ (((fresh index).taken b).2.taken a).1 = some (1, 3) := by
  intro a b index calls
  obtain ⟨hobtained, htakes⟩ := takes_of_history index
  obtain ⟨-, -, -, -, hcomm⟩ := htakes [] b
  refine ⟨?_, by decide, (hcomm a (by decide)).1.trans (by decide)⟩
  rw [hobtained]
  decide

end MarkerCursor

end Transclude
