import Mathlib.Data.List.Nodup
import Transclude.Proofs.Marker
import Transclude.Template

/-!
# Replays by counting

What a reference of a template stands for can be said without a cursor, by counting: the
reference that comes after `k` others to its group stands for the lines strictly between the
markers number `2 * k` and `2 * k + 1` of the group, if the file has both, and else for nothing.
A replay puts together just this, element by element. What is carried from one element to the
next is how many positions of each group were handed out: twice the number of the references so
far, or all pairs that there are (`Template.Follows`).

* `Template.sectionAt`: the section of a reference, as numbers of lines;
* `Template.Follows.step`: what one element contributes, and what the cursor is after it;
* `Template.replay_eq_counted`: the whole replay, and that sections of one group share no line
  and hold no marker of it.
-/

namespace Transclude

namespace Template

open Marker (positions)

variable {token group : Text} {ls : List Text} {before es : List Element} {cursor : MarkerCursor}
  {k n : Nat}

/-! ## Counting -/

/-- The numbers of the lines strictly between the markers number `2 * k` and `2 * k + 1` of a
    group, if the file has that many. -/
def sectionAt (token : Text) (ls : List Text) (group : Text) (k : Nat) : Option (List Nat) :=
  let marked := positions token ls group
  if h : 2 * k + 2 ≤ marked.length then
    some ((List.range ls.length).filter fun i => marked[2 * k] < i && i < marked[2 * k + 1])
  else none

/-- The lines that an element contributes which comes after the elements `before`. -/
def linesOf (token : Text) (ls : List Text) (before : List Element) : Element → List Text
  | .text line => [line]
  | .reference group =>
    ((sectionAt token ls group (before.count (.reference group))).getD []).filterMap (ls[·]?)

/-- The groups that an element reports as missing which comes after the elements `before`. -/
def missingOf (token : Text) (ls : List Text) (before : List Element) : Element → List Text
  | .text _ => []
  | .reference group =>
    if (sectionAt token ls group (before.count (.reference group))).isSome then [] else [group]

theorem sectionAt_of_le {start stop : Nat}
    (hstart : (positions token ls group)[2 * k]? = some start)
    (hstop : (positions token ls group)[2 * k + 1]? = some stop) :
    sectionAt token ls group k =
      some ((List.range ls.length).filter fun i => start < i && i < stop) := by
  obtain ⟨hlt, rfl⟩ := List.getElem?_eq_some_iff.1 hstop
  obtain ⟨_, rfl⟩ := List.getElem?_eq_some_iff.1 hstart
  exact dif_pos hlt

theorem sectionAt_of_lt (h : (positions token ls group).length < 2 * k + 2) :
    sectionAt token ls group k = none :=
  dif_neg (by omega)

/-- The lines that have their numbers in an interval. -/
theorem filterMap_getElem?_range (ls : List Text) (start stop : Nat) :
    ((List.range ls.length).filter fun i => start ≤ i && i < stop).filterMap (ls[·]?) =
      (ls.take stop).drop start := by
  -- Without the first line both bounds go down by one, unless they are zero.
  induction ls generalizing start stop with
  | nil => rw [List.take_nil, List.drop_nil]; rfl
  | cons line ls ih =>
    rw [List.length_cons, List.range_succ_eq_map, List.filter_cons, List.filter_map]
    cases stop with
    | zero => simp
    | succ stop =>
      have hshift (a : Nat) : (List.range ls.length).filter
            ((fun i => decide (a ≤ i) && decide (i < stop + 1)) ∘ Nat.succ) =
          (List.range ls.length).filter fun i => a - 1 ≤ i && i < stop :=
        List.filter_congr fun i _ => by
          rw [Function.comp_apply, Bool.eq_iff_iff]
          simp only [Bool.and_eq_true, decide_eq_true_eq]
          omega
      rw [hshift, List.take_succ_cons]
      cases start with
      | zero =>
        have hhead : (decide (0 ≤ 0) && decide (0 < stop + 1)) = true := by simp
        rw [if_pos hhead, List.filterMap_cons, List.filterMap_map]
        exact congrArg (line :: ·) (ih 0 stop)
      | succ start =>
        have hhead : ¬(decide (start + 1 ≤ 0) && decide (0 < stop + 1)) = true := by simp
        rw [if_neg hhead, List.filterMap_map, List.drop_succ_cons]
        exact ih start stop

theorem between_eq (ls : List Text) (start stop : Nat) : between ls start stop =
    ((List.range ls.length).filter fun i => start < i && i < stop).filterMap (ls[·]?) :=
  (filterMap_getElem?_range ls (start + 1) stop).symm

/-! ## Sections of one group -/

theorem bounds_of_mem_sectionAt {i : Nat} (hi : i ∈ (sectionAt token ls group k).getD []) :
    ∃ h : 2 * k + 1 < (positions token ls group).length,
      (positions token ls group)[2 * k] < i ∧ i < (positions token ls group)[2 * k + 1] := by
  by_cases h : 2 * k + 2 ≤ (positions token ls group).length
  · rw [sectionAt_of_le (List.getElem?_eq_getElem (by omega)) (List.getElem?_eq_getElem h),
      Option.getD_some, List.mem_filter, Bool.and_eq_true, decide_eq_true_eq,
      decide_eq_true_eq] at hi
    exact ⟨h, hi.2⟩
  · rw [sectionAt_of_lt (by omega)] at hi
    exact absurd hi List.not_mem_nil

/-- An earlier section lies before a later one, as a whole. -/
theorem pairwise_flatMap_sectionAt (token : Text) (ls : List Text) (group : Text) (n : Nat) :
    ((List.range n).flatMap fun k => (sectionAt token ls group k).getD []).Pairwise (· < ·) := by
  rw [List.pairwise_flatMap]
  constructor
  · intro k _
    by_cases h : 2 * k + 2 ≤ (positions token ls group).length
    · rw [sectionAt_of_le (List.getElem?_eq_getElem (by omega)) (List.getElem?_eq_getElem h)]
      exact List.pairwise_lt_range.filter _
    · rw [sectionAt_of_lt (by omega)]
      exact .nil
  · -- The earlier section stops at a marker above the one at which the later section starts.
    refine List.pairwise_lt_range.imp fun {k k'} hk i hi j hj => ?_
    obtain ⟨hlt, -, hstop⟩ := bounds_of_mem_sectionAt hi
    obtain ⟨hlt', hstart, -⟩ := bounds_of_mem_sectionAt hj
    have := List.pairwise_iff_getElem.1 (Marker.pairwise_positions token ls group)
      (2 * k + 1) (2 * k') hlt (by omega) (by omega)
    omega

/-- No marker of a group lies within a section of it. -/
theorem not_mem_positions_of_mem_sectionAt {i : Nat}
    (hi : i ∈ (sectionAt token ls group k).getD []) : i ∉ positions token ls group := by
  obtain ⟨hlt, hstart, hstop⟩ := bounds_of_mem_sectionAt hi
  intro hmem
  obtain ⟨m, hm, rfl⟩ := List.getElem_of_mem hmem
  have hascend := List.pairwise_iff_getElem.1 (Marker.pairwise_positions token ls group)
  obtain hlow | rfl | rfl | hhigh : m < 2 * k ∨ m = 2 * k ∨ m = 2 * k + 1 ∨ 2 * k + 1 < m := by
    omega
  · have := hascend m (2 * k) hm (by omega) hlow
    omega
  · omega
  · omega
  · have := hascend (2 * k + 1) m hlt hm hhigh
    omega

/-! ## Steps and runs -/

/-- A cursor that was used for the elements `before`: of each group it handed out a pair of
    positions for each reference, as long as there were any. -/
structure Follows (token : Text) (ls : List Text) (before : List Element)
    (cursor : MarkerCursor) : Prop where
  index : cursor.index = .ofLines token ls
  count : ∀ group, cursor.count group =
    min (2 * before.count (.reference group)) (2 * ((positions token ls group).length / 2))

theorem follows_nil (token : Text) (ls : List Text) :
    Follows token ls [] ⟨.ofLines token ls, []⟩ :=
  ⟨rfl, fun _ => (Nat.zero_min _).symm⟩

/-- The next element contributes what it should, and the cursor goes on as it should. -/
theorem Follows.step (h : Follows token ls before cursor) (e : Element) :
    (step ls cursor e).1.lines = linesOf token ls before e ∧
      (step ls cursor e).1.missing = missingOf token ls before e ∧
        Follows token ls (before ++ [e]) (step ls cursor e).2 := by
  cases e with
  | text line =>
    refine ⟨rfl, rfl, h.index, fun group => ?_⟩
    rw [List.count_append, List.count_singleton, if_neg (by simp)]
    exact h.count group
  | reference group =>
    have hcount := h.count group
    have hget := MarkerIndex.get_ofLines token ls group
    rw [← h.index] at hget
    by_cases hle : 2 * before.count (.reference group) + 2 ≤ (positions token ls group).length
    · -- Two positions are left: so far every reference to the group has found its pair.
      have heq : cursor.count group = 2 * before.count (.reference group) := by omega
      have hstart := List.getElem?_eq_getElem (Nat.lt_of_succ_lt hle)
      have hstop := List.getElem?_eq_getElem (Nat.lt_of_succ_le hle)
      obtain ⟨cursor', htake, hindex, hself, hothers⟩ := MarkerCursor.take?_eq_some
        (by rw [hget, heq]; exact hstart) (by rw [hget, heq]; exact hstop)
      simp only [Template.step, htake, linesOf, missingOf, sectionAt_of_le hstart hstop,
        Option.isSome_some, if_true, Option.getD_some]
      refine ⟨between_eq _ _ _, trivial, hindex.trans h.index, fun other => ?_⟩
      rw [List.count_append, List.count_singleton]
      by_cases hother : other = group
      · rw [hother, hself, if_pos (beq_self_eq_true _)]
        omega
      · rw [hothers other hother, if_neg (by simpa using Ne.symm hother)]
        exact h.count other
    · -- At most one position is left, and it stays where it is: the count does not change.
      have htake : cursor.take? group = none := MarkerCursor.take?_eq_none (by
        rw [hget, List.getElem?_eq_none_iff]
        omega)
      simp only [Template.step, htake, linesOf, missingOf, sectionAt_of_lt (Nat.lt_of_not_le hle),
        Option.isSome_none, Option.getD_none]
      refine ⟨rfl, rfl, h.index, fun other => ?_⟩
      rw [List.count_append, List.count_singleton]
      by_cases hother : other = group
      · rw [hother, if_pos (beq_self_eq_true _)]
        omega
      · rw [if_neg (by simpa using Ne.symm hother)]
        exact h.count other

theorem append_take_succ_cons (before : List Element) (e : Element) (es : List Element) (j : Nat) :
    before ++ (e :: es).take (j + 1) = before ++ [e] ++ es.take j := by
  rw [List.take_succ_cons, List.append_cons]

/-- What all further elements contribute. -/
theorem Follows.run (h : Follows token ls before cursor) (es : List Element) :
    (run ls cursor es).lines =
        (es.mapIdx fun j => linesOf token ls (before ++ es.take j)).flatten ∧
      (run ls cursor es).missing =
        (es.mapIdx fun j => missingOf token ls (before ++ es.take j)).flatten := by
  induction es generalizing before cursor with
  | nil => exact ⟨rfl, rfl⟩
  | cons e es ih =>
    obtain ⟨hlines, hmissing, hnext⟩ := h.step e
    obtain ⟨hmore, hmore'⟩ := ih hnext
    rw [List.mapIdx_cons, List.mapIdx_cons, List.flatten_cons, List.flatten_cons, List.take_zero,
      List.append_nil, ← hlines, ← hmissing]
    simp only [append_take_succ_cons]
    rw [← hmore, ← hmore']
    exact ⟨rfl, rfl⟩

/-- Of the elements before it a reference depends on those to its own group only. -/
theorem linesOf_filter (before : List Element) : linesOf token ls
    (before.filter (· = .reference group)) (.reference group) =
      linesOf token ls before (.reference group) := by
  rw [linesOf, linesOf, List.count_filter (by simp)]

theorem flatten_mapIdx_filter (token : Text) (ls : List Text) (group : Text)
    (before es : List Element) :
    ((es.filter (· = .reference group)).mapIdx fun j => linesOf token ls
        (before.filter (· = .reference group) ++ (es.filter (· = .reference group)).take j)).flatten =
      (es.mapIdx fun j e => if e = .reference group then linesOf token ls (before ++ es.take j) e
        else []).flatten := by
  -- What came before is filtered as well, so that each reference counts the same ones before it.
  induction es generalizing before with
  | nil => rfl
  | cons e es ih =>
    have hrest := ih (before ++ [e])
    rw [List.mapIdx_cons, List.flatten_cons, List.take_zero, List.append_nil]
    simp only [append_take_succ_cons]
    rw [← hrest, List.filter_append]
    by_cases he : e = .reference group
    · have hkeep (rest : List Element) : (e :: rest).filter (· = .reference group) =
          .reference group :: rest.filter (· = .reference group) := by
        rw [he]
        exact List.filter_cons_of_pos (decide_eq_true rfl)
      rw [hkeep, hkeep, List.mapIdx_cons, List.flatten_cons, List.take_zero, List.append_nil,
        if_pos he, he, linesOf_filter, List.filter_nil]
      simp only [append_take_succ_cons]
    · rw [List.filter_cons_of_neg (by simpa using he), if_neg he, List.nil_append,
        List.filter_cons_of_neg (by simpa using he), List.filter_nil, List.append_nil]

/-- A replay puts together, element by element, what counting says. With nothing but the
    references to one group left in the template, these yield the same; their sections have no
    line in common, and none of the lines marks the group. -/
theorem replay_eq_counted (token : Text) (ls : List Text) (es : List Element) :
    (replay token ls es).text =
        Text.unlines (es.mapIdx fun j => linesOf token ls (es.take j)).flatten ∧
      (replay token ls es).missing = (es.mapIdx fun j => missingOf token ls (es.take j)).flatten ∧
      ∀ group,
        (replay token ls (es.filter (· = .reference group))).text =
            Text.unlines (es.mapIdx fun j e =>
              if e = .reference group then linesOf token ls (es.take j) e else []).flatten ∧
          ∀ n, ((List.range n).flatMap fun k => (sectionAt token ls group k).getD []).Nodup ∧
            List.Disjoint ((List.range n).flatMap fun k => (sectionAt token ls group k).getD [])
              (positions token ls group) := by
  have hrun (es : List Element) := (follows_nil token ls).run es
  refine ⟨congrArg Text.unlines (hrun es).1, (hrun es).2, fun group => ⟨?_, fun n => ⟨?_, ?_⟩⟩⟩
  · exact congrArg Text.unlines
      ((hrun _).1.trans (flatten_mapIdx_filter token ls group [] es))
  · exact (pairwise_flatMap_sectionAt token ls group n).imp Nat.ne_of_lt
  · intro i hi
    obtain ⟨k, -, hk⟩ := List.mem_flatMap.1 hi
    exact not_mem_positions_of_mem_sectionAt hk

end Template

end Transclude
