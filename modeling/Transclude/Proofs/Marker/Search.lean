import Mathlib.Data.Nat.Find
import Transclude.Marker
import Transclude.Proofs.Text.Runs

/-!
# The place that makes a marker

A line marks a group at a place where the token stands, with white space and then a name behind
it. The token may stand at many places of a line, its occurrences may overlap, and the empty token
stands everywhere, at the end of the line too. The leftmost place with white space and a name
decides, and the name there goes on as long as it can. White space and the characters of a name
have nothing in common, so it does not matter how the two are told apart.

The group of a line can be found without a look at every place: the search goes from one
occurrence of the token to the next, one character further each time, so that it comes to an end
also where the token is empty (`Marker.Search`).

* `Marker.StandsAt`, `Marker.NamesAt`: a place that makes a marker, and the name at it;
* `Marker.groupOf_drop_of_none`: places without a name can be passed over;
* `Marker.search_sound`, `Marker.exists_search`: the search finds the group, and it ends;
* `Marker.groupOf_leftmost`: all of it together.
-/

namespace Transclude

namespace Marker

open Text (isBlank IsRun isRun_takeWhile)

variable {token line t name : Text} {start place : Nat} {result : Option Text}

/-! ## Names -/

/-- At a place of a line the token stands, and behind it white space and then a character of a
    name. -/
def StandsAt (token line : Text) (place : Nat) : Prop :=
  ∃ blanks c rest, line.drop place = token ++ (blanks ++ c :: rest) ∧
    blanks ≠ [] ∧ (∀ b ∈ blanks, isBlank b) ∧ isNameChar c

/-- At a place of a line the token stands, and behind it white space and then the name, which no
    further character of a name follows. -/
def NamesAt (token line : Text) (place : Nat) (name : Text) : Prop :=
  ∃ blanks rest, line.drop place = token ++ (blanks ++ (name ++ rest)) ∧
    blanks ≠ [] ∧ (∀ b ∈ blanks, isBlank b) ∧ name ≠ [] ∧ IsRun isNameChar name rest

/-- White space cannot stand in a name. -/
theorem isBlank_of_isNameChar {c : Char} (h : isNameChar c) : isBlank c = false := by
  refine Bool.eq_false_iff.2 fun hblank => ?_
  simp only [isNameChar, Bool.or_eq_true, decide_eq_true_eq] at h
  rcases h with (h | rfl) | rfl
  · rw [Text.isWordChar_of_isBlank hblank] at h
    exact Bool.false_ne_true h
  · exact absurd hblank (by decide)
  · exact absurd hblank (by decide)

theorem nameAfter_eq_some_iff : nameAfter t = some name ↔ ∃ blanks rest,
    t = blanks ++ (name ++ rest) ∧ blanks ≠ [] ∧ (∀ b ∈ blanks, isBlank b) ∧
      name ≠ [] ∧ IsRun isNameChar name rest := by
  constructor
  · intro h
    simp only [nameAfter] at h
    split at h
    · exact absurd h (by simp)
    · rename_i hne
      simp only [Bool.or_eq_true, List.isEmpty_iff, not_or] at hne
      obtain rfl := Option.some.inj h
      refine ⟨t.takeWhile isBlank, (t.dropWhile isBlank).dropWhile isNameChar, ?_, hne.1,
        (isRun_takeWhile _ t).all, hne.2, isRun_takeWhile _ _⟩
      rw [List.takeWhile_append_dropWhile, List.takeWhile_append_dropWhile]
  · rintro ⟨blanks, rest, rfl, hblanks, hall, hname, hrun⟩
    -- The white space ends where the name begins.
    have hspace : IsRun isBlank blanks (name ++ rest) := by
      refine ⟨hall, fun c hc => isBlank_of_isNameChar (hrun.all c ?_)⟩
      obtain ⟨d, name, rfl⟩ := List.exists_cons_of_ne_nil hname
      exact Option.some.inj hc ▸ List.mem_cons_self
    simp only [nameAfter]
    rw [hspace.takeWhile_eq, hspace.dropWhile_eq, hrun.takeWhile_eq, if_neg]
    simp [hblanks, hname]

/-- The name at a place is the one that is read there. -/
theorem namesAt_iff :
    NamesAt token line place name ↔ nameAt token (line.drop place) = some name := by
  constructor
  · rintro ⟨blanks, rest, hline, h⟩
    rw [nameAt, hline, if_pos (List.isPrefixOf_iff_prefix.2 (List.prefix_append _ _)),
      List.drop_left]
    exact nameAfter_eq_some_iff.2 ⟨blanks, rest, rfl, h⟩
  · intro h
    rw [nameAt] at h
    split at h
    · rename_i htoken
      obtain ⟨t, ht⟩ := List.isPrefixOf_iff_prefix.1 htoken
      rw [← ht, List.drop_left] at h
      obtain ⟨blanks, rest, rfl, hparts⟩ := nameAfter_eq_some_iff.1 h
      exact ⟨blanks, rest, ht.symm, hparts⟩
    · exact absurd h (by simp)

/-- Where a name can begin, there is one. -/
theorem standsAt_iff : StandsAt token line place ↔ ∃ name, NamesAt token line place name := by
  constructor
  · rintro ⟨blanks, c, rest, hline, hblanks, hall, hc⟩
    refine ⟨(c :: rest).takeWhile isNameChar, blanks, (c :: rest).dropWhile isNameChar, ?_,
      hblanks, hall, ?_, isRun_takeWhile _ _⟩
    · rw [List.takeWhile_append_dropWhile, hline]
    · rw [List.takeWhile_cons_of_pos hc]
      exact List.cons_ne_nil _ _
  · rintro ⟨name, blanks, rest, hline, hblanks, hall, hname, hrun⟩
    obtain ⟨c, name, rfl⟩ := List.exists_cons_of_ne_nil hname
    exact ⟨blanks, c, name ++ rest, hline, hblanks, hall, hrun.all c List.mem_cons_self⟩

theorem not_standsAt_iff : ¬ StandsAt token line place ↔ nameAt token (line.drop place) = none := by
  rw [standsAt_iff, Option.eq_none_iff_forall_ne_some, not_exists]
  exact forall_congr' fun name => not_congr namesAt_iff

/-! ## The leftmost place -/

theorem nameAt_nil (token : Text) : nameAt token [] = none := by
  rw [nameAt, List.drop_nil, show nameAfter [] = none from rfl, ite_self]

/-- A line marks the group that is named at its start, or else the one that the rest marks. -/
theorem groupOf_eq (token t : Text) :
    groupOf token t = (nameAt token t).or (groupOf token t.tail) := by
  cases t with
  | nil => rw [List.tail_nil, groupOf, nameAt_nil]; rfl
  | cons c t => rw [groupOf]; cases nameAt token (c :: t) <;> rfl

/-- Places without a name can be passed over. -/
theorem groupOf_drop_of_none (hle : start ≤ place)
    (h : ∀ i, start ≤ i → i < place → nameAt token (line.drop i) = none) :
    groupOf token (line.drop start) = groupOf token (line.drop place) := by
  induction place, hle using Nat.le_induction with
  | base => rfl
  | succ place hle ih =>
    rw [ih fun i hi hlt => h i hi (Nat.lt_succ_of_lt hlt), groupOf_eq,
      h place hle (Nat.lt_succ_self _), Option.none_or, List.tail_drop]

/-- The leftmost name is the group. -/
theorem groupOf_drop_of_some (hle : start ≤ place)
    (h : ∀ i, start ≤ i → i < place → nameAt token (line.drop i) = none)
    (hname : nameAt token (line.drop place) = some name) :
    groupOf token (line.drop start) = some name := by
  rw [groupOf_drop_of_none hle h, groupOf_eq, hname, Option.some_or]

theorem groupOf_drop_eq_none (h : ∀ i, start ≤ i → nameAt token (line.drop i) = none) :
    groupOf token (line.drop start) = none := by
  have hend : line.drop (start + line.length) = [] := List.drop_eq_nil_of_le (Nat.le_add_left _ _)
  rw [groupOf_drop_of_none (Nat.le_add_right _ line.length) fun i hi _ => h i hi, hend, groupOf,
    nameAt_nil]

/-- The name at the leftmost place is the group of the line. -/
theorem groupOf_of_namesAt (hname : NamesAt token line place name)
    (hfirst : ∀ earlier < place, ¬ StandsAt token line earlier) :
    groupOf token line = some name := by
  change groupOf token (line.drop 0) = some name
  exact groupOf_drop_of_some (Nat.zero_le _) (fun i _ hlt => not_standsAt_iff.1 (hfirst i hlt))
    (namesAt_iff.1 hname)

/-- A line without such a place marks no group. -/
theorem groupOf_of_not_standsAt (h : ∀ place, ¬ StandsAt token line place) :
    groupOf token line = none := by
  change groupOf token (line.drop 0) = none
  exact groupOf_drop_eq_none fun i _ => not_standsAt_iff.1 (h i)

theorem exists_first_namesAt (h : StandsAt token line place) : ∃ first name,
    NamesAt token line first name ∧ ∀ earlier < first, ¬ StandsAt token line earlier := by
  classical
  obtain ⟨name, hname⟩ := standsAt_iff.1 (Nat.find_spec ⟨place, h⟩)
  exact ⟨_, name, hname, fun earlier hlt => Nat.find_min ⟨place, h⟩ hlt⟩

/-! ## The search -/

/-- The token stands at a place of a line. The empty token stands at its end, too. -/
def OccursAt (token line : Text) (place : Nat) : Prop :=
  place ≤ line.length ∧ token <+: line.drop place

/-- The first place from `start` on at which the token stands. -/
structure IsNext (token line : Text) (start place : Nat) : Prop where
  le : start ≤ place
  occurs : OccursAt token line place
  first : ∀ i, start ≤ i → i < place → ¬ OccursAt token line i

/-- The search from the place `start` on, with its result. It tries the first place at which the
    token stands, and if no name is there, it goes on one character further. -/
inductive Search (token line : Text) : Nat → Option Text → Prop
  /-- The token does not stand at any further place. -/
  | exhausted {start : Nat} (h : ∀ i, start ≤ i → ¬ OccursAt token line i) :
    Search token line start none
  /-- A name stands behind the token. -/
  | found {start place : Nat} {name : Text} (h : IsNext token line start place)
    (hname : nameAfter (line.drop (place + token.length)) = some name) :
    Search token line start (some name)
  /-- No name stands behind the token. -/
  | further {start place : Nat} {result : Option Text} (h : IsNext token line start place)
    (hname : nameAfter (line.drop (place + token.length)) = none)
    (hrest : Search token line (place + 1) result) : Search token line start result

/-- Where the token does not stand there is no name. -/
theorem nameAt_of_not_occursAt (h : ¬ OccursAt token line place) :
    nameAt token (line.drop place) = none := by
  by_cases hle : place ≤ line.length
  · exact if_neg fun htoken => h ⟨hle, List.isPrefixOf_iff_prefix.1 htoken⟩
  · rw [List.drop_eq_nil_of_le (Nat.le_of_not_le hle), nameAt_nil]

theorem OccursAt.nameAt_eq (h : OccursAt token line place) :
    nameAt token (line.drop place) = nameAfter (line.drop (place + token.length)) := by
  rw [nameAt, if_pos (List.isPrefixOf_iff_prefix.2 h.2), List.drop_drop]

/-- What the search finds is the group of the line from the place on where it starts. -/
theorem search_sound (h : Search token line start result) :
    result = groupOf token (line.drop start) := by
  induction h with
  | exhausted h => exact (groupOf_drop_eq_none fun i hi => nameAt_of_not_occursAt (h i hi)).symm
  | found h hname =>
    refine (groupOf_drop_of_some h.le (fun i hi hlt => ?_) (h.occurs.nameAt_eq.trans hname)).symm
    exact nameAt_of_not_occursAt (h.first i hi hlt)
  | @further start place _ h hname _ ih =>
    rw [ih, groupOf_drop_of_none (Nat.le_succ_of_le h.le)]
    intro i hi hlt
    obtain hlt | rfl := Nat.lt_or_eq_of_le (Nat.le_of_lt_succ hlt)
    · exact nameAt_of_not_occursAt (h.first i hi hlt)
    · exact h.occurs.nameAt_eq.trans hname

/-- The next place can be found, if there is any. -/
theorem exists_isNext (hle : start ≤ place) (h : OccursAt token line place) :
    ∃ place, IsNext token line start place := by
  classical
  have hex : ∃ i, start ≤ i ∧ OccursAt token line i := ⟨place, hle, h⟩
  obtain ⟨hfirst, hoccurs⟩ := Nat.find_spec hex
  exact ⟨Nat.find hex, hfirst, hoccurs, fun i hi hlt hi' => Nat.find_min hex hlt ⟨hi, hi'⟩⟩

/-- The search ends: each place that is tried lies in the line and beyond the ones before. -/
theorem exists_search (token line : Text) (start : Nat) :
    ∃ result, Search token line start result := by
  -- The induction is on how much of the line lies beyond the start.
  induction hrest : line.length + 1 - start using Nat.strongRecOn generalizing start with
  | ind n ih =>
    by_cases hex : ∃ place, start ≤ place ∧ OccursAt token line place
    · obtain ⟨_, hle, hoccurs⟩ := hex
      obtain ⟨place, hnext⟩ := exists_isNext hle hoccurs
      cases hname : nameAfter (line.drop (place + token.length)) with
      | some name => exact ⟨some name, .found hnext hname⟩
      | none =>
        have hless : line.length + 1 - (place + 1) < n := by
          have := hnext.le
          have := hnext.occurs.1
          omega
        obtain ⟨result, hsearch⟩ := ih _ hless (place + 1) rfl
        exact ⟨result, .further hnext hname hsearch⟩
    · exact ⟨none, .exhausted fun i hi hoccurs => hex ⟨i, hi, hoccurs⟩⟩

/-- The search for the group of a line ends, with one result. It is a name just if the token stands
    somewhere with white space and a name behind it, and then it is the name, in its full length,
    at the leftmost of these places. -/
theorem groupOf_leftmost (token line : Text) :
    (∀ result, Search token line 0 result ↔ result = groupOf token line) ∧
      (∀ name, groupOf token line = some name ↔ ∃ place, NamesAt token line place name ∧
        ∀ earlier < place, ¬ StandsAt token line earlier) ∧
      (groupOf token line = none ↔ ∀ place, ¬ StandsAt token line place) := by
  refine ⟨fun result => ⟨search_sound, ?_⟩, fun name => ⟨fun h => ?_, ?_⟩, fun h place hplace => ?_,
    groupOf_of_not_standsAt⟩
  · rintro rfl
    obtain ⟨result, hsearch⟩ := exists_search token line 0
    have hresult : result = groupOf token line := search_sound hsearch
    rwa [← hresult]
  · by_cases hstands : ∃ place, StandsAt token line place
    · obtain ⟨place, hplace⟩ := hstands
      obtain ⟨first, found, hname, hfirst⟩ := exists_first_namesAt hplace
      obtain rfl := Option.some.inj ((groupOf_of_namesAt hname hfirst).symm.trans h)
      exact ⟨first, hname, hfirst⟩
    · rw [groupOf_of_not_standsAt (not_exists.1 hstands)] at h
      cases h
  · rintro ⟨place, hname, hfirst⟩
    exact groupOf_of_namesAt hname hfirst
  · obtain ⟨first, name, hname, hfirst⟩ := exists_first_namesAt hplace
    rw [groupOf_of_namesAt hname hfirst] at h
    cases h

/-- The occurrence at the start hides neither the one that overlaps it nor the name behind it. -/
example : groupOf "aa".toList "aaa \tb-1c".toList = some "b-1c".toList := by decide

end Marker

end Transclude
