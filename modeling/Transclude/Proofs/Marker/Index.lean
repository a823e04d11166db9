import Transclude.Proofs.Marker
import Transclude.Proofs.Table

/-!
# A marker index takes the markers apart

The index of a file has one entry for each group that is marked, with the numbers of the lines that
mark it. No marker is lost, none is kept twice and none is kept under two groups, so that the
entries take the lines with markers apart; and the entries stand in the order of the first markers.

The entries come about line by line, each line adding its number to an entry or a new entry at the
end. What holds of the entries at every moment is `MarkerIndex.Tidy`; what they hold in the end is
known from `MarkerIndex.get_ofLines`.

* `MarkerIndex.Tidy.insert`, `MarkerIndex.Tidy.addLines`: one more marker, and all lines;
* `Marker.positions_append`: the positions in two lists of lines, one after the other;
* `MarkerIndex.ofLines_partition`: the index of a file.
-/

namespace Transclude

/-! ## Positions -/

namespace Marker

variable {token group : Text} {ls : List Text} {i : Nat}

theorem mem_positions_iff : i ∈ positions token ls group ↔
    ∃ line, ls[i]? = some line ∧ groupOf token line = some group := by
  rw [positions, List.mem_filter, decide_eq_true_eq, Option.bind_eq_some_iff, List.mem_range]
  refine and_iff_right_of_imp ?_
  rintro ⟨line, hline, -⟩
  exact (List.getElem?_eq_some_iff.1 hline).1

/-- The positions in the second list of lines go on where the first ends. -/
theorem positions_append (token : Text) (ls ls' : List Text) (group : Text) :
    positions token (ls ++ ls') group =
      positions token ls group ++ (positions token ls' group).map (· + ls.length) := by
  induction ls with
  | nil => exact (List.map_id _).symm
  | cons line ls ih =>
    rw [List.cons_append, positions_cons, positions_cons, ih, List.map_append, List.append_assoc,
      List.map_map]
    rfl

end Marker

namespace MarkerIndex

variable {token group : Text} {index : MarkerIndex} {ls : List Text} {n : Nat}

/-! ## The entries -/

/-- The entries of an index after `n` lines: no group has two entries, none is empty, all positions
    lie below `n`, and of two entries the one that comes first has the first marker. -/
structure Tidy (entries : Table (List Nat)) (n : Nat) : Prop where
  nodup : (Table.names entries).Nodup
  ne_nil : ∀ entry ∈ entries, entry.2 ≠ []
  lt : ∀ entry ∈ entries, ∀ i ∈ entry.2, i < n
  ordered : entries.Pairwise fun a b => ∃ i ∈ a.2, ∀ j ∈ b.2, i < j

theorem tidy_nil (n : Nat) : Tidy [] n :=
  ⟨.nil, List.forall_mem_nil _, List.forall_mem_nil _, .nil⟩

variable {entries before after : Table (List Nat)} {old : List Nat} {entry : Text × List Nat}

/-- A line without a marker changes nothing. -/
theorem Tidy.succ (h : Tidy entries n) : Tidy entries (n + 1) :=
  ⟨h.nodup, h.ne_nil, fun entry hentry i hi => Nat.lt_succ_of_lt (h.lt entry hentry i hi),
    h.ordered⟩

/-- Every entry has a marker before the line that comes next. -/
theorem Tidy.exists_lt (h : Tidy entries n) (hentry : entry ∈ entries) : ∃ i ∈ entry.2, i < n := by
  obtain ⟨i, hi⟩ := List.exists_mem_of_ne_nil _ (h.ne_nil entry hentry)
  exact ⟨i, hi, h.lt entry hentry i hi⟩

/-- The first marker of a group makes an entry at the end. -/
theorem Tidy.concat (h : Tidy entries n) (hgroup : group ∉ Table.names entries) :
    Tidy (entries ++ [(group, [n])]) (n + 1) where
  nodup := by
    rw [Table.names, List.map_append, List.map_singleton]
    exact List.nodup_append.2 ⟨h.nodup, List.nodup_singleton _, fun a ha =>
      List.forall_mem_singleton.2 (ne_of_mem_of_not_mem ha hgroup)⟩
  ne_nil := List.forall_mem_append.2
    ⟨h.ne_nil, List.forall_mem_singleton.2 (List.cons_ne_nil _ _)⟩
  lt := List.forall_mem_append.2
    ⟨h.succ.lt, List.forall_mem_singleton.2 (List.forall_mem_singleton.2 (Nat.lt_succ_self n))⟩
  ordered := by
    refine List.pairwise_append.2 ⟨h.ordered, List.pairwise_singleton _ _, fun a ha => ?_⟩
    obtain ⟨i, hi, hlt⟩ := h.exists_lt ha
    exact List.forall_mem_singleton.2 ⟨i, hi, List.forall_mem_singleton.2 hlt⟩

/-- A further marker of a group goes to the end of its entry. -/
theorem Tidy.extend (h : Tidy (before ++ (group, old) :: after) n) :
    Tidy (before ++ (group, old ++ [n]) :: after) (n + 1) where
  nodup := by
    have hnodup := h.nodup
    rwa [Table.names, List.map_append, List.map_cons] at hnodup ⊢
  ne_nil := by
    have hne := h.ne_nil
    rw [List.forall_mem_append, List.forall_mem_cons] at hne ⊢
    exact ⟨hne.1, List.append_ne_nil_of_right_ne_nil _ (List.cons_ne_nil _ _), hne.2.2⟩
  lt := by
    have hlt := h.succ.lt
    rw [List.forall_mem_append, List.forall_mem_cons] at hlt ⊢
    exact ⟨hlt.1, List.forall_mem_append.2
      ⟨hlt.2.1, List.forall_mem_singleton.2 (Nat.lt_succ_self n)⟩, hlt.2.2⟩
  ordered := by
    have hordered := h.ordered
    rw [List.pairwise_append, List.pairwise_cons] at hordered ⊢
    obtain ⟨hbefore, ⟨hold, hafter⟩, hacross⟩ := hordered
    refine ⟨hbefore, ⟨fun b hb => ?_, hafter⟩, fun a ha => List.forall_mem_cons.2
      ⟨?_, fun b hb => hacross a ha b (List.mem_cons_of_mem _ hb)⟩⟩
    · obtain ⟨i, hi, hlt⟩ := hold b hb
      exact ⟨i, List.mem_append_left _ hi, hlt⟩
    · -- The marker that lies before all of the entry lies before the new one, too.
      obtain ⟨i, hi, hlt⟩ := hacross a ha _ List.mem_cons_self
      exact ⟨i, hi, List.forall_mem_append.2
        ⟨hlt, List.forall_mem_singleton.2 (h.lt a (List.mem_append_left _ ha) i hi)⟩⟩

/-- One more marker. -/
theorem Tidy.insert (h : Tidy index.positions n) (group : Text) :
    Tidy (index.insert group n).positions (n + 1) := by
  rw [MarkerIndex.insert, get]
  cases hlookup : Table.lookup group index.positions with
  | none =>
    rw [Table.put_of_not_mem (Table.not_mem_names hlookup)]
    exact h.concat (Table.not_mem_names hlookup)
  | some old =>
    obtain ⟨before, after, hentries, hput⟩ := Table.exists_put_eq hlookup
    rw [hput]
    rw [hentries] at h
    exact h.extend

/-- All lines, from the line number `n` on. -/
theorem Tidy.addLines (h : Tidy index.positions n) (token : Text) (ls : List Text) :
    Tidy (addLines token index n ls).positions (n + ls.length) := by
  induction ls generalizing index n with
  | nil => exact h
  | cons line ls ih =>
    rw [MarkerIndex.addLines, List.length_cons, Nat.add_comm ls.length, ← Nat.add_assoc]
    split
    · exact ih h.succ
    · exact ih (h.insert _)

/-! ## The index of a file -/

theorem tidy_ofLines (token : Text) (ls : List Text) :
    Tidy (ofLines token ls).positions ls.length := by
  have hempty : Tidy (MarkerIndex.positions {}) 0 := tidy_nil 0
  have h := hempty.addLines token ls
  rwa [Nat.zero_add] at h

/-- An entry holds the positions of its group, and the groups with a marker have an entry. -/
theorem mem_entries_iff {positions : List Nat} : (group, positions) ∈ (ofLines token ls).positions ↔
    positions = (ofLines token ls).get group ∧ positions ≠ [] := by
  constructor
  · intro h
    have htidy := tidy_ofLines token ls
    refine ⟨?_, htidy.ne_nil _ h⟩
    rw [get, Table.lookup_of_mem htidy.nodup h, Option.getD_some]
  · rintro ⟨rfl, hne⟩
    rw [get] at hne ⊢
    cases hlookup : Table.lookup group (ofLines token ls).positions with
    | none =>
      rw [hlookup] at hne
      exact absurd rfl hne
    | some positions => exact Table.mem_of_lookup hlookup

theorem mem_get_iff {i : Nat} : i ∈ (ofLines token ls).get group ↔
    ∃ line, ls[i]? = some line ∧ Marker.groupOf token line = some group := by
  rw [get_ofLines, Marker.mem_positions_iff]

/-- An index that takes the markers among some lines apart. -/
structure Partitions (index : MarkerIndex) (token : Text) (ls : List Text) : Prop where
  /-- The positions of a group ascend. -/
  ascending : ∀ group, (index.get group).Pairwise (· < ·)
  /-- They are the numbers of the lines that mark the group. -/
  mem_iff : ∀ group i, i ∈ index.get group ↔
    ∃ line, ls[i]? = some line ∧ Marker.groupOf token line = some group
  /-- The entries are the groups that have positions, with these. -/
  entries : ∀ group positions, (group, positions) ∈ index.positions ↔
    positions = index.get group ∧ positions ≠ []
  /-- The number of a line with a marker stands in one entry and no other. -/
  existsUnique : ∀ i line group, ls[i]? = some line → Marker.groupOf token line = some group →
    ∃! entry, entry ∈ index.positions ∧ i ∈ entry.2
  /-- The number of a line without a marker stands in no entry. -/
  not_mem : ∀ i line, ls[i]? = some line → Marker.groupOf token line = none →
    ∀ entry ∈ index.positions, i ∉ entry.2
  /-- Of two entries the one that comes first has the first marker. -/
  ordered : index.positions.Pairwise fun a b => ∃ i ∈ a.2, ∀ j ∈ b.2, i < j

theorem partitions_ofLines (token : Text) (ls : List Text) :
    Partitions (ofLines token ls) token ls where
  ascending group := get_ofLines token ls group ▸ Marker.pairwise_positions token ls group
  mem_iff _ _ := mem_get_iff
  entries _ _ := mem_entries_iff
  existsUnique i line group hline hgroup := by
    have hmem : i ∈ (ofLines token ls).get group := mem_get_iff.2 ⟨line, hline, hgroup⟩
    refine ⟨(group, (ofLines token ls).get group),
      ⟨mem_entries_iff.2 ⟨rfl, List.ne_nil_of_mem hmem⟩, hmem⟩, ?_⟩
    rintro ⟨other, positions⟩ ⟨hentry, hi⟩
    obtain ⟨rfl, -⟩ := mem_entries_iff.1 hentry
    obtain ⟨line', hline', hother⟩ := mem_get_iff.1 hi
    -- A line marks one group at most.
    cases hline.symm.trans hline'
    cases hgroup.symm.trans hother
    rfl
  not_mem i line hline hnone entry hentry hi := by
    rw [(mem_entries_iff.1 hentry).1] at hi
    obtain ⟨line', hline', hgroup⟩ := mem_get_iff.1 hi
    cases hline.symm.trans hline'
    cases hnone.symm.trans hgroup
  ordered := (tidy_ofLines token ls).ordered

/-- The index of a file takes its markers apart, and no marker is lost because lines without the
    token are not looked at. The index of two lists of lines, one after the other, has for each
    group its positions in the first, and then those in the second, moved on by its length. -/
theorem ofLines_partition (token : Text) (ls : List Text) :
    Partitions (ofLines token ls) token ls ∧
      (∀ line, Marker.groupOfLine token line = Marker.groupOf token line) ∧
      ∀ ls' group, (ofLines token (ls ++ ls')).get group =
        (ofLines token ls).get group ++ ((ofLines token ls').get group).map (· + ls.length) := by
  refine ⟨partitions_ofLines token ls, Marker.groupOfLine_eq token, fun ls' group => ?_⟩
  simp only [get_ofLines, Marker.positions_append]

/-- Two groups whose markers take turns, and a line with the token but no name. -/
example : (ofLines "group".toList ["# group b".toList, "groups".toList, "# group a".toList,
    "group b, group c".toList]).positions = [("b".toList, [0, 3]), ("a".toList, [2])] := by
  decide

end MarkerIndex

end Transclude
