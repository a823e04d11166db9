import Mathlib.Data.List.Infix
import Transclude.Proofs.Path
import Transclude.World

/-!
# Places in the world

Where a path leads does not depend on the world: as long as every directory on the way is
there, it leads to the place that its names spell once every `..` has taken back the name
before it. The world decides only whether the way is there, and the way passes through
finitely many places. So a path leads to a directory exactly if no name is too long and all
the places that it passes are directories.

A world whose files and directories all lie in directories is a *tree*. In a tree a path
without `..` leads to whatever is at its place, without a look at the way.

* `Path.place`, `Path.way`: where a path leads, and what it passes;
* `World.find_eq_directory_iff`: when a path leads to a directory;
* `World.Grows.find_of_ok`: what a path leads to in a world that has grown;
* `World.IsTree.find_eq_ok_iff`: what a path without `..` leads to in a tree.
-/

namespace Transclude

namespace Path

variable {p : Path} {names here : List Text} {name : Text}

/-! ## Ways -/

/-- The names that lead from the root directory to where a path leads. -/
def place (p : Path) : List Text :=
  p.resolved.components

/-- The places that a path passes, from the root directory to where it leads. -/
def way (p : Path) : List (List Text) :=
  p.components.inits.map (collapse true)

theorem place_eq (p : Path) : p.place = collapse true p.components := by
  rw [place, resolved, normalize, isAbsolute_absolute, absolute, append]
  split <;> rfl

theorem mem_way : here ∈ p.way ↔ ∃ names, names <+: p.components ∧ collapse true names = here := by
  simp only [way, List.mem_map, List.mem_inits]

theorem nil_mem_way (p : Path) : [] ∈ p.way :=
  mem_way.2 ⟨[], List.nil_prefix, rfl⟩

theorem place_mem_way (p : Path) : p.place ∈ p.way :=
  mem_way.2 ⟨_, List.prefix_rfl, p.place_eq.symm⟩

/-- Below the root directory, `..` takes back the name before it. -/
theorem collapseStep_parentName {seen : List Text} (h : ∀ last ∈ seen, last ≠ parentName) :
    collapseStep true seen parentName = seen.tail := by
  unfold collapseStep
  rw [if_neg (not_not.2 rfl)]
  cases seen with
  | nil => rfl
  | cons last rest => exact if_neg (h last List.mem_cons_self)

/-- One more name leads down, or back up. -/
theorem collapse_concat (names : List Text) (name : Text) :
    collapse true (names ++ [name]) =
      if name = parentName then (collapse true names).dropLast
      else collapse true names ++ [name] := by
  split
  · rename_i hname
    rw [collapse, collapse, List.foldl_concat, hname, collapseStep_parentName fun last h =>
      (mem_collapse (List.mem_reverse.2 h)).2, List.dropLast_reverse]
  · rename_i hname
    exact collapse_append true names fun other hother => List.mem_singleton.1 hother ▸ hname

/-- The way passes everything above the place to which it leads. -/
theorem exists_prefix_of_prefix_collapse (h : here <+: collapse true names) :
    ∃ before, before <+: names ∧ collapse true before = here := by
  induction names using List.reverseRecOn with
  | nil => exact ⟨[], List.prefix_rfl, (List.prefix_nil.1 h).symm⟩
  | append_singleton names name ih =>
    have hinit (h : here <+: collapse true names) :
        ∃ before, before <+: names ++ [name] ∧ collapse true before = here := by
      obtain ⟨before, hbefore, hhere⟩ := ih h
      exact ⟨before, hbefore.trans (List.prefix_append _ _), hhere⟩
    by_cases hname : name = parentName
    · rw [collapse_concat, if_pos hname] at h
      exact hinit (h.trans (List.dropLast_prefix _))
    · rw [collapse_concat, if_neg hname] at h
      rcases List.prefix_concat_iff.1 h with rfl | h
      · exact ⟨_, List.prefix_rfl, by rw [collapse_concat, if_neg hname]⟩
      · exact hinit h

end Path

namespace World

open Transclude.Path (collapse parentName)

variable {w w' : World} {p : Path} {place other here names : List Text} {name : Text}
  {entry : Entry} {bytes : List UInt8} {fault : FileFault}

/-! ## Entries -/

theorem entryAt?_put_self (w : World) (entry : Entry) (h : place ≠ []) :
    (w.put place entry).entryAt? place = some entry := by
  have hnone : (w.entries.filter fun e => e.1 ≠ place).find? (fun e => e.1 = place) = none :=
    List.find?_eq_none.2 fun e he => by simpa using (List.mem_filter.1 he).2
  rw [entryAt?, if_neg (by simpa using h), put, List.find?_append, hnone, Option.none_or,
    List.find?_cons_of_pos (by simp)]
  rfl

theorem entryAt?_put_of_ne (w : World) (entry : Entry) (h : other ≠ place) :
    (w.put place entry).entryAt? other = w.entryAt? other := by
  have hlast : [(place, entry)].find? (fun e => e.1 = other) = none :=
    List.find?_cons_of_neg (by simpa using fun h' => h h'.symm)
  have hrest : (w.entries.filter fun e => e.1 ≠ place).find? (fun e => e.1 = other) =
      w.entries.find? fun e => e.1 = other := by
    rw [List.find?_filter]
    refine congrArg (List.find? · w.entries) (funext fun e => ?_)
    by_cases he : e.1 = other
    · simp [he, h]
    · simp [he]
  rw [entryAt?, entryAt?, put, List.find?_append, hlast, Option.or_none, hrest]

/-! ## Walking -/

theorem walk_append (w : World) (here names rest : List Text) :
    w.walk here (names ++ rest) = (w.walk here names).bind fun place => w.walk place rest := by
  induction names generalizing here with
  | nil => rfl
  | cons name names ih =>
    rw [List.cons_append, walk, walk]
    split
    · rfl
    · rfl
    · split
      · exact ih _
      · split
        · rfl
        · split
          · rfl
          · exact ih _

/-- A name leads on from a directory. -/
theorem walk_singleton_eq_ok_iff : w.walk here [name] = .ok place ↔
    w.entryAt? here = some .directory ∧
      ((name = parentName ∧ place = here.dropLast) ∨
        (name ≠ parentName ∧ ¬isLongName name ∧ (w.entryAt? (here ++ [name])).isSome ∧
          place = here ++ [name])) := by
  rw [walk]
  constructor
  · intro h
    split at h
    · cases h
    · cases h
    · rename_i hhere
      split at h
      · rename_i hname
        exact ⟨hhere, .inl ⟨hname, (Except.ok.inj h).symm⟩⟩
      · rename_i hname
        split at h
        · cases h
        · rename_i hlong
          split at h
          · cases h
          · rename_i hsome
            rw [Option.isNone_iff_eq_none, ← ne_eq, Option.ne_none_iff_isSome] at hsome
            exact ⟨hhere, .inr ⟨hname, hlong, hsome, (Except.ok.inj h).symm⟩⟩
  · rintro ⟨hhere, ⟨rfl, rfl⟩ | ⟨hname, hlong, hsome, rfl⟩⟩
    · rw [hhere]
      dsimp only
      rw [if_pos rfl, walk]
    · rw [hhere]
      dsimp only
      rw [if_neg hname, if_neg hlong,
        if_neg (by simpa [Option.isSome_iff_ne_none] using hsome), walk]

theorem walk_concat_eq_ok_iff : w.walk [] (names ++ [name]) = .ok place ↔
    ∃ here, w.walk [] names = .ok here ∧ w.walk here [name] = .ok place := by
  rw [walk_append]
  cases w.walk [] names with
  | error fault => exact ⟨nofun, nofun⟩
  | ok here => exact ⟨fun h => ⟨here, rfl, h⟩, fun ⟨_, heq, h⟩ => Except.ok.inj heq ▸ h⟩

/-- The place to which names lead does not depend on the world. -/
theorem eq_collapse_of_walk (h : w.walk [] names = .ok place) : place = collapse true names := by
  induction names using List.reverseRecOn generalizing place with
  | nil => exact (Except.ok.inj h).symm
  | append_singleton names name ih =>
    obtain ⟨here, hhere, hlast⟩ := walk_concat_eq_ok_iff.1 h
    rw [Path.collapse_concat, ← ih hhere]
    rcases walk_singleton_eq_ok_iff.1 hlast with ⟨-, ⟨hname, hplace⟩ | ⟨hname, -, -, hplace⟩⟩
    · rw [if_pos hname, hplace]
    · rw [if_neg hname, hplace]

/-- No name of a path is too long, and neither is the path. -/
structure Fits (p : Path) : Prop where
  path : ¬isLongPath p
  name : ∀ name ∈ p.components, name ≠ parentName → ¬isLongName name

/-- Names lead to a directory if they lead through directories. -/
theorem walk_to_directory_iff :
    w.walk [] names = .ok place ∧ w.entryAt? place = some .directory ↔
      place = collapse true names ∧ (∀ name ∈ names, name ≠ parentName → ¬isLongName name) ∧
        ∀ before, before <+: names → w.entryAt? (collapse true before) = some .directory := by
  induction names using List.reverseRecOn generalizing place with
  | nil =>
    refine ⟨fun ⟨h, hplace⟩ => ⟨(Except.ok.inj h).symm, nofun, fun before hbefore => ?_⟩,
      fun ⟨h, _, _⟩ => ⟨congrArg Except.ok h.symm, h ▸ rfl⟩⟩
    rw [List.prefix_nil.1 hbefore]
    rfl
  | append_singleton names name ih =>
    constructor
    · rintro ⟨h, hplace⟩
      have hcollapse := eq_collapse_of_walk h
      obtain ⟨here, hhere, hlast⟩ := walk_concat_eq_ok_iff.1 h
      obtain ⟨hdirectory, hcases⟩ := walk_singleton_eq_ok_iff.1 hlast
      obtain ⟨-, hshort, hway⟩ := ih.1 ⟨hhere, hdirectory⟩
      refine ⟨hcollapse, fun other hother hne => ?_, fun before hbefore => ?_⟩
      · rcases List.mem_append.1 hother with hother | hother
        · exact hshort other hother hne
        · rw [List.mem_singleton.1 hother] at hne ⊢
          exact (hcases.resolve_left fun h => hne h.1).2.1
      · rcases List.prefix_concat_iff.1 hbefore with rfl | hbefore
        · exact hcollapse ▸ hplace
        · exact hway before hbefore
    · rintro ⟨rfl, hshort, hway⟩
      have hinit : ∀ before, before <+: names →
          w.entryAt? (collapse true before) = some .directory :=
        fun before hbefore => hway before (hbefore.trans (List.prefix_append _ _))
      obtain ⟨hhere, hdirectory⟩ := ih.2 ⟨rfl,
        fun other hother => hshort other (List.mem_append_left _ hother), hinit⟩
      have hplace := hway _ List.prefix_rfl
      refine ⟨walk_concat_eq_ok_iff.2
        ⟨_, hhere, walk_singleton_eq_ok_iff.2 ⟨hdirectory, ?_⟩⟩, hplace⟩
      rw [Path.collapse_concat] at hplace ⊢
      by_cases hname : name = parentName
      · exact .inl ⟨hname, if_pos hname⟩
      · rw [if_neg hname] at hplace ⊢
        exact .inr ⟨hname, hshort name (List.mem_append_right _ List.mem_cons_self) hname,
          hplace ▸ rfl, rfl⟩

/-! ## Finding -/

theorem locate_eq_ok_iff :
    w.locate p = .ok place ↔ ¬isLongPath p ∧ w.walk [] p.components = .ok place := by
  rw [locate]
  split
  · rename_i hlong
    exact ⟨nofun, fun h => absurd hlong h.1⟩
  · rename_i hlong
    exact ⟨fun h => ⟨hlong, h⟩, And.right⟩

theorem find_eq_ok_iff : w.find p = .ok entry ↔
    ¬isLongPath p ∧ w.walk [] p.components = .ok p.place ∧ w.entryAt? p.place = some entry := by
  constructor
  · intro h
    rw [find] at h
    split at h
    · cases h
    · rename_i place hplace
      obtain ⟨hlong, hwalk⟩ := locate_eq_ok_iff.1 hplace
      rw [eq_collapse_of_walk hwalk, ← Path.place_eq] at h hwalk
      split at h
      · cases h
      · rename_i hentry
        exact ⟨hlong, hwalk, hentry.trans (congrArg some (Except.ok.inj h))⟩
  · rintro ⟨hlong, hwalk, hentry⟩
    rw [find, locate_eq_ok_iff.2 ⟨hlong, hwalk⟩]
    dsimp only
    rw [hentry]

/-- A path leads to a directory if everything that it passes is one. -/
theorem find_eq_directory_iff :
    w.find p = .ok .directory ↔ Fits p ∧ ∀ place ∈ p.way, w.entryAt? place = some .directory := by
  rw [find_eq_ok_iff, walk_to_directory_iff]
  simp only [Path.mem_way]
  constructor
  · rintro ⟨hpath, -, hname, hway⟩
    refine ⟨⟨hpath, hname⟩, ?_⟩
    rintro _ ⟨before, hbefore, rfl⟩
    exact hway before hbefore
  · rintro ⟨⟨hpath, hname⟩, hway⟩
    exact ⟨hpath, p.place_eq, hname, fun before hbefore => hway _ ⟨before, hbefore, rfl⟩⟩

/-- Names that lead down to something are short. -/
theorem short_of_walk (hnames : parentName ∉ names) (h : w.walk [] names = .ok place) :
    ∀ name ∈ names, ¬isLongName name := by
  induction names using List.reverseRecOn generalizing place with
  | nil => exact nofun
  | append_singleton names last ih =>
    simp only [List.mem_append, List.mem_singleton, not_or] at hnames
    obtain ⟨here, hhere, hlast⟩ := walk_concat_eq_ok_iff.1 h
    obtain ⟨-, hlong, -⟩ :=
      (walk_singleton_eq_ok_iff.1 hlast).2.resolve_left fun h => hnames.2 h.1.symm
    intro name hname
    rcases List.mem_append.1 hname with hname | hname
    · exact ih hnames.1 hhere name hname
    · exact List.mem_singleton.1 hname ▸ hlong

theorem fits_of_find (hp : parentName ∉ p.components) (h : w.find p = .ok entry) : Fits p := by
  obtain ⟨hlong, hwalk, -⟩ := find_eq_ok_iff.1 h
  exact ⟨hlong, fun name hname _ => short_of_walk hp hwalk name hname⟩

theorem readBytes_eq_ok_iff : w.readBytes p = .ok bytes ↔ w.find p = .ok (.file bytes) := by
  rw [readBytes]
  split
  · rename_i h
    rw [h]
    exact ⟨nofun, nofun⟩
  · rename_i h
    rw [h]
    exact ⟨nofun, nofun⟩
  · rename_i h
    rw [h]
    exact ⟨fun h => congrArg _ (congrArg _ (Except.ok.inj h)),
      fun h => congrArg _ (Entry.file.inj (Except.ok.inj h))⟩

/-! ## Growing -/

/-- Every directory of a world is still one, and nothing is gone. -/
structure Grows (w w' : World) : Prop where
  directory : ∀ {place}, w.entryAt? place = some .directory → w'.entryAt? place = some .directory
  isSome : ∀ {place}, (w.entryAt? place).isSome → (w'.entryAt? place).isSome

theorem Grows.refl (w : World) : Grows w w :=
  ⟨id, id⟩

theorem Grows.trans {w'' : World} (h : Grows w w') (h' : Grows w' w'') : Grows w w'' :=
  ⟨fun hplace => h'.directory (h.directory hplace), fun hplace => h'.isSome (h.isSome hplace)⟩

/-- A world grows by what is put where there is no directory. -/
theorem Grows.put (entry : Entry) (h : w.entryAt? place ≠ some .directory) :
    Grows w (w.put place entry) := by
  have hplace : place ≠ [] := fun heq => h (heq ▸ rfl)
  refine ⟨fun {other} hother => ?_, fun {other} hother => ?_⟩
  · have hne : other ≠ place := fun heq => h (heq ▸ hother)
    rwa [entryAt?_put_of_ne w entry hne]
  · by_cases hne : other = place
    · rw [hne, entryAt?_put_self w entry hplace]
      rfl
    · rwa [entryAt?_put_of_ne w entry hne]

theorem Grows.walk (h : Grows w w') (hwalk : w.walk [] names = .ok place) :
    w'.walk [] names = .ok place := by
  induction names using List.reverseRecOn generalizing place with
  | nil => exact hwalk
  | append_singleton names name ih =>
    obtain ⟨here, hhere, hlast⟩ := walk_concat_eq_ok_iff.1 hwalk
    obtain ⟨hdirectory, hcases⟩ := walk_singleton_eq_ok_iff.1 hlast
    refine walk_concat_eq_ok_iff.2 ⟨here, ih hhere,
      walk_singleton_eq_ok_iff.2 ⟨h.directory hdirectory, hcases.imp_right ?_⟩⟩
    exact fun ⟨hname, hlong, hsome, hplace⟩ => ⟨hname, hlong, h.isSome hsome, hplace⟩

/-- In a world that has grown a path leads to the same place, and so to the same thing if that
    is still there. -/
theorem Grows.find_of_ok (h : Grows w w') (hfind : w.find p = .ok entry)
    (hplace : w'.entryAt? p.place = w.entryAt? p.place) : w'.find p = .ok entry := by
  obtain ⟨hlong, hwalk, hentry⟩ := find_eq_ok_iff.1 hfind
  exact find_eq_ok_iff.2 ⟨hlong, h.walk hwalk, hplace.trans hentry⟩

/-! ## Trees -/

/-- A world in which no place has two entries, everything lies in a directory, and every name
    leads down. -/
structure IsTree (w : World) : Prop where
  nodup : (w.entries.map Prod.fst).Nodup
  ne_nil : ∀ e ∈ w.entries, e.1 ≠ []
  isProper : ∀ e ∈ w.entries, ∀ name ∈ e.1, Path.IsProper name
  parent : ∀ e ∈ w.entries, w.entryAt? e.1.dropLast = some .directory

theorem mem_entries_of_entryAt? (h : w.entryAt? place = some entry) (hplace : place ≠ []) :
    (place, entry) ∈ w.entries := by
  rw [entryAt?, if_neg (by simpa using hplace), Option.map_eq_some_iff] at h
  obtain ⟨e, he, rfl⟩ := h
  have hfst : e.1 = place := by simpa using List.find?_some he
  exact hfst ▸ List.mem_of_find?_eq_some he

namespace IsTree

theorem entryAt?_dropLast (hw : w.IsTree) (h : (w.entryAt? place).isSome) :
    w.entryAt? place.dropLast = some .directory := by
  by_cases hplace : place = []
  · rw [hplace]
    rfl
  · obtain ⟨entry, hentry⟩ := Option.isSome_iff_exists.1 h
    exact hw.parent _ (mem_entries_of_entryAt? hentry hplace)

theorem isProper_of_entryAt? (hw : w.IsTree) (h : (w.entryAt? place).isSome)
    (hname : name ∈ place) : Path.IsProper name := by
  obtain ⟨entry, hentry⟩ := Option.isSome_iff_exists.1 h
  exact hw.isProper _ (mem_entries_of_entryAt? hentry (List.ne_nil_of_mem hname)) name hname

/-- Names that lead down to something in a tree lead there on a way that is there. -/
theorem walk_of_entryAt? (hw : w.IsTree) (h : (w.entryAt? names).isSome)
    (hshort : ∀ name ∈ names, ¬isLongName name) : w.walk [] names = .ok names := by
  induction names using List.reverseRecOn with
  | nil => rfl
  | append_singleton names name ih =>
    have hdirectory := hw.entryAt?_dropLast h
    rw [List.dropLast_concat] at hdirectory
    have hhere := ih (hdirectory ▸ rfl) fun other hother =>
      hshort other (List.mem_append_left _ hother)
    have hname : name ∈ names ++ [name] := List.mem_append_right _ List.mem_cons_self
    exact walk_concat_eq_ok_iff.2 ⟨_, hhere, walk_singleton_eq_ok_iff.2 ⟨hdirectory,
      .inr ⟨(hw.isProper_of_entryAt? h hname).ne_parentName, hshort name hname, h, rfl⟩⟩⟩

/-- A path without `..` leads to what is at its place. -/
theorem find_eq_ok_iff (hw : w.IsTree) (hp : parentName ∉ p.components) :
    w.find p = .ok entry ↔ Fits p ∧ w.entryAt? p.place = some entry := by
  constructor
  · intro h
    exact ⟨fits_of_find hp h, (World.find_eq_ok_iff.1 h).2.2⟩
  · rintro ⟨⟨hlong, hshort⟩, hentry⟩
    have hne : ∀ name ∈ p.components, name ≠ parentName := fun name hname heq => hp (heq ▸ hname)
    refine World.find_eq_ok_iff.2 ⟨hlong, ?_, hentry⟩
    rw [p.place_eq.trans (Path.collapse_eq_self true hne)] at hentry ⊢
    exact hw.walk_of_entryAt? (hentry ▸ rfl) fun name hname => hshort name hname (hne name hname)

end IsTree

end World

end Transclude
