import Transclude.Proofs.World

/-!
# Writing

A directory can be made at a path exactly if no name is too long and no file is in the way,
and then directories are added to the world at places that the path passes, and nothing else
changes. So whether one can be made stays the same as long as no file comes in the way.

* `World.Adds`: a world to which directories are added;
* `World.exists_ensureDirectory_iff`, `World.ensureDirectory_eq_ok`: making directories;
* `World.writeFile_eq_ok_iff`: putting a file into a directory.
-/

namespace Transclude

namespace Text

/-- The text of some of the first pieces comes first. -/
theorem join_dropLast_prefix (sep : Char) (pieces : List Text) :
    join sep pieces.dropLast <+: join sep pieces := by
  induction pieces with
  | nil => exact List.prefix_rfl
  | cons piece pieces ih =>
    cases pieces with
    | nil => exact List.nil_prefix
    | cons next pieces =>
      cases pieces with
      | nil => exact List.prefix_append piece _
      | cons last pieces =>
        exact (List.prefix_append_right_inj piece).2 ((List.cons_prefix_cons).2 ⟨rfl, ih⟩)

end Text

namespace Utf8

theorem length_encode_le {s t : Text} (h : s <+: t) : (encode s).length ≤ (encode t).length := by
  obtain ⟨rest, rfl⟩ := h
  rw [encode, encode, List.flatMap_append, List.length_append]
  exact Nat.le_add_right _ _

end Utf8

namespace Path

variable {p : Path} {here : List Text} {name : Text}

theorem toText_of_ne (h : ¬(p.root = .relative ∧ p.components = [])) :
    p.toText = rootText p.root ++ Text.join '/' p.components := by
  rw [toText, if_neg (by simpa using h)]

theorem components_eq_of_getLast? (h : p.components.getLast? = some name) :
    p.components = p.parent.components ++ [name] := by
  obtain ⟨names, hnames⟩ := List.getLast?_eq_some_iff.1 h
  rw [parent, hnames, List.dropLast_concat]

/-- A name that leads down leads from the place of the directory. -/
theorem place_eq_concat (h : p.components.getLast? = some name) (hname : name ≠ parentName) :
    p.place = p.parent.place ++ [name] := by
  rw [place_eq, components_eq_of_getLast? h, collapse_concat, if_neg hname, place_eq]

theorem mem_way_of_mem_parent (h : here ∈ p.parent.way) : here ∈ p.way := by
  obtain ⟨names, hnames, rfl⟩ := mem_way.1 h
  exact mem_way.2 ⟨names, hnames.trans (List.dropLast_prefix _), rfl⟩

/-- A path passes what its parent passes, and then its own place. -/
theorem mem_way_iff : here ∈ p.way ↔ here ∈ p.parent.way ∨ here = p.place := by
  refine ⟨fun h => ?_, fun h => h.elim mem_way_of_mem_parent fun h => h ▸ p.place_mem_way⟩
  obtain ⟨names, hnames, rfl⟩ := mem_way.1 h
  rcases List.eq_nil_or_concat' p.components with hnil | ⟨init, last, hinit⟩
  · rw [hnil, List.prefix_nil] at hnames
    exact .inl (hnames ▸ p.parent.nil_mem_way)
  · rw [hinit, List.prefix_concat_iff] at hnames
    rcases hnames with rfl | hnames
    · exact .inr (by rw [place_eq, hinit])
    · exact .inl (mem_way.2 ⟨names, by rwa [parent, hinit, List.dropLast_concat], rfl⟩)

end Path

namespace World

open Transclude.Path (collapse parentName)

variable {w w' w'' : World} {p : Path} {place : List Text} {places : List (List Text)} {name : Text}
  {bytes : List UInt8} {fault : FileFault}

/-! ## Short paths -/

theorem not_isLongPath_parent (h : ¬isLongPath p) : ¬isLongPath p.parent := by
  rw [isLongPath, decide_eq_true_eq, Nat.not_le] at h ⊢
  by_cases hnil : p.parent.root = .relative ∧ p.parent.components = []
  · rw [Path.toText, if_pos (by simpa using hnil)]
    decide
  · refine Nat.lt_of_le_of_lt (Utf8.length_encode_le ?_) h
    have hnil' : ¬(p.root = .relative ∧ p.components = []) := fun h =>
      hnil ⟨h.1, by rw [Path.parent, h.2]; rfl⟩
    rw [Path.toText_of_ne hnil, Path.toText_of_ne hnil']
    exact (List.prefix_append_right_inj _).2 (Text.join_dropLast_prefix '/' p.components)

theorem Fits.parent (h : Fits p) : Fits p.parent :=
  ⟨not_isLongPath_parent h.path, fun name hname => h.name name (List.dropLast_subset _ hname)⟩

/-! ## Added directories -/

/-- Directories are added at some of the places, and nothing else changes. -/
def Adds (places : List (List Text)) (w w' : World) : Prop :=
  ∀ place, w'.entryAt? place = w.entryAt? place ∨
    (place ∈ places ∧ w.entryAt? place = none ∧ w'.entryAt? place = some .directory)

theorem Adds.refl (places : List (List Text)) (w : World) : Adds places w w :=
  fun _ => .inl rfl

theorem Adds.trans (h : Adds places w w') (h' : Adds places w' w'') : Adds places w w'' := by
  intro place
  rcases h place with heq | ⟨hplace, hnone, hadded⟩
  · rw [← heq]
    exact h' place
  · rcases h' place with heq' | ⟨-, hnone', -⟩
    · exact .inr ⟨hplace, hnone, heq'.trans hadded⟩
    · exact nomatch hnone'.symm.trans hadded

theorem Adds.mono {more : List (List Text)} (h : Adds places w w')
    (hmore : ∀ place ∈ places, place ∈ more) : Adds more w w' :=
  fun place => (h place).imp_right fun ⟨hplace, hentry⟩ => ⟨hmore place hplace, hentry⟩

theorem Adds.put (hplace : place ∈ places) (h : w.entryAt? place = none) :
    Adds places w (w.put place .directory) := by
  have hnil : place ≠ [] := by
    rintro rfl
    cases h
  intro other
  by_cases heq : other = place
  · rw [heq]
    exact .inr ⟨hplace, h, entryAt?_put_self w _ hnil⟩
  · exact .inl (entryAt?_put_of_ne w _ heq)

theorem Adds.grows (h : Adds places w w') : Grows w w' := by
  constructor
  · intro place hplace
    rcases h place with heq | ⟨-, hnone, -⟩
    · exact heq.trans hplace
    · exact nomatch hnone.symm.trans hplace
  · intro place hplace
    rcases h place with heq | ⟨-, -, hadded⟩
    · rwa [heq]
    · rw [hadded]
      rfl

/-- Where there is a file, there was one. -/
theorem Adds.file (h : Adds places w w') (hfile : w'.entryAt? place = some (.file bytes)) :
    w.entryAt? place = some (.file bytes) := by
  rcases h place with heq | ⟨-, -, hadded⟩
  · exact heq.symm.trans hfile
  · exact nomatch hadded.symm.trans hfile

/-! ## Making a directory -/

/-- Where something new can be put. -/
theorem slot_eq_some_iff : w.slot p = .ok (some (place, name)) ↔
    p.components.getLast? = some name ∧ name ≠ parentName ∧ ¬isLongPath p ∧ ¬isLongName name ∧
      w.find p.parent = .ok .directory ∧ place = p.parent.place := by
  constructor
  · intro h
    rw [slot] at h
    split at h
    · cases h
    · rename_i last hlast
      split at h
      · cases h
      · rename_i hlong
        split at h
        · cases h
        · rename_i here hhere
          split at h
          · cases h
          · cases h
          · rename_i hdirectory
            split at h
            · cases h
            · rename_i hparent
              split at h
              · cases h
              · rename_i hname
                obtain ⟨rfl, rfl⟩ := Prod.mk.inj (Option.some.inj (Except.ok.inj h))
                obtain ⟨hlong', hwalk⟩ := locate_eq_ok_iff.1 hhere
                obtain rfl := (eq_collapse_of_walk hwalk).trans p.parent.place_eq.symm
                exact ⟨hlast, hparent, hlong, hname,
                  find_eq_ok_iff.2 ⟨hlong', hwalk, hdirectory⟩, rfl⟩
  · rintro ⟨hlast, hparent, hlong, hname, hfind, rfl⟩
    obtain ⟨hlong', hwalk, hdirectory⟩ := find_eq_ok_iff.1 hfind
    rw [slot, hlast]
    dsimp only
    rw [if_neg hlong, locate_eq_ok_iff.2 ⟨hlong', hwalk⟩]
    dsimp only
    rw [hdirectory]
    dsimp only
    rw [if_neg hparent, if_neg hname]

/-- A path leads to something new in a directory once it is there. -/
theorem find_put (entry : Entry) (h : w.slot p = .ok (some (place, name)))
    (hentry : w.entryAt? (place ++ [name]) ≠ some .directory) :
    p.place = place ++ [name] ∧ (w.put p.place entry).find p = .ok entry := by
  obtain ⟨hlast, hname, hlong, hshort, hfind, rfl⟩ := slot_eq_some_iff.1 h
  have hplace := Path.place_eq_concat hlast hname
  rw [← hplace] at hentry
  have hself : (w.put p.place entry).entryAt? p.place = some entry :=
    entryAt?_put_self w entry (by simp [hplace])
  obtain ⟨-, hwalk, hdirectory⟩ := find_eq_ok_iff.1 hfind
  have hgrows := Grows.put entry hentry
  refine ⟨hplace, find_eq_ok_iff.2 ⟨hlong, ?_, hself⟩⟩
  rw [Path.components_eq_of_getLast? hlast]
  exact walk_concat_eq_ok_iff.2 ⟨_, hgrows.walk hwalk, walk_singleton_eq_ok_iff.2
    ⟨hgrows.directory hdirectory, .inr ⟨hname, hshort, by rw [← hplace, hself]; rfl, hplace⟩⟩⟩

theorem makeDirectory_eq_ok (h : w.makeDirectory p = .ok w') :
    Adds p.way w w' ∧ w'.find p = .ok .directory := by
  rw [makeDirectory] at h
  split at h
  · cases h
  · cases h
  · rename_i place name hslot
    split at h
    · cases h
    · rename_i hnone
      rw [Option.not_isSome_iff_eq_none] at hnone
      obtain ⟨hplace, hfind⟩ := find_put .directory hslot (by rw [hnone]; nofun)
      rw [← hplace] at h hnone
      obtain rfl := Except.ok.inj h
      exact ⟨Adds.put p.place_mem_way hnone, hfind⟩

theorem makeIfMissing_eq_ok (h : w.makeIfMissing p = .ok w') :
    Adds p.way w w' ∧ w'.find p = .ok .directory := by
  rw [makeIfMissing] at h
  split at h
  · rename_i made hmade
    rw [← Except.ok.inj h]
    exact makeDirectory_eq_ok hmade
  · split at h
    · rename_i hfind
      rw [← Except.ok.inj h]
      refine ⟨Adds.refl _ w, ?_⟩
      cases hentry : w.find p with
      | error fault =>
        rw [hentry] at hfind
        cases hfind
      | ok entry =>
        rw [hentry] at hfind
        exact congrArg Except.ok (Option.some.inj hfind)
    · cases h

theorem ensureAtDepth_eq_ok {root : Root} {names : List Text} {depth : Nat}
    (h : w.ensureAtDepth root names depth = .ok w') :
    Adds (Path.way ⟨root, names⟩) w w' ∧ w'.find ⟨root, names⟩ = .ok .directory := by
  induction depth generalizing w w' names with
  | zero => exact makeIfMissing_eq_ok h
  | succ depth ih =>
    rw [ensureAtDepth] at h
    split at h
    · split at h
      · cases h
      · rename_i above habove
        obtain ⟨hadds, -⟩ := ih habove
        obtain ⟨hadds', hfind⟩ := makeIfMissing_eq_ok h
        have hway : ∀ place ∈ Path.way ⟨root, names.dropLast⟩, place ∈ Path.way ⟨root, names⟩ :=
          fun place hplace => Path.mem_way_of_mem_parent (p := ⟨root, names⟩) hplace
        exact ⟨(hadds.mono hway).trans hadds', hfind⟩
    · exact makeIfMissing_eq_ok h

/-- Making a directory adds directories at places that its path passes. -/
theorem ensureDirectory_eq_ok (h : w.ensureDirectory p = .ok w') :
    Adds p.way w w' ∧ w'.find p = .ok .directory :=
  ensureAtDepth_eq_ok h

/-! ## When a directory can be made -/

/-- No name is too long, and no file is in the way. -/
structure Admits (w : World) (p : Path) : Prop where
  fits : Fits p
  noFile : ∀ place ∈ p.way, ∀ bytes, w.entryAt? place ≠ some (.file bytes)

theorem Admits.parent (h : w.Admits p) : w.Admits p.parent :=
  ⟨h.fits.parent, fun place hplace => h.noFile place (Path.mem_way_of_mem_parent hplace)⟩

theorem Admits.of_adds (h : w.Admits p) (hadds : Adds places w w') : w'.Admits p :=
  ⟨h.fits, fun place hplace bytes hfile => h.noFile place hplace bytes (hadds.file hfile)⟩

/-- Where no file is in the way, the way can only end at a name that is not there. -/
theorem eq_notFound_of_walk {names : List Text} (hshort : ∀ name ∈ names, name ≠ parentName →
      ¬isLongName name)
    (hnoFile : ∀ before, before <+: names → ∀ bytes,
      w.entryAt? (collapse true before) ≠ some (.file bytes))
    (h : w.walk [] names = .error fault) : fault = .notFound := by
  induction names using List.reverseRecOn with
  | nil => cases h
  | append_singleton names name ih =>
    rw [walk_append] at h
    cases hhere : w.walk [] names with
    | error other =>
      rw [hhere] at h
      obtain rfl := Except.error.inj h
      exact ih (fun name hname => hshort name (List.mem_append_left _ hname))
        (fun before hbefore => hnoFile before (hbefore.trans (List.prefix_append _ _))) hhere
    | ok here =>
      rw [hhere] at h
      replace h : w.walk here [name] = .error fault := h
      rw [walk] at h
      split at h
      · exact (Except.error.inj h).symm
      · rename_i bytes hfile
        rw [eq_collapse_of_walk hhere] at hfile
        exact absurd hfile (hnoFile names (List.prefix_append _ _) bytes)
      · split at h
        · cases h
        · rename_i hname
          split at h
          · rename_i hlong
            exact absurd hlong (hshort name (List.mem_append_right _ List.mem_cons_self) hname)
          · split at h
            · exact (Except.error.inj h).symm
            · cases h

/-- Without the directory above it, a directory is only missing something. -/
theorem makeDirectory_of_missing (h : w.Admits p) (hparent : w.find p.parent ≠ .ok .directory) :
    w.makeDirectory p = .error .notFound := by
  have hslot : w.slot p = .error .notFound := by
    rw [slot]
    split
    · rename_i hnone
      refine absurd ?_ hparent
      have hnil : p.components = [] := List.getLast?_eq_none_iff.1 hnone
      rw [find_eq_directory_iff]
      refine ⟨h.parent.fits, fun place hplace => ?_⟩
      obtain ⟨names, hnames, rfl⟩ := Path.mem_way.1 hplace
      rw [Path.parent, hnil] at hnames
      rw [List.prefix_nil.1 hnames]
      rfl
    · rw [if_neg h.fits.path]
      split
      · rename_i fault hfault
        rw [locate, if_neg h.parent.fits.path] at hfault
        rw [eq_notFound_of_walk h.parent.fits.name (fun before hbefore =>
          h.parent.noFile _ (Path.mem_way.2 ⟨before, hbefore, rfl⟩)) hfault]
      · rename_i here hhere
        obtain ⟨hlong, hwalk⟩ := locate_eq_ok_iff.1 hhere
        obtain rfl := (eq_collapse_of_walk hwalk).trans p.parent.place_eq.symm
        split
        · rfl
        · rename_i bytes hfile
          exact absurd hfile (h.parent.noFile _ p.parent.place_mem_way bytes)
        · rename_i hdirectory
          exact absurd (find_eq_ok_iff.2 ⟨hlong, hwalk, hdirectory⟩) hparent
  rw [makeDirectory, hslot]

/-- In a directory that is there, a directory can be made unless a file is at its place. -/
theorem exists_makeIfMissing (h : w.Admits p) (hparent : w.find p.parent = .ok .directory) :
    ∃ w', w.makeIfMissing p = .ok w' := by
  have hway := (find_eq_directory_iff.1 hparent).2
  -- If there is a directory at its place, the path leads to it.
  have hthere (hplace : w.entryAt? p.place = some .directory) :
      (w.find p).toOption = some .directory := by
    have hfind : w.find p = .ok .directory := by
      refine find_eq_directory_iff.2 ⟨h.fits, fun place hmem => ?_⟩
      rcases Path.mem_way_iff.1 hmem with hmem | rfl
      · exact hway place hmem
      · exact hplace
    rw [hfind]
    rfl
  cases hmake : w.makeDirectory p with
  | ok made => exact ⟨made, by rw [makeIfMissing, hmake]⟩
  | error fault =>
    refine ⟨w, ?_⟩
    rw [makeIfMissing, hmake]
    refine if_pos (hthere ?_)
    rcases List.eq_nil_or_concat' p.components with hnil | ⟨names, last, hnames⟩
    · rw [Path.place_eq, hnil]
      rfl
    · have hlast : p.components.getLast? = some last := by rw [hnames, List.getLast?_concat]
      by_cases hname : last = parentName
      · -- What lies above a place that is passed is passed too.
        have hplace : p.place = p.parent.place.dropLast := by
          rw [Path.place_eq, Path.components_eq_of_getLast? hlast, Path.collapse_concat,
            if_pos hname, Path.place_eq]
        have hprefix := List.dropLast_prefix p.parent.place
        rw [← hplace, Path.place_eq p.parent] at hprefix
        exact hway _ (Path.mem_way.2 (Path.exists_prefix_of_prefix_collapse hprefix))
      · have hshort := h.fits.name last (hnames ▸ List.mem_append_right _ List.mem_cons_self) hname
        have hslot : w.slot p = .ok (some (p.parent.place, last)) :=
          slot_eq_some_iff.2 ⟨hlast, hname, h.fits.path, hshort, hparent, rfl⟩
        rw [makeDirectory, hslot] at hmake
        dsimp only at hmake
        rw [← Path.place_eq_concat hlast hname] at hmake
        split at hmake
        · rename_i hsome
          obtain ⟨entry, hentry⟩ := Option.isSome_iff_exists.1 hsome
          cases entry with
          | directory => exact hentry
          | file bytes => exact absurd hentry (h.noFile _ p.place_mem_way bytes)
        · cases hmake

/-- A directory can be made where no file is in the way. -/
theorem exists_ensureAtDepth {root : Root} {names : List Text} {depth : Nat}
    (hdepth : names.length ≤ depth) (h : w.Admits ⟨root, names⟩) :
    ∃ w', w.ensureAtDepth root names depth = .ok w' := by
  induction depth generalizing w names with
  | zero =>
    obtain rfl := List.eq_nil_of_length_eq_zero (Nat.le_zero.1 hdepth)
    refine exists_makeIfMissing h (find_eq_directory_iff.2 ⟨h.parent.fits, fun place hplace => ?_⟩)
    obtain ⟨names, hnames, rfl⟩ := Path.mem_way.1 hplace
    rw [List.prefix_nil.1 hnames]
    rfl
  | succ depth ih =>
    rw [ensureAtDepth]
    split
    · have habove : w.Admits ⟨root, names.dropLast⟩ := h.parent
      obtain ⟨above, habove'⟩ := ih (by rw [List.length_dropLast]; omega) habove
      obtain ⟨hadds, hfind⟩ := ensureAtDepth_eq_ok habove'
      rw [habove']
      exact exists_makeIfMissing (h.of_adds hadds) hfind
    · rename_i hmake
      refine exists_makeIfMissing h (by_contra fun hparent => ?_)
      exact hmake (makeDirectory_of_missing h hparent)

/-- A directory can be made exactly if no name is too long and no file is in the way. -/
theorem exists_ensureDirectory_iff : (∃ w', w.ensureDirectory p = .ok w') ↔ w.Admits p := by
  refine ⟨fun ⟨w', h⟩ => ?_, fun h => exists_ensureAtDepth (Nat.le_refl _) h⟩
  obtain ⟨hadds, hfind⟩ := ensureDirectory_eq_ok h
  obtain ⟨hfits, hway⟩ := find_eq_directory_iff.1 hfind
  refine ⟨hfits, fun place hplace bytes hfile => ?_⟩
  rcases hadds place with heq | ⟨-, hnone, -⟩
  · exact nomatch (hway place hplace).symm.trans (heq.trans hfile)
  · exact nomatch hnone.symm.trans hfile

/-! ## Putting a file into a directory -/

/-- A file can be put where no directory is. -/
theorem writeFile_eq_ok_iff : w.writeFile p bytes = .ok w' ↔
    (∃ name, w.slot p = .ok (some (p.parent.place, name))) ∧
      w.entryAt? p.place ≠ some .directory ∧ w' = w.put p.place (.file bytes) := by
  constructor
  · intro h
    rw [writeFile] at h
    split at h
    · cases h
    · cases h
    · rename_i place name hslot
      obtain ⟨hlast, hname, -, -, -, rfl⟩ := slot_eq_some_iff.1 hslot
      rw [← Path.place_eq_concat hlast hname] at h
      split at h
      · cases h
      · rename_i hentry
        exact ⟨⟨name, hslot⟩, hentry, (Except.ok.inj h).symm⟩
  · rintro ⟨⟨name, hslot⟩, hentry, rfl⟩
    obtain ⟨hlast, hname, -⟩ := slot_eq_some_iff.1 hslot
    rw [writeFile, hslot]
    dsimp only
    rw [← Path.place_eq_concat hlast hname]
    split
    · rename_i hdirectory
      exact absurd hdirectory hentry
    · rfl

end World

end Transclude
