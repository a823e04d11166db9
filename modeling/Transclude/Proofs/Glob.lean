import Transclude.Glob
import Transclude.Proofs.Lists
import Transclude.Proofs.Mirror
import Transclude.Proofs.World

/-!
# What a glob selects

A glob selects paths below a directory: every name that it adds to the path of the directory is
a name in the tree, and so leads down, or a name that the glob itself asks for. No path is
selected twice, since patterns select by the names that are there and what `**` finds on two
ways is counted once. A glob has no result only if a path that it has to look at is too long.

* `Glob.exists_below_of_mem`: what is selected lies below the directory;
* `Glob.nodup_selectFrom`: nothing is selected twice;
* `Glob.exists_of_selectFrom_eq_error`: when there is no result.
-/

namespace Transclude

open Transclude.Path (IsProper parentName)

/-! ## Names in a tree -/

namespace World

variable {w : World} {place : List Text} {name : Text} {entry : Entry} {p : Path}
  {refusal : Refusal}

theorem mem_children_iff :
    (name, entry) ∈ w.children place ↔ (place ++ [name], entry) ∈ w.entries := by
  rw [children, List.mem_filterMap]
  constructor
  · rintro ⟨e, he, hchild⟩
    split at hchild
    · rename_i last hlast
      split at hchild
      · rename_i hplace
        obtain ⟨rfl, rfl⟩ := Prod.mk.inj (Option.some.inj hchild)
        obtain ⟨init, hinit⟩ := List.getLast?_eq_some_iff.1 hlast
        rw [hinit, List.dropLast_concat] at hplace
        rw [← hplace, ← hinit]
        exact he
      · cases hchild
    · cases hchild
  · intro h
    refine ⟨_, h, ?_⟩
    simp

/-- The names in a directory of a tree are all different. -/
theorem IsTree.nodup_children (hw : w.IsTree) (place : List Text) :
    (w.children place).Pairwise fun e e' => e.1 ≠ e'.1 := by
  rw [children, List.pairwise_filterMap]
  refine (List.pairwise_map.1 hw.nodup).imp ?_
  rintro e e' hne ⟨name, entry⟩ h ⟨name', entry'⟩ h' rfl
  -- What an entry of the tree adds to the directory is the same in the world of this entry alone.
  have hplace {e : List Text × Entry} {entry : Entry}
      (h : (name, entry) ∈ World.children ⟨[e]⟩ place) : e.1 = place ++ [name] :=
    congrArg Prod.fst (List.mem_singleton.1 (mem_children_iff.1 h)).symm
  have hchild := hplace (List.mem_filterMap.2 ⟨e, List.mem_singleton_self e, h⟩)
  have hchild' := hplace (List.mem_filterMap.2 ⟨e', List.mem_singleton_self e', h'⟩)
  exact hne (hchild.trans hchild'.symm)

/-- Only a path that is too long cannot be asked for. -/
theorem eq_of_find?_eq_error (h : w.find? p = .error refusal) : refusal = ⟨.nameTooLong, p⟩ := by
  rw [find?] at h
  split at h
  · cases h
  · exact (Except.error.inj h).symm
  · cases h

end World

namespace Glob

variable {w : World} {p q : Path} {steps : List GlobStep} {slash : Bool} {found : List Path}
  {names : List Text} {refusal : Refusal}

theorem isProper_of_mem_namesIn (hw : w.IsTree) {e : Text × Entry} (h : e ∈ namesIn w p) :
    IsProper e.1 := by
  rw [namesIn] at h
  split at h
  · exact absurd h List.not_mem_nil
  · exact hw.isProper _ (World.mem_children_iff.1 h) _ (by simp)

/-- Directories below a path lie below it by names in the tree. -/
theorem exists_below_of_mem_directoriesBelow (hw : w.IsTree) (h : q ∈ directoriesBelow w p) :
    ∃ names, q = p.below names ∧ ∀ name ∈ names, IsProper name := by
  rw [directoriesBelow] at h
  split at h
  · rw [List.mem_singleton.1 h]
    exact ⟨[], (p.below_nil).symm, nofun⟩
  · rename_i place _
    rcases List.mem_cons.1 h with rfl | h
    · exact ⟨[], (Path.below_nil _).symm, nofun⟩
    · obtain ⟨e, he, hq⟩ := List.mem_filterMap.1 h
      split at hq
      · rw [← Option.some.inj hq]
        exact ⟨e.1.drop place.length, rfl, fun name hname =>
          hw.isProper e he name (List.mem_of_mem_drop hname)⟩
      · cases hq

/-- A name of a glob selects nothing, or it is added to the path. -/
theorem selectFrom_name (w : World) (slash : Bool) (n : Text) (steps : List GlobStep) (p : Path) :
    (∃ refusal, w.find? (child p n) = .error refusal ∧
        selectFrom w slash (.name n :: steps) p = .error refusal) ∨
      selectFrom w slash (.name n :: steps) p = .ok [] ∨
      selectFrom w slash (.name n :: steps) p = selectFrom w slash steps (child p n) := by
  rw [selectFrom, World.isDirectory]
  cases hfind : w.find? (child p n) with
  | error refusal =>
    refine .inl ⟨refusal, rfl, ?_⟩
    split <;> rfl
  | ok found =>
    right
    split
    · cases found with
      | none => exact .inl rfl
      | some entry => exact .inr rfl
    · cases found with
      | none => exact .inl rfl
      | some entry =>
        cases entry with
        | directory => exact .inr rfl
        | file bytes => exact .inl rfl

/-- What a glob selects lies below the path by names in the tree and names of the glob. -/
theorem exists_below_of_mem (hw : w.IsTree) (h : selectFrom w slash steps p = .ok found)
    (hq : q ∈ found) :
    ∃ names, q = p.below names ∧ ∀ name ∈ names, IsProper name ∨ .name name ∈ steps := by
  induction steps generalizing p found with
  | nil =>
    rw [selectFrom] at h
    rw [← Except.ok.inj h] at hq
    exact ⟨[], by simpa using hq, nofun⟩
  | cons step steps ih =>
    -- One name after another is added; those that come later are below the first.
    have hlater {name : Text} (h : IsProper name ∨ .name name ∈ steps) :
        IsProper name ∨ .name name ∈ step :: steps := h.imp_right (List.mem_cons_of_mem _)
    cases step with
    | name n =>
      rcases selectFrom_name w slash n steps p with ⟨_, -, hstep⟩ | hstep | hstep
      · exact nomatch h.symm.trans hstep
      · rw [← Except.ok.inj (hstep.symm.trans h)] at hq
        exact absurd hq List.not_mem_nil
      · obtain ⟨names, rfl, hnames⟩ := ih (hstep.symm.trans h) hq
        refine ⟨n :: names, Path.below_below p [n] names, ?_⟩
        intro name hname
        rcases List.mem_cons.1 hname with rfl | hname
        · exact .inr List.mem_cons_self
        · exact hlater (hnames name hname)
    | pattern pat =>
      rw [selectFrom] at h
      obtain ⟨parts, hparts, h⟩ := bind_eq_ok h
      rw [← Except.ok.inj h] at hq
      obtain ⟨part, hpart, hq⟩ := List.mem_flatten.1 hq
      obtain ⟨e, he, hpart⟩ := exists_of_forall₂ (mapM_eq_ok_iff.1 hparts) hpart
      obtain ⟨names, rfl, hnames⟩ := ih hpart hq
      refine ⟨e.1 :: names, Path.below_below p [e.1] names, ?_⟩
      intro name hname
      rcases List.mem_cons.1 hname with rfl | hname
      · exact .inl (isProper_of_mem_namesIn hw (List.mem_filter.1 he).1)
      · exact hlater (hnames name hname)
    | anyDepth =>
      rw [selectFrom] at h
      obtain ⟨parts, hparts, h⟩ := bind_eq_ok h
      rw [← Except.ok.inj h, List.mem_eraseDups] at hq
      obtain ⟨part, hpart, hq⟩ := List.mem_flatten.1 hq
      obtain ⟨directory, hdirectory, hpart⟩ := exists_of_forall₂ (mapM_eq_ok_iff.1 hparts) hpart
      obtain ⟨above, rfl, habove⟩ := exists_below_of_mem_directoriesBelow hw hdirectory
      obtain ⟨names, rfl, hnames⟩ := ih hpart hq
      refine ⟨above ++ names, Path.below_below p above names, ?_⟩
      intro name hname
      rcases List.mem_append.1 hname with hname | hname
      · exact .inl (habove name hname)
      · exact hlater (hnames name hname)

/-! ## No path twice -/

theorem nodup_eraseDups (paths : List Path) : paths.eraseDups.Nodup := by
  cases paths with
  | nil => simp
  | cons p paths =>
    rw [List.eraseDups_cons, List.nodup_cons, List.mem_eraseDups]
    exact ⟨by simp, nodup_eraseDups (paths.filter fun q => !q == p)⟩
termination_by paths.length
decreasing_by exact Nat.lt_succ_of_le (List.length_filter_le _ _)

/-- No path is selected twice. -/
theorem nodup_selectFrom (hw : w.IsTree) (h : selectFrom w slash steps p = .ok found) :
    found.Nodup := by
  induction steps generalizing p found with
  | nil =>
    rw [selectFrom] at h
    rw [← Except.ok.inj h]
    exact List.nodup_singleton p
  | cons step steps ih =>
    cases step with
    | name n =>
      rcases selectFrom_name w slash n steps p with ⟨_, -, hstep⟩ | hstep | hstep
      · exact nomatch h.symm.trans hstep
      · rw [← Except.ok.inj (hstep.symm.trans h)]
        exact List.nodup_nil
      · exact ih (hstep.symm.trans h)
    | pattern pat =>
      rw [selectFrom] at h
      obtain ⟨parts, hparts, h⟩ := bind_eq_ok h
      rw [← Except.ok.inj h]
      refine nodup_flatten_of_mapM hparts (fun e _ part hpart => ih hpart) ?_
      -- Paths that go on with different names are different.
      have hnames : (namesIn w p).Pairwise fun e e' => e.1 ≠ e'.1 := by
        rw [namesIn]
        split
        · exact .nil
        · exact hw.nodup_children _
      refine (hnames.filter _).imp ?_
      intro e e' hne part other hpart hother q hq hq'
      obtain ⟨names, rfl, -⟩ := exists_below_of_mem hw hpart hq
      obtain ⟨names', heq, -⟩ := exists_below_of_mem hw hother hq'
      have hbelow : p.below (e.1 :: names) = p.below (e'.1 :: names') :=
        (Path.below_below p [e.1] names).symm.trans
          (heq.trans (Path.below_below p [e'.1] names'))
      exact hne (List.cons.inj (p.below_injective hbelow)).1
    | anyDepth =>
      rw [selectFrom] at h
      obtain ⟨parts, -, h⟩ := bind_eq_ok h
      rw [← Except.ok.inj h]
      exact nodup_eraseDups _

/-! ## No result -/

theorem exists_of_selectFrom_eq_error (h : selectFrom w slash steps p = .error refusal) :
    ∃ path, w.find? path = .error refusal := by
  induction steps generalizing p with
  | nil => cases h
  | cons step steps ih =>
    cases step with
    | name n =>
      rcases selectFrom_name w slash n steps p with ⟨_, hfind, hstep⟩ | hstep | hstep
      · obtain rfl := Except.error.inj (hstep.symm.trans h)
        exact ⟨_, hfind⟩
      · exact nomatch h.symm.trans hstep
      · exact ih (hstep.symm.trans h)
    | pattern pat =>
      rw [selectFrom] at h
      rcases bind_eq_error h with hparts | ⟨parts, -, h⟩
      · obtain ⟨e, -, hfault⟩ := exists_of_mapM_eq_error hparts
        exact ih hfault
      · cases h
    | anyDepth =>
      rw [selectFrom] at h
      rcases bind_eq_error h with hparts | ⟨parts, -, h⟩
      · obtain ⟨directory, -, hfault⟩ := exists_of_mapM_eq_error hparts
        exact ih hfault
      · cases h

end Glob

end Transclude
