import Mathlib.Data.List.Basic
import Mathlib.Data.List.Induction
import Transclude.Proofs.Path

/-!
# The same place below two directories

A path below one directory is to get the same place below another. Both paths are written with
the same names after those of their directory, and the names can hold `..`. Collapsed, they are
a number of `..` and then names that lead down. Where there is no `..` left, both paths lie
where the names lead from their directory. Where there is, the names *climb*: they lead out of
the directory and can come back only by its own last name, so that the two directories must
have that name in common for both paths to lie below them.

* `Path.Climbs`: names that lead out of the directory in which they start;
* `Path.Mirrored`: two paths that lie at the same place below two directories;
* `Path.mirrored_of_not_climbs`, `Path.name_eq_of_mirrored`: when they do.
-/

namespace Transclude

namespace Path

variable {rooted : Bool} {names way : List Text} {name last : Text}
  {input output document result : Path}

/-- The path to which names lead from a path. -/
def below (p : Path) (names : List Text) : Path :=
  { p with components := p.components ++ names }

@[simp] theorem below_nil (p : Path) : p.below [] = p :=
  congrArg (Path.mk p.root) (List.append_nil _)

@[simp] theorem below_below (p : Path) (names more : List Text) :
    (p.below names).below more = p.below (names ++ more) :=
  congrArg (Path.mk p.root) (List.append_assoc _ _ _)

@[simp] theorem components_below (p : Path) (names : List Text) :
    (p.below names).components = p.components ++ names := rfl

theorem append_relative (p : Path) (names : List Text) :
    p.append ⟨.relative, names⟩ = p.below names := rfl

theorem below_injective (p : Path) {names more : List Text} (h : p.below names = p.below more) :
    names = more :=
  List.append_cancel_left (Path.mk.inj h).2

/-- Whether names lead, on their way, out of the directory in which they start. -/
def Climbs (names : List Text) : Prop :=
  (collapse false names).head? = some parentName

instance (names : List Text) : Decidable (Climbs names) :=
  inferInstanceAs (Decidable (_ = _))

/-- Whether two paths lie at the same place, strictly below two directories, once all four are
    normalised. -/
def Mirrored (input output document result : Path) : Prop :=
  ∃ names, names ≠ [] ∧ parentName ∉ names ∧
    document.normalize = input.normalize.below names ∧
    result.normalize = output.normalize.below names

/-! ## Collapsing in parts -/

theorem collapse_snoc (rooted : Bool) (names : List Text) (name : Text) :
    collapse rooted (names ++ [name]) =
      (collapseStep rooted (collapse rooted names).reverse name).reverse := by
  rw [collapse, List.foldl_concat, collapse, List.reverse_reverse]

theorem collapse_snoc_of_ne (rooted : Bool) (names : List Text) (h : name ≠ parentName) :
    collapse rooted (names ++ [name]) = collapse rooted names ++ [name] :=
  collapse_append rooted names fun _ hother => List.mem_singleton.1 hother ▸ h

/-- `..` takes back a name that leads down, and nothing else. -/
theorem collapse_snoc_parentName (h : collapse rooted names = way ++ [last]) :
    collapse rooted (names ++ [parentName]) =
      if last = parentName then way ++ [last] ++ [parentName] else way := by
  rw [collapse_snoc, h, List.reverse_concat]
  unfold collapseStep
  rw [if_neg (not_not.2 rfl)]
  dsimp only
  split <;> simp

theorem collapse_snoc_parentName_of_nil (h : collapse rooted names = []) :
    collapse rooted (names ++ [parentName]) = if rooted then [] else [parentName] := by
  rw [collapse_snoc, h]
  cases rooted <;> rfl

/-- What is added to a path can be collapsed by itself first. -/
theorem collapse_append_collapse (rooted : Bool) (names rest : List Text) :
    collapse rooted (names ++ collapse false rest) = collapse rooted (names ++ rest) := by
  induction rest using List.reverseRecOn with
  | nil => rfl
  | append_singleton rest name ih =>
    have hrest : collapse rooted (names ++ (rest ++ [name])) =
        collapse rooted (names ++ collapse false rest ++ [name]) := by
      rw [← List.append_assoc, collapse_snoc, ← ih, ← collapse_snoc]
    rw [hrest]
    by_cases hname : name = parentName
    · subst hname
      rcases List.eq_nil_or_concat' (collapse false rest) with hnil | ⟨way, last, hway⟩
      · rw [collapse_snoc_parentName_of_nil hnil, hnil, List.append_nil]
        rfl
      · rw [collapse_snoc_parentName hway, hway]
        split
        · rw [List.append_assoc, List.append_assoc, List.append_assoc]
        · rename_i hlast
          have hback := collapse_snoc_of_ne rooted (names ++ way) hlast
          rw [← List.append_assoc, collapse_snoc_parentName hback, if_neg hlast]
    · rw [collapse_snoc_of_ne false rest hname, List.append_assoc]

/-- Names lead a number of directories up and then down. -/
theorem exists_collapse_eq (names : List Text) : ∃ ups way,
    collapse false names = List.replicate ups parentName ++ way ∧ parentName ∉ way := by
  induction names using List.reverseRecOn with
  | nil => exact ⟨0, [], rfl, List.not_mem_nil⟩
  | append_singleton names name ih =>
    obtain ⟨ups, way, hcollapse, hway⟩ := ih
    by_cases hname : name = parentName
    · subst hname
      rcases List.eq_nil_or_concat' way with rfl | ⟨way, last, rfl⟩
      · refine ⟨ups + 1, [], ?_, List.not_mem_nil⟩
        cases ups with
        | zero => exact collapse_snoc_parentName_of_nil hcollapse
        | succ ups =>
          rw [List.append_nil, List.replicate_succ'] at hcollapse
          rw [collapse_snoc_parentName hcollapse, if_pos rfl, List.append_nil,
            List.replicate_succ', List.replicate_succ']
      · have hlast : last ≠ parentName := fun h => hway (by simp [h])
        rw [← List.append_assoc] at hcollapse
        refine ⟨ups, way, ?_, fun h => hway (List.mem_append_left _ h)⟩
        rw [collapse_snoc_parentName hcollapse, if_neg hlast]
    · refine ⟨ups, way ++ [name], ?_, ?_⟩
      · rw [collapse_snoc_of_ne false names hname, hcollapse, List.append_assoc]
      · simp only [List.mem_append, List.mem_singleton, not_or]
        exact ⟨hway, fun h => hname h.symm⟩

/-- Names that do not climb lead down only. -/
theorem collapse_of_not_climbs (h : ¬Climbs names) : parentName ∉ collapse false names := by
  obtain ⟨ups, way, hcollapse, hway⟩ := exists_collapse_eq names
  cases ups with
  | zero => exact fun hmem => hway (by simpa [hcollapse] using hmem)
  | succ ups => exact absurd (by rw [Climbs, hcollapse]; rfl) h

theorem not_climbs_of_not_mem (h : parentName ∉ names) : ¬Climbs names := by
  have hcollapse : collapse false names = names :=
    collapse_eq_self false fun name hname heq => h (heq ▸ hname)
  intro hclimbs
  rw [Climbs, hcollapse] at hclimbs
  exact h (List.mem_of_mem_head? hclimbs)

/-! ## Below a directory -/

theorem normalize_below (p : Path) (names : List Text) : (p.below names).normalize =
      ⟨p.root, collapse p.isAbsolute (p.components ++ collapse false names)⟩ := by
  rw [collapse_append_collapse]
  rfl

/-- Names that lead down are not touched. -/
theorem normalize_below_of_not_mem (p : Path) (h : parentName ∉ names) :
    (p.below names).normalize = p.normalize.below names :=
  congrArg (Path.mk p.root) (collapse_append _ _ fun _ hname heq => h (heq ▸ hname))

/-- Names that lead down from one directory lead to the same place below another. -/
theorem mirrored_of_not_climbs (input output : Path) (h : ¬Climbs names)
    (hlast : names.getLast? = some last) (hne : last ≠ parentName) :
    Mirrored input output (input.below names) (output.below names) := by
  have hdown := collapse_of_not_climbs h
  have hbelow (p : Path) : (p.below names).normalize =
      p.normalize.below (collapse false names) := by
    rw [← normalize_below_of_not_mem p hdown, normalize_below]
    rfl
  refine ⟨collapse false names, ?_, hdown, hbelow input, hbelow output⟩
  obtain ⟨init, rfl⟩ := List.getLast?_eq_some_iff.1 hlast
  rw [collapse_snoc_of_ne false init hne]
  simp

/-- What `..` takes back stands at the end of a collapsed path, unless there is not enough to
    take back. Then more of them are left than before. -/
theorem collapse_append_replicate (rooted : Bool) (names : List Text) (ups : Nat) :
    (∃ back, collapse rooted names =
        collapse rooted (names ++ List.replicate ups parentName) ++ back ∧
        parentName ∉ back ∧ (back = [] → ups = 0 ∨ collapse rooted names = [])) ∨
      (collapse rooted names).count parentName <
        (collapse rooted (names ++ List.replicate ups parentName)).count parentName := by
  induction ups with
  | zero => exact .inl ⟨[], by simp, List.not_mem_nil, fun _ => .inl rfl⟩
  | succ ups ih =>
    rw [List.replicate_succ', ← List.append_assoc]
    generalize hmore : names ++ List.replicate ups parentName = more at ih
    rcases List.eq_nil_or_concat' (collapse rooted more) with hnil | ⟨way, last, hway⟩
    · -- Everything was taken back already.
      rw [hnil] at ih
      rw [collapse_snoc_parentName_of_nil hnil]
      rcases ih with ⟨back, hback, hdown, hempty⟩ | hcount
      · cases rooted with
        | true =>
          refine .inl ⟨back, hback, hdown, fun h => .inr ?_⟩
          rw [hback, h]
          rfl
        | false =>
          right
          rw [hback, List.nil_append, List.count_eq_zero.2 hdown]
          decide
      · simp at hcount
    · rw [hway] at ih
      rw [collapse_snoc_parentName hway]
      by_cases hlast : last = parentName
      · -- There is nothing to take back but a `..`, so one more is left.
        right
        rw [if_pos hlast, List.count_append, List.count_singleton_self]
        rcases ih with ⟨back, hback, hdown, -⟩ | hcount
        · rw [hback, List.count_append, List.count_eq_zero.2 hdown]
          omega
        · omega
      · rw [if_neg hlast]
        rcases ih with ⟨back, hback, hdown, -⟩ | hcount
        · refine .inl ⟨last :: back, by simp [hback], ?_, nofun⟩
          simp only [List.mem_cons, not_or]
          exact ⟨fun h => hlast h.symm, hdown⟩
        · right
          have hnone : [last].count parentName = 0 :=
            List.count_eq_zero.2 fun h => hlast (List.mem_singleton.1 h).symm
          rwa [List.count_append, hnone] at hcount

/-- Names that climb out of a directory and lead to something below it come back by its own last
    names. -/
theorem exists_back {ups : Nat} (hups : ups ≠ 0) (hway : parentName ∉ way)
    (hcollapse : collapse false names = List.replicate ups parentName ++ way) {more : List Text}
    (hmore : parentName ∉ more) {p : Path} (heq : (p.below names).normalize =
      p.normalize.below more) :
    ∃ before back, p.normalize.components = before ++ back ∧ way = back ++ more ∧
      (back = [] → p.normalize.components = []) := by
  rw [normalize_below, hcollapse, ← List.append_assoc,
    collapse_append _ _ fun name hname heq => hway (heq ▸ hname)] at heq
  replace heq : collapse p.isAbsolute (p.components ++ List.replicate ups parentName) ++ way =
      collapse p.isAbsolute p.components ++ more := (Path.mk.inj heq).2
  rcases collapse_append_replicate p.isAbsolute p.components ups with
    ⟨back, hback, -, hempty⟩ | hcount
  · refine ⟨_, back, hback, ?_, fun hnil => (hempty hnil).resolve_left hups⟩
    rwa [hback, List.append_assoc, List.append_cancel_left_eq] at heq
  · -- The `..` that are left over could not be below the directory.
    have hleft := congrArg (List.count parentName) heq
    rw [List.count_append, List.count_append, List.count_eq_zero.2 hway,
      List.count_eq_zero.2 hmore] at hleft
    omega

/-- Names that climb lead to the same place below two directories only if the directories end
    in the same name. -/
theorem name_eq_of_mirrored (h : Climbs names)
    (hmirrored : Mirrored input output (input.below names) (output.below names)) :
    input.normalize.name = output.normalize.name := by
  obtain ⟨below, -, hbelow, hinput, houtput⟩ := hmirrored
  obtain ⟨ups, way, hcollapse, hway⟩ := exists_collapse_eq names
  have hups : ups ≠ 0 := by
    rintro rfl
    rw [Climbs, hcollapse] at h
    exact hway (by simpa using List.mem_of_mem_head? h)
  obtain ⟨before, back, hin, hback, hnil⟩ := exists_back hups hway hcollapse hbelow hinput
  obtain ⟨before', back', hout, hback', hnil'⟩ := exists_back hups hway hcollapse hbelow houtput
  -- Both directories end in the names by which the way comes back.
  obtain rfl : back = back' := List.append_cancel_right (hback.symm.trans hback')
  rcases List.eq_nil_or_concat' back with rfl | ⟨back, last, rfl⟩
  · rw [name, name, hnil rfl, hnil' rfl]
  · rw [name, name, hin, hout]
    simp

end Path

end Transclude
