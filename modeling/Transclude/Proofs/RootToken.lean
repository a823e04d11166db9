import Transclude.Proofs.Sandbox

/-!
# Paths below the root token

A directive's path that starts with the root token and a slash is meant to lead down from the root
directory. Taking out backslashes before spaces changes single names only: no slash comes or goes,
and no name becomes one that means nothing or leads up. So what such a path means is, name by name,
the root directory and then the rest of the path.

But backslashes are taken out of the whole text, also of that part of it which has come from the
root directory. If a name of the root directory itself holds a backslash before a space, the path
leads to another directory, and the check, for which the root directory is as it was given, finds
it outside.

* `Sandbox.unescapeSpaces_eq_self_iff`: the texts that stay as they are;
* `Sandbox.components_unescapeSpaces`: spaces are unescaped name by name;
* `Sandbox.resolve_below_root`: what paths below the root token mean.
-/

namespace Transclude

namespace Sandbox

variable {rootToken root t : Text} {c : Char}

/-- A backslash before a space. -/
def escapedSpace : Text := ['\\', ' ']

/-! ## Texts without their backslashes -/

theorem mem_of_mem_unescapeSpaces (h : c ∈ unescapeSpaces t) : c ∈ t := by
  induction t using unescapeSpaces.induct with
  | case1 => exact h
  | case2 t ih =>
    rw [unescapeSpaces] at h
    exact (List.mem_cons.1 h).elim (fun hc => hc ▸ List.mem_cons_of_mem _ List.mem_cons_self)
      fun hc => List.mem_cons_of_mem _ (List.mem_cons_of_mem _ (ih hc))
  | case3 d t hd ih =>
    rw [unescapeSpaces.eq_3 _ _ hd] at h
    exact (List.mem_cons.1 h).elim (fun hc => hc ▸ List.mem_cons_self)
      fun hc => List.mem_cons_of_mem _ (ih hc)

/-- Exactly the texts without an escaped space stay as they are. -/
theorem unescapeSpaces_eq_self_iff : unescapeSpaces t = t ↔ ¬escapedSpace <:+: t := by
  induction t using unescapeSpaces.induct with
  | case1 => exact iff_of_true rfl (by decide)
  | case2 t ih =>
    refine iff_of_false (fun h => ?_) fun h => h ⟨[], t, rfl⟩
    rw [unescapeSpaces] at h
    exact absurd (List.cons.inj h).1 (by decide)
  | case3 c t hc ih =>
    have hprefix : ¬escapedSpace <+: c :: t := by
      rintro ⟨rest, heq⟩
      obtain ⟨rfl, rfl⟩ := List.cons.inj heq
      exact hc rest rfl rfl
    rw [unescapeSpaces.eq_3 _ _ hc, List.infix_cons_iff, or_iff_right hprefix, ← ih]
    exact ⟨fun h => (List.cons.inj h).2, congrArg _⟩

/-- An escaped space leaves a space. -/
theorem mem_unescapeSpaces_of_infix (h : escapedSpace <:+: t) : ' ' ∈ unescapeSpaces t := by
  induction t using unescapeSpaces.induct with
  | case1 => exact absurd h (by decide)
  | case2 t ih =>
    rw [unescapeSpaces]
    exact List.mem_cons_self
  | case3 c t hc ih =>
    rw [unescapeSpaces.eq_3 _ _ hc]
    refine List.mem_cons_of_mem _ (ih ((List.infix_cons_iff.1 h).resolve_left ?_))
    rintro ⟨rest, heq⟩
    obtain ⟨rfl, rfl⟩ := List.cons.inj heq
    exact hc rest rfl rfl

/-- A text without spaces comes from itself alone. -/
theorem unescapeSpaces_eq_iff (hu : ' ' ∉ u) : unescapeSpaces t = u ↔ t = u := by
  by_cases ht : escapedSpace <:+: t
  · refine iff_of_false (fun h => hu (h ▸ mem_unescapeSpaces_of_infix ht)) ?_
    rintro rfl
    exact hu (ht.subset (by decide))
  · rw [unescapeSpaces_eq_self_iff.2 ht]

/-! ## Names without their backslashes -/

/-- A slash parts what is unescaped before it from what is unescaped after it. -/
theorem unescapeSpaces_append_slash (t u : Text) :
    unescapeSpaces (t ++ '/' :: u) = unescapeSpaces t ++ '/' :: unescapeSpaces u := by
  induction t using unescapeSpaces.induct with
  | case1 => exact unescapeSpaces.eq_3 _ _ fun _ h => absurd h (by decide)
  | case2 t ih =>
    rw [List.cons_append, List.cons_append, unescapeSpaces, ih, unescapeSpaces]
    rfl
  | case3 c t hc ih =>
    rw [List.cons_append, unescapeSpaces.eq_3 _ _ hc, unescapeSpaces.eq_3, ih]
    · rfl
    · rintro rest rfl heq
      cases t with
      | nil => exact absurd (List.cons.inj heq).1 (by decide)
      | cons d t => exact hc t rfl (congrArg (· :: t) (List.cons.inj heq).1)

theorem unescapeSpaces_join (pieces : List Text) :
    unescapeSpaces (Text.join '/' pieces) = Text.join '/' (pieces.map unescapeSpaces) := by
  induction pieces with
  | nil => rfl
  | cons piece pieces ih =>
    cases pieces with
    | nil => rfl
    | cons next pieces => exact (unescapeSpaces_append_slash _ _).trans (congrArg _ (congrArg _ ih))

theorem splitAt_unescapeSpaces (t : Text) :
    Text.splitAt '/' (unescapeSpaces t) = (Text.splitAt '/' t).map unescapeSpaces := by
  have hjoin := unescapeSpaces_join (Text.splitAt '/' t)
  rw [Text.join_splitAt] at hjoin
  rw [hjoin]
  refine Text.splitAt_join (fun h => Text.splitAt_ne_nil '/' t (List.map_eq_nil_iff.1 h)) ?_
  intro piece hpiece
  obtain ⟨name, hname, rfl⟩ := List.mem_map.1 hpiece
  exact fun h => Text.not_mem_of_mem_splitAt hname (mem_of_mem_unescapeSpaces h)

/-- Spaces are unescaped name by name. -/
theorem components_unescapeSpaces (t : Text) :
    (Path.ofText (unescapeSpaces t)).components =
      (Path.ofText t).components.map unescapeSpaces := by
  rw [Path.ofText, splitAt_unescapeSpaces, List.filter_map]
  refine congrArg _ (List.filter_congr fun name _ => ?_)
  have hnil : unescapeSpaces name = [] ↔ name = [] := unescapeSpaces_eq_iff (by decide)
  have hdot : unescapeSpaces name = ['.'] ↔ name = ['.'] := unescapeSpaces_eq_iff (by decide)
  simp only [Function.comp_apply, ne_eq, hnil, hdot]

/-- Collapsing goes by which names lead up, and unescaping does not change that. -/
theorem collapse_unescapeSpaces (rooted : Bool) (names : List Text) :
    Path.collapse rooted (names.map unescapeSpaces) =
      (Path.collapse rooted names).map unescapeSpaces := by
  have hup {name : Text} : unescapeSpaces name = Path.parentName ↔ name = Path.parentName :=
    unescapeSpaces_eq_iff (by decide)
  have hstep (seen : List Text) (name : Text) :
      Path.collapseStep rooted (seen.map unescapeSpaces) (unescapeSpaces name) =
        (Path.collapseStep rooted seen name).map unescapeSpaces := by
    unfold Path.collapseStep
    simp only [ne_eq, hup]
    split
    · rfl
    · cases seen with
      | nil => cases rooted <;> rfl
      | cons last rest =>
        simp only [List.map_cons, hup]
        split <;> rfl
  have hfold (seen : List Text) :
      names.foldl (fun seen name => Path.collapseStep rooted seen (unescapeSpaces name))
          (seen.map unescapeSpaces) =
        (names.foldl (Path.collapseStep rooted) seen).map unescapeSpaces :=
    List.foldl_hom _ hstep
  rw [Path.collapse, List.foldl_map, Path.collapse, List.map_reverse]
  exact congrArg _ (hfold [])

/-! ## Below the root directory -/

theorem expand_rootToken (rootToken root rest : Text) :
    expand rootToken root (rootToken ++ '/' :: rest) =
      unescapeSpaces root ++ '/' :: unescapeSpaces rest := by
  rw [expand, substituteRoot, if_pos (List.isPrefixOf_iff_prefix.2 (List.prefix_append _ _)),
    List.drop_left, unescapeSpaces_append_slash]

theorem isAbsolute_expand_rootToken (hroot : (Path.ofText root).isAbsolute) (rest : Text) :
    (Path.ofText (expand rootToken root (rootToken ++ '/' :: rest))).isAbsolute := by
  obtain ⟨root, rfl⟩ := List.head?_eq_some_iff.1 (Path.isAbsolute_ofText_iff.1 hroot)
  rw [expand_rootToken, unescapeSpaces.eq_3 _ _ fun _ h => absurd h (by decide)]
  exact Path.isAbsolute_ofText_iff.2 rfl

theorem map_unescapeSpaces_eq_self_iff {names : List Text} :
    names.map unescapeSpaces = names ↔ ∀ name ∈ names, ¬escapedSpace <:+: name := by
  have hinj : names.map unescapeSpaces = names.map id ↔
      ∀ name ∈ names, unescapeSpaces name = id name := List.map_inj_left
  rw [List.map_id] at hinj
  simp only [hinj, id, unescapeSpaces_eq_self_iff]

/-- What a path below the root token means: the names of the root directory, unescaped, and those
    of the rest. The directory of the document makes no difference. -/
theorem target_rootToken (hroot : (Path.ofText root).isAbsolute) (base : Path) {rest : Text}
    (hrest : Path.parentName ∉ (Path.ofText (unescapeSpaces rest)).components) :
    (target rootToken root base (rootToken ++ '/' :: rest)).components =
      (Path.ofText root).normalize.components.map unescapeSpaces ++
        (Path.ofText (unescapeSpaces rest)).normalize.components := by
  have hdown : ∀ name ∈ (Path.ofText (unescapeSpaces rest)).components, name ≠ Path.parentName :=
    fun name hname heq => hrest (heq ▸ hname)
  have habs : (Path.ofText (expand rootToken root (rootToken ++ '/' :: rest))).isAbsolute :=
    isAbsolute_expand_rootToken hroot rest
  have hnames : (Path.ofText (expand rootToken root (rootToken ++ '/' :: rest))).components =
      (Path.ofText root).components.map unescapeSpaces ++
        (Path.ofText (unescapeSpaces rest)).components := by
    rw [expand_rootToken, ← components_unescapeSpaces, Path.ofText, Text.splitAt_append_sep,
      List.filter_append]
    rfl
  rw [target, Path.append, if_pos habs, Path.normalize, habs, hnames,
    Path.collapse_append true _ hdown, collapse_unescapeSpaces, Path.normalize, hroot,
    Path.normalize, Path.collapse_eq_self _ hdown]

/-- A path below the root token lies inside the root directory unless a name of that directory
    holds an escaped space. -/
theorem inside_target_rootToken_iff (hroot : (Path.ofText root).isAbsolute) (base : Path)
    {rest : Text} (hrest : Path.parentName ∉ (Path.ofText (unescapeSpaces rest)).components) :
    inside (.ofText root) (target rootToken root base (rootToken ++ '/' :: rest)) ↔
      ∀ name ∈ (Path.ofText root).normalize.components, ¬escapedSpace <:+: name := by
  have hbase : target rootToken root base (rootToken ++ '/' :: rest) =
      target rootToken root (.ofText []) (rootToken ++ '/' :: rest) := by
    rw [target, target, Path.append, Path.append,
      if_pos (isAbsolute_expand_rootToken hroot rest), if_pos (isAbsolute_expand_rootToken hroot rest)]
  rw [hbase, inside_target_iff hroot (Path.hasNames_ofText []), target_rootToken hroot _ hrest]
  generalize (Path.ofText root).normalize.components = names
  rw [← map_unescapeSpaces_eq_self_iff]
  refine ⟨fun h => ?_, fun h => h.symm ▸ List.prefix_append _ _⟩
  -- Two prefixes of one list that are equally long are the same.
  have hlength : names.length = (names.map unescapeSpaces).length :=
    (List.length_map unescapeSpaces).symm
  have hnames := List.prefix_of_prefix_length_le h (List.prefix_append _ _) (Nat.le_of_eq hlength)
  exact (hnames.eq_of_length hlength).symm

/-- Paths below the root token. What they mean are the names of the normalised root directory,
    with escaped spaces unescaped, and those of the rest. If no name of the root directory holds
    an escaped space, this is a path below the root directory, and it is resolved; otherwise the
    path is another one, and it is refused unless paths outside are allowed. -/
theorem resolve_below_root (rootToken root rest : Text) (base : Path)
    (hroot : (Path.ofText root).isAbsolute)
    (hrest : Path.parentName ∉ (Path.ofText (unescapeSpaces rest)).components) :
    let names := (Path.ofText root).normalize.components
    let below := (Path.ofText (unescapeSpaces rest)).normalize.components
    let path := rootToken ++ '/' :: rest
    ((∀ name ∈ names, ¬escapedSpace <:+: name) → ∃ found,
        resolve rootToken root false base path = .ok found ∧ found.isAbsolute ∧
          found.components = names ++ below) ∧
      ((∃ name ∈ names, escapedSpace <:+: name) → ∃ found,
        resolve rootToken root false base path = .error (.outsideRoot found.toText root) ∧
          resolve rootToken root true base path = .ok found ∧ found.isAbsolute ∧
            found.components = names.map unescapeSpaces ++ below) := by
  intro names below path
  have habs := isAbsolute_target rootToken root base path
  have hcomponents : (target rootToken root base path).components =
      names.map unescapeSpaces ++ below := target_rootToken hroot base hrest
  have hinside : inside (.ofText root) (target rootToken root base path) ↔
      ∀ name ∈ names, ¬escapedSpace <:+: name := inside_target_rootToken_iff hroot base hrest
  constructor
  · intro hplain
    refine ⟨_, ?_, habs, ?_⟩
    · rw [resolve, hinside.2 hplain, Bool.or_true, if_pos rfl]
    · rw [hcomponents, map_unescapeSpaces_eq_self_iff.2 hplain]
  · rintro ⟨name, hname, hescaped⟩
    refine ⟨_, ?_, ?_, habs, hcomponents⟩
    · rw [resolve, Bool.false_or, if_neg fun h => hinside.1 h name hname hescaped]
    · rw [resolve, Bool.true_or, if_pos rfl]

/-- A root directory with spaces, with a backslash that stands before no space and with an escaped
    space in a name that is taken back, and a path with an escaped space below it. -/
theorem resolve_below_root_of_backslash :
    let root := "/srv/x\\ y/../a b\\c/.".toList
    let rest := "d\\ e//./f".toList
    let token := "<rootDir>".toList
    (Path.ofText root).isAbsolute ∧
      Path.parentName ∉ (Path.ofText (unescapeSpaces rest)).components ∧
      ∃ found, resolve token root false (.ofText "docs".toList) (token ++ '/' :: rest) = .ok found ∧
        found.isAbsolute ∧
          found.components = ["srv".toList, "a b\\c".toList, "d e".toList, "f".toList] := by
  intro root rest token
  have hroot : (Path.ofText root).isAbsolute := by decide
  have hrest : Path.parentName ∉ (Path.ofText (unescapeSpaces rest)).components := by
    decide +kernel
  obtain ⟨hresolve, -⟩ := resolve_below_root token root rest (.ofText "docs".toList) hroot hrest
  have hnames : (Path.ofText root).normalize.components = ["srv".toList, "a b\\c".toList] := by
    decide +kernel
  have hbelow : (Path.ofText (unescapeSpaces rest)).normalize.components =
      ["d e".toList, "f".toList] := by decide +kernel
  rw [hnames, hbelow] at hresolve
  exact ⟨hroot, hrest, hresolve (by decide +kernel)⟩

/-- An escaped space in the root directory itself is unescaped too: the path below the root token
    is then outside the root directory. -/
theorem not_resolved_of_escaped_root :
    let root := "/a\\ b".toList
    let rest := ['c']
    let token := "<rootDir>".toList
    (Path.ofText root).isAbsolute ∧
      Path.parentName ∉ (Path.ofText (unescapeSpaces rest)).components ∧
      (Path.ofText root).normalize.components = ["a\\ b".toList] ∧
      resolve token root false (.ofText ['/']) (token ++ '/' :: rest) =
        .error (.outsideRoot "/a b/c".toList root) ∧
      resolve token root true (.ofText ['/']) (token ++ '/' :: rest) =
        .ok ⟨.absolute, ["a b".toList, ['c']]⟩ := by
  intro root rest token
  have htarget : target token root (.ofText ['/']) (token ++ '/' :: rest) =
      ⟨.absolute, ["a b".toList, ['c']]⟩ := by decide +kernel
  have houtside : inside (.ofText root) ⟨.absolute, ["a b".toList, ['c']]⟩ = false := by
    decide +kernel
  have htext : Path.toText ⟨.absolute, ["a b".toList, ['c']]⟩ = "/a b/c".toList := by
    decide +kernel
  refine ⟨by decide +kernel, by decide +kernel, by decide +kernel, ?_, ?_⟩
  · rw [resolve, htarget, houtside, htext]
    rfl
  · rw [resolve, htarget]
    rfl

end Sandbox

end Transclude
