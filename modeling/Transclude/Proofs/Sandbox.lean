import Transclude.Proofs.Path
import Transclude.Sandbox

/-!
# What the sandbox lets through

A path is *within* a directory if its components are proper names that begin with the
components of the directory. The path that is resolved is the very path that was checked,
and the check says that it is within the root directory: between the two nothing is read
from a text again.

The check looks at the text of the way from the root directory to the path. Names hold no
slash, so the text starts with `..` and a slash, or is `..`, exactly if the first name of the
way is `..`, and a name that only starts with two dots is not taken for it. So a path passes
the check exactly if the components of the root directory come first in it.

* `Sandbox.inside_iff`: what the text of a way says about its names;
* `Sandbox.within_of_resolve`: a path that is resolved is within the root directory;
* `Sandbox.resolve_exact`: which paths are resolved, and to what.
-/

namespace Transclude

namespace Sandbox

variable {rootToken root t name : Text} {names : List Text} {base p : Path}

/-! ## Ways in writing -/

/-- A name and a slash start a text of names if the name is the first of several. -/
theorem isPrefixOf_name_iff {rest : Text} (hname : '/' ∉ name) (ht : '/' ∉ t) :
    (t ++ ['/']).isPrefixOf (name ++ '/' :: rest) ↔ name = t := by
  rw [List.isPrefixOf_iff_prefix]
  constructor
  · rintro ⟨tail, h⟩
    -- Both sides have the same first piece.
    rw [List.append_assoc, List.singleton_append] at h
    have := congrArg (Text.splitAt '/') h
    rw [Text.splitAt_append_cons ht, Text.splitAt_append_cons hname] at this
    exact (List.cons.inj this).1.symm
  · rintro rfl
    exact ⟨rest, by rw [List.append_assoc, List.singleton_append]⟩

/-- A way leads out exactly if its first name is `..`. -/
theorem leadsOut_toText_iff (h : ∀ name ∈ names, Path.IsName name) :
    leadsOut (Path.toText ⟨.relative, names⟩) ↔ names.head? = some Path.parentName := by
  have hup : '/' ∉ Path.parentName := by decide
  rcases names with _ | ⟨name, _ | ⟨next, rest⟩⟩
  · decide
  · -- A single name is followed by no slash.
    have hslash : ¬(Path.parentName ++ ['/']).isPrefixOf name := fun hprefix =>
      (h name List.mem_cons_self).not_mem
        ((List.isPrefixOf_iff_prefix.1 hprefix).subset (List.mem_append_right _ (by decide)))
    show (decide (name = Path.parentName) || (Path.parentName ++ ['/']).isPrefixOf name) = true ↔ _
    rw [Bool.or_eq_true, decide_eq_true_eq, or_iff_left hslash, List.head?_cons, Option.some.injEq]
  · have hname := (h name List.mem_cons_self).not_mem
    have hne : name ++ '/' :: Text.join '/' (next :: rest) ≠ Path.parentName := fun heq =>
      hup (heq ▸ List.mem_append_right name List.mem_cons_self)
    show (decide (name ++ '/' :: Text.join '/' (next :: rest) = Path.parentName) ||
      (Path.parentName ++ ['/']).isPrefixOf (name ++ '/' :: Text.join '/' (next :: rest))) = true ↔ _
    rw [decide_eq_false hne, Bool.false_or, isPrefixOf_name_iff hname hup, List.head?_cons,
      Option.some.injEq]

/-- A path is inside a directory if the first name of the way to it is not `..`. -/
theorem inside_iff {root path : Path} (hpath : path.resolved.HasNames) : inside root path ↔
    (Path.relative root.resolved.components path.resolved.components).head? ≠
      some Path.parentName := by
  have hnames : (Path.mk .relative
      (Path.relative root.resolved.components path.resolved.components)).HasNames := by
    intro name hname
    rcases Path.mem_relative hname with rfl | hname
    · exact ⟨by decide, by decide, by decide⟩
    · exact hpath name hname
  have hrelative : (Path.ofText (way root path)).isAbsolute = false := by
    rw [way, Path.ofText_toText hnames]
    rfl
  rw [inside, hrelative, Bool.not_false, Bool.and_true, Bool.not_eq_true', ← Bool.not_eq_true,
    way, leadsOut_toText_iff hnames]

/-! ## Paths that directives mean -/

/-- An absolute path without `.` and `..` whose components begin with those of the normalised
    root directory. -/
structure Within (root : Text) (p : Path) : Prop where
  isAbsolute : p.isAbsolute
  isProper : ∀ name ∈ p.components, Path.IsProper name
  prefix_components : (Path.ofText root).normalize.components <+: p.components

theorem isAbsolute_target (rootToken root : Text) (base : Path) (t : Text) :
    (target rootToken root base t).isAbsolute :=
  Path.isAbsolute_append (Path.isAbsolute_absolute base)

/-- The path that a directive means has proper names only. -/
theorem isProper_of_mem_target (hbase : base.HasNames) {name : Text}
    (h : name ∈ (target rootToken root base t).components) : Path.IsProper name := by
  have hresolved : base.resolved.HasNames := fun name hname =>
    (Path.isProper_of_mem_normalize hbase.absolute (Path.isAbsolute_absolute base) hname).toIsName
  exact Path.isProper_of_mem_normalize (hresolved.append (Path.hasNames_ofText _))
    (isAbsolute_target rootToken root base t) h

/-- Whether the path that a directive means lies inside an absolute root directory. -/
theorem inside_target_iff (hroot : (Path.ofText root).isAbsolute) (hbase : base.HasNames) :
    inside (.ofText root) (target rootToken root base t) ↔
      (Path.ofText root).normalize.components <+: (target rootToken root base t).components := by
  have htarget : (target rootToken root base t).resolved = target rootToken root base t :=
    Path.resolved_normalize (isAbsolute_target rootToken root base t)
  have hproper : ∀ name ∈ (target rootToken root base t).components, Path.IsProper name :=
    fun name hname => isProper_of_mem_target hbase hname
  rw [← Path.relative_head?_ne_parentName_iff fun name hname => (hproper name hname).ne_parentName,
    inside_iff (htarget.symm ▸ fun name hname => (hproper name hname).toIsName), htarget,
    Path.resolved, Path.absolute_eq_self hroot]

/-- A path that is resolved inside an absolute root directory is within it. -/
theorem within_of_resolve (hroot : (Path.ofText root).isAbsolute) (hbase : base.HasNames)
    (h : resolve rootToken root false base t = .ok p) : Within root p := by
  unfold resolve at h
  simp only [Bool.false_or] at h
  split at h
  · rename_i hinside
    rw [← Except.ok.inj h]
    exact ⟨isAbsolute_target rootToken root base t, fun _ => isProper_of_mem_target hbase,
      (inside_target_iff hroot hbase).1 hinside⟩
  · exact nomatch h

/-! ## Which paths are resolved -/

/-- The path that a directive means is the one that the texts write together, seen from the
    root directory. -/
theorem target_eq (rootToken root base t : Text) : target rootToken root (.ofText base) t =
    (Path.ofText (Path.joinTexts (Path.joinTexts ['/'] base)
      (expand rootToken root t))).normalize := by
  have hbase : Path.ofText (Path.joinTexts ['/'] base) = (Path.ofText base).absolute :=
    Path.ofText_joinTexts rfl base
  have habs := Path.isAbsolute_absolute (.ofText base)
  rw [Path.ofText_joinTexts (hbase ▸ habs), hbase, target, Path.resolved,
    Path.normalize_append_normalize habs]

/-- What a text says about the path that it writes, if that is normalised and absolute. -/
theorem contains_toText_iff (hroot : (Path.ofText root).isAbsolute) (habs : p.isAbsolute)
    (hproper : ∀ name ∈ p.components, Path.IsProper name) :
    contains root p.toText ↔ (Path.ofText root).normalize.components <+: p.components := by
  have hnames : p.HasNames := fun name hname => (hproper name hname).toIsName
  have hnormal : p.normalize = p := congrArg (Path.mk p.root)
    (Path.collapse_eq_self _ fun name hname => (hproper name hname).ne_parentName)
  have hresolved : p.resolved = p := by rw [Path.resolved, Path.absolute_eq_self habs, hnormal]
  have htext : p.toText.isEmpty = false := by
    have htext := Path.isAbsolute_ofText_iff.1 ((Path.ofText_toText hnames).symm ▸ habs)
    refine List.isEmpty_eq_false_iff.2 fun hnil => ?_
    rw [hnil] at htext
    cases htext
  rw [contains, htext, Bool.not_false, Bool.true_and, Path.ofText_toText hnames,
    inside_iff (hresolved.symm ▸ hnames), hresolved, Path.resolved, Path.absolute_eq_self hroot,
    Path.relative_head?_ne_parentName_iff fun name hname => (hproper name hname).ne_parentName]

/-- With an absolute root directory, a path is resolved exactly if the components of the
    normalised root directory come first in it, or if paths outside are allowed; otherwise the
    failure names it and the root directory. What is resolved is an absolute path that holds
    neither `.` nor `..` nor an empty name, and no other way to write the root directory
    decides otherwise. -/
theorem resolve_exact (rootToken root base t : Text) (hroot : (Path.ofText root).isAbsolute) :
    let found := (Path.ofText (Path.joinTexts (Path.joinTexts ['/'] base)
      (expand rootToken root t))).normalize
    let within := (Path.ofText root).normalize.components <+: found.components
    resolve rootToken root true (.ofText base) t = .ok found ∧
      (resolve rootToken root false (.ofText base) t = .ok found ↔ within) ∧
      (¬within →
        resolve rootToken root false (.ofText base) t = .error (.outsideRoot found.toText root)) ∧
      (found.isAbsolute ∧ (∀ name ∈ found.components, Path.IsProper name) ∧
        Path.ofText found.toText = found) ∧
      (contains root found.toText ↔ within) ∧
      contains (Path.ofText root).normalize.toText found.toText = contains root found.toText := by
  intro found within
  have hfound : target rootToken root (.ofText base) t = found := target_eq rootToken root base t
  have hbase := Path.hasNames_ofText base
  have habs : found.isAbsolute := hfound ▸ isAbsolute_target rootToken root (.ofText base) t
  have hproper : ∀ name ∈ found.components, Path.IsProper name :=
    fun name hname => isProper_of_mem_target hbase (hfound.symm ▸ hname)
  have hinside : inside (.ofText root) found ↔ within := by
    show inside (.ofText root) found ↔ _ <+: found.components
    rw [← hfound]
    exact inside_target_iff hroot hbase
  have hcontains : contains root found.toText ↔ within := contains_toText_iff hroot habs hproper
  have hresolve : resolve rootToken root false (.ofText base) t =
      if inside (.ofText root) found then .ok found
      else .error (.outsideRoot found.toText root) := by
    rw [resolve, hfound, Bool.false_or]
  -- The normalised root directory is read back from its text, and normal already.
  have hnormal : Path.ofText (Path.ofText root).normalize.toText = (Path.ofText root).normalize :=
    Path.ofText_toText fun name hname =>
      (Path.isProper_of_mem_normalize (Path.hasNames_ofText root) hroot hname).toIsName
  refine ⟨?_, ?_, fun houtside => ?_, ⟨habs, hproper, ?_⟩, hcontains, ?_⟩
  · rw [resolve, hfound, Bool.true_or, if_pos rfl]
  · rw [hresolve, ← hinside]
    split
    · rename_i h
      exact iff_of_true rfl h
    · rename_i h
      exact iff_of_false nofun h
  · rw [hresolve, if_neg fun h => houtside (hinside.1 h)]
  · exact Path.ofText_toText fun name hname => (hproper name hname).toIsName
  · rw [Bool.eq_iff_iff, hcontains, contains_toText_iff (hnormal.symm ▸ hroot) habs hproper, hnormal,
      Path.normalize_normalize hroot]

/-- A root directory that is written with two slashes and a way up and down again, a name that
    starts with two dots, and a directory beside the root directory whose name goes on. -/
theorem resolve_exact_of_climbing_root :
    let root := "//srv/./old/../docs/".toList
    let token := "<rootDir>".toList
    resolve token root false (.ofText "guide".toList) "<rootDir>/../docs/..x".toList =
        .ok ⟨.doubled, ["srv".toList, "docs".toList, "..x".toList]⟩ ∧
      resolve token root false (.ofText "/srv/docs/guide".toList) "..".toList =
        .ok ⟨.absolute, ["srv".toList, "docs".toList]⟩ ∧
      resolve token root false (.ofText "/srv/docs/guide".toList) "../../docs2/a\\ b".toList =
        .error (.outsideRoot "/srv/docs2/a b".toList root) ∧
      resolve token root true (.ofText "/srv/docs/guide".toList) "../../docs2/a\\ b".toList =
        .ok ⟨.absolute, ["srv".toList, "docs2".toList, "a b".toList]⟩ := by
  intro root token
  obtain ⟨-, htoken, -⟩ := resolve_exact token root "guide".toList "<rootDir>/../docs/..x".toList
    (by decide)
  obtain ⟨-, hself, -⟩ := resolve_exact token root "/srv/docs/guide".toList "..".toList (by decide)
  obtain ⟨hany, -, hbeside, -⟩ := resolve_exact token root "/srv/docs/guide".toList
    "../../docs2/a\\ b".toList (by decide)
  exact ⟨htoken.2 (by decide), hself.2 (by decide), hbeside (by decide), hany⟩

end Sandbox

end Transclude
