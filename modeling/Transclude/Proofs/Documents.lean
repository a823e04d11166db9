import Mathlib.Data.Char
import Mathlib.Data.List.Lex
import Transclude.Proofs.Glob
import Transclude.Run

/-!
# The documents of a run

The documents of a run stand in the order of their names, none of them twice, and their results
have paths that are as different as theirs. A document lies below the input directory by the
names by which its result lies below the output directory. If these names do not climb, both
lie, normalised, at the same place below the two directories. Names climb only if the glob asks
for `..`, and then the result of a document can lie anywhere beside the output directory.

* `Run.comesBefore_iff`: the order of documents;
* `Run.exists_documents`: what the documents of a run are;
* `Run.documents_mirrored`: where their results go.
-/

namespace Transclude

open Transclude.Path (parentName)

variable {w : World} {input output p q : Path} {pattern : Text} {found : List Path}

namespace World

/-- In a tree a path that leads to a file ends in a name that leads down. -/
theorem IsTree.exists_getLast?_of_file (hw : w.IsTree) {bytes : List UInt8}
    (h : w.find p = .ok (.file bytes)) :
    ∃ last, p.components.getLast? = some last ∧ last ≠ parentName := by
  obtain ⟨-, hwalk, hentry⟩ := World.find_eq_ok_iff.1 h
  rcases List.eq_nil_or_concat' p.components with hnil | ⟨names, last, hnames⟩
  · rw [Path.place_eq, hnil] at hentry
    cases hentry
  · refine ⟨last, by rw [hnames, List.getLast?_concat], ?_⟩
    rintro rfl
    rw [hnames] at hwalk
    obtain ⟨here, -, hlast⟩ := walk_concat_eq_ok_iff.1 hwalk
    obtain ⟨hdirectory, ⟨-, hplace⟩ | ⟨hne, -⟩⟩ := walk_singleton_eq_ok_iff.1 hlast
    · -- Above a directory there is a directory.
      rw [hplace, hw.entryAt?_dropLast (hdirectory ▸ rfl)] at hentry
      cases hentry
    · exact hne rfl

theorem isFile_eq_true_iff : w.isFile p = .ok true ↔ ∃ bytes, w.find p = .ok (.file bytes) := by
  rw [isFile, find?]
  cases w.find p with
  | error fault => cases fault <;> exact iff_of_false (by rintro ⟨⟩) (by rintro ⟨_, ⟨⟩⟩)
  | ok entry =>
    cases entry with
    | directory => exact iff_of_false (by rintro ⟨⟩) (by rintro ⟨_, ⟨⟩⟩)
    | file bytes => exact iff_of_true rfl ⟨bytes, rfl⟩

theorem isDirectory_eq_true_iff : w.isDirectory p = .ok true ↔ w.find p = .ok .directory := by
  rw [isDirectory, find?]
  cases w.find p with
  | error fault => cases fault <;> exact iff_of_false (by rintro ⟨⟩) (by rintro ⟨⟩)
  | ok entry =>
    cases entry with
    | directory => exact iff_of_true rfl rfl
    | file bytes => exact iff_of_false (by rintro ⟨⟩) (by rintro ⟨⟩)

theorem find?_of_isFile_eq_error {refusal : Refusal} (h : w.isFile p = .error refusal) :
    w.find? p = .error refusal := by
  rw [isFile] at h
  cases hfind : w.find? p with
  | error other =>
    rw [hfind] at h
    exact congrArg Except.error (Except.error.inj h)
  | ok found =>
    rw [hfind] at h
    cases h

end World

namespace Run

/-! ## The order of documents -/

/-- Paths are compared name by name, and names character by character. -/
theorem comesBefore_iff :
    comesBefore p q ↔ ¬List.Lex (List.Lex (· < ·)) q.components p.components := by
  rw [comesBefore, Bool.not_eq_true', List.lex_eq_false_iff_not_lex]
  simp only [List.lex_eq_true_iff_lex, decide_eq_true_eq]

theorem pairwise_mergeSort (paths : List Path) :
    (paths.mergeSort comesBefore).Pairwise fun p q => comesBefore p q := by
  refine List.pairwise_mergeSort (fun p q r hpq hqr => ?_) (fun p q => ?_) paths
  · rw [comesBefore_iff] at hpq hqr ⊢
    intro hrp
    rcases IsOrderConnected.conn _ q.components _ hrp with hrq | hqp
    · exact hqr hrq
    · exact hpq hqp
  · rw [Bool.or_eq_true, comesBefore_iff, comesBefore_iff]
    by_contra hboth
    obtain ⟨hqp, hpq⟩ := not_or.1 hboth
    exact asymm (not_not.1 hqp) (not_not.1 hpq)

/-! ## Documents -/

/-- What a glob selects below a directory is a list of documents, unless a path that has to be
    looked at is too long. -/
theorem exists_documents (hw : w.IsTree) (hinput : w.isDirectory input = .ok true) {glob : Glob}
    (hglob : Glob.ofText pattern = .ok glob) :
    (∃ path, w.find? path = .error ⟨.nameTooLong, path⟩ ∧
        documents w input pattern = .error (.refused ⟨.nameTooLong, path⟩)) ∨
      ∃ found, documents w input pattern = .ok found ∧
        found.Pairwise (fun p q => comesBefore p q) ∧ found.Nodup ∧
        ∀ document ∈ found, (∃ bytes, w.find document = .ok (.file bytes)) ∧
          ∃ names, document = input.below names ∧
            ∀ name ∈ names, Path.IsProper name ∨ .name name ∈ glob.steps := by
  have hrefused {refusal : Refusal} {path : Path} (hfind : w.find? path = .error refusal)
      (h : documents w input pattern = .error (.refused refusal)) :
      ∃ path, w.find? path = .error ⟨.nameTooLong, path⟩ ∧
        documents w input pattern = .error (.refused ⟨.nameTooLong, path⟩) := by
    obtain rfl := World.eq_of_find?_eq_error hfind
    exact ⟨path, hfind, h⟩
  have hselect : glob.select w input = Glob.selectFrom w glob.endsInSlash glob.steps input := by
    rw [Glob.select, hinput]
    rfl
  rw [documents, hglob] at hrefused ⊢
  dsimp only at hrefused ⊢
  rw [hselect] at hrefused ⊢
  cases hselected : Glob.selectFrom w glob.endsInSlash glob.steps input with
  | error refusal =>
    rw [hselected] at hrefused
    obtain ⟨path, hfind⟩ := Glob.exists_of_selectFrom_eq_error hselected
    exact .inl (hselected ▸ hrefused hfind rfl)
  | ok selected =>
    rw [hselected] at hrefused
    dsimp only at hrefused ⊢
    cases hfiles : filesAmong w (selected.mergeSort comesBefore) with
    | error refusal =>
      rw [hfiles] at hrefused
      obtain ⟨path, -, hfault⟩ := exists_of_filterM_eq_error hfiles
      exact .inl (hrefused (World.find?_of_isFile_eq_error hfault) rfl)
    | ok found =>
      obtain ⟨hsub, hmem⟩ := filterM_eq_ok hfiles
      have hperm := List.mergeSort_perm selected comesBefore
      have hnodup := Glob.nodup_selectFrom hw hselected
      refine .inr ⟨found, rfl, (pairwise_mergeSort selected).sublist hsub,
        (hperm.nodup_iff.2 hnodup).sublist hsub, fun document hdocument => ?_⟩
      obtain ⟨hselected', hfile⟩ := (hmem document).1 hdocument
      exact ⟨World.isFile_eq_true_iff.1 hfile,
        Glob.exists_below_of_mem hw hselected (hperm.mem_iff.1 hselected')⟩

/-! ## Results -/

theorem outputOf_below (input output : Path) (names : List Text) :
    outputOf input output (input.below names) = output.below names := by
  rw [outputOf, Path.components_below, List.drop_left, Path.append_relative]

/-- A name of a glob is one of the path that it is written as. -/
theorem mem_components_of_mem_steps {glob : Glob} (hglob : Glob.ofText pattern = .ok glob)
    {name : Text} (h : .name name ∈ glob.steps) : name ∈ (Path.ofText pattern).components := by
  rw [Glob.ofText] at hglob
  split at hglob
  · cases hglob
  · split at hglob
    · cases hglob
    · split at hglob
      · cases hglob
      · cases hsteps : (Path.ofText pattern).components.mapM Glob.step with
        | error fault =>
          rw [hsteps] at hglob
          cases hglob
        | ok steps =>
          rw [hsteps] at hglob
          obtain rfl := Except.ok.inj hglob
          obtain ⟨part, hpart, hstep⟩ := exists_of_forall₂ (mapM_eq_ok_iff.1 hsteps) h
          rw [Glob.step] at hstep
          split at hstep
          · cases hstep
          · split at hstep
            · cases hstep
            · split at hstep
              · cases hstep
              · obtain rfl := GlobStep.name.inj (Except.ok.inj hstep)
                exact hpart

/-- The names by which a glob without `..` selects all lead down. -/
theorem parentName_not_mem_of_steps {glob : Glob} (hglob : Glob.ofText pattern = .ok glob)
    (hparent : parentName ∉ (Path.ofText pattern).components) {names : List Text}
    (hnames : ∀ name ∈ names, Path.IsProper name ∨ .name name ∈ glob.steps) :
    parentName ∉ names := by
  intro hmem
  rcases hnames _ hmem with hproper | hstep
  · exact hproper.ne_parentName rfl
  · exact hparent (mem_components_of_mem_steps hglob hstep)

/-- A request that can be answered leads to a plan. -/
theorem result_prepare {r : Request} {base settings : Settings} (hinput : r.inputDir = some input)
    (hdirectory : w.isDirectory input = .ok true) (hsettings : r.settings w base = .ok settings) :
    (prepare r base w).result = (plan w r input settings).result := by
  rw [prepare, hinput]
  dsimp only
  rw [hdirectory]
  dsimp only
  rw [hsettings]
  rfl

/-- Paths that are already in order are the documents, if they all lead to files. -/
theorem documents_of_pairwise {glob : Glob} (hglob : Glob.ofText pattern = .ok glob)
    (hselect : glob.select w input = .ok found)
    (hsorted : found.Pairwise fun p q => comesBefore p q)
    (hfiles : filesAmong w found = .ok found) :
    documents w input pattern = .ok found := by
  rw [documents, hglob]
  dsimp only
  rw [hselect]
  dsimp only
  rw [List.mergeSort_of_pairwise hsorted, hfiles]
  rfl

/-- A document lies strictly below the input directory, and the names that lead to it end in one
    that leads down. -/
theorem exists_last_of_document (hw : w.IsTree) (hdirectory : w.isDirectory input = .ok true)
    {names : List Text} {bytes : List UInt8}
    (hfile : w.find (input.below names) = .ok (.file bytes)) :
    ∃ last, names.getLast? = some last ∧ last ≠ parentName := by
  have hnil : names ≠ [] := by
    rintro rfl
    rw [Path.below_nil, World.isDirectory_eq_true_iff.1 hdirectory] at hfile
    cases hfile
  obtain ⟨last, hlast, hne⟩ := hw.exists_getLast?_of_file hfile
  rw [Path.components_below, List.getLast?_append_of_ne_nil _ hnil] at hlast
  exact ⟨last, hlast, hne⟩

/-- Paths below a directory are as different as the names that lead to them. -/
theorem nodup_map_of_below {P : List Text → Prop} {f : Path → Path} (hnodup : found.Nodup)
    (hbelow : ∀ document ∈ found, ∃ names, document = input.below names ∧ P names)
    (hf : ∀ names names', P names → P names' →
      f (input.below names) = f (input.below names') → names = names') :
    (found.map f).Nodup := by
  refine List.Nodup.map_on (fun p hp q hq heq => ?_) hnodup
  obtain ⟨names, rfl, hnames⟩ := hbelow p hp
  obtain ⟨names', rfl, hnames'⟩ := hbelow q hq
  rw [hf names names' hnames hnames' heq]

theorem nodup_results {P : List Text → Prop} (hnodup : found.Nodup)
    (hbelow : ∀ document ∈ found, ∃ names, document = input.below names ∧ P names) :
    (found.map (outputOf input output)).Nodup := by
  refine nodup_map_of_below hnodup hbelow fun names names' _ _ heq => ?_
  rw [outputOf_below, outputOf_below] at heq
  exact output.below_injective heq

/-- If no names climb, documents and results are as different once they are normalised. -/
theorem nodup_normalize (hnodup : found.Nodup)
    (hdown : ∀ document ∈ found, ∃ names, document = input.below names ∧ parentName ∉ names) :
    (found.map Path.normalize).Nodup ∧
      (found.map fun document => (outputOf input output document).normalize).Nodup := by
  constructor
  · refine nodup_map_of_below hnodup hdown fun names names' hnames hnames' heq => ?_
    rw [Path.normalize_below_of_not_mem _ hnames,
      Path.normalize_below_of_not_mem _ hnames'] at heq
    exact input.normalize.below_injective heq
  · refine nodup_map_of_below hnodup hdown fun names names' hnames hnames' heq => ?_
    rw [outputOf_below, outputOf_below, Path.normalize_below_of_not_mem _ hnames,
      Path.normalize_below_of_not_mem _ hnames'] at heq
    exact output.normalize.below_injective heq

/-- The documents of a run stand in the order of their names, none is there twice, and no two
    results have the same path. A document and its result lie below their directories by the
    same names. If these do not climb, both lie, normalised, strictly below the directories at
    the same place; if they do, they do not, unless the directories end in the same name. Names
    climb only where the glob asks for `..`; where it does not, no two documents and no two
    results are the same once they are normalised. There is no list of documents only if the glob
    leads to a path that is too long. -/
theorem documents_mirrored (hw : w.IsTree) {r : Request} {base settings : Settings} {glob : Glob}
    (hinput : r.inputDir = some input) (houtput : r.outputDir = some output)
    (hdirectory : w.isDirectory input = .ok true) (hsettings : r.settings w base = .ok settings)
    (hglob : Glob.ofText r.pattern = .ok glob) :
    (∃ path, w.find? path = .error ⟨.nameTooLong, path⟩ ∧
        (prepare r base w).result = .error (.breakdown (.refused ⟨.nameTooLong, path⟩))) ∨
      ∃ pairs, (prepare r base w).result = .ok ⟨settings, pairs⟩ ∧
        (pairs.map Prod.fst).Pairwise (fun p q => comesBefore p q) ∧
        (pairs.map Prod.fst).Nodup ∧ (pairs.map Prod.snd).Nodup ∧
        (parentName ∉ (Path.ofText r.pattern).components →
          (pairs.map fun pair => pair.1.normalize).Nodup ∧
          (pairs.map fun pair => pair.2.normalize).Nodup) ∧
        ∀ pair ∈ pairs, ∃ names, pair = (input.below names, output.below names) ∧
          (¬Path.Climbs names → Path.Mirrored input output pair.1 pair.2) ∧
          (Path.Climbs names → parentName ∈ (Path.ofText r.pattern).components ∧
            (input.normalize.name ≠ output.normalize.name →
              ¬Path.Mirrored input output pair.1 pair.2)) := by
  rw [result_prepare hinput hdirectory hsettings, plan, houtput]
  rcases exists_documents hw hdirectory hglob with ⟨path, hfind, hdocuments⟩ |
    ⟨found, hdocuments, hsorted, hnodup, hfound⟩
  · refine .inl ⟨path, hfind, ?_⟩
    rw [hdocuments]
  · right
    rw [hdocuments]
    have hfst : (found.map fun document => (document, outputOf input output document)).map
        Prod.fst = found := List.map_map.trans (List.map_id found)
    have hdown (hparent : parentName ∉ (Path.ofText r.pattern).components) :
        ∀ document ∈ found, ∃ names, document = input.below names ∧ parentName ∉ names := by
      intro document hdocument
      obtain ⟨-, names, heq, hnames⟩ := hfound document hdocument
      exact ⟨names, heq, parentName_not_mem_of_steps hglob hparent hnames⟩
    refine ⟨_, rfl, hfst.symm ▸ hsorted, hfst.symm ▸ hnodup, ?_, fun hparent => ?_, ?_⟩
    · rw [List.map_map]
      exact nodup_results hnodup fun document hdocument => (hfound document hdocument).2
    · rw [List.map_map, List.map_map]
      exact nodup_normalize hnodup (hdown hparent)
    · intro pair hpair
      obtain ⟨document, hdocument, rfl⟩ := List.mem_map.1 hpair
      obtain ⟨⟨bytes, hfile⟩, names, rfl, hnames⟩ := hfound document hdocument
      obtain ⟨last, hlast, hne⟩ := exists_last_of_document hw hdirectory hfile
      refine ⟨names, by rw [outputOf_below], fun hclimbs => ?_, fun hclimbs => ⟨?_, ?_⟩⟩
      · rw [outputOf_below]
        exact Path.mirrored_of_not_climbs input output hclimbs hlast hne
      · by_contra hparent
        exact Path.not_climbs_of_not_mem (parentName_not_mem_of_steps hglob hparent hnames) hclimbs
      · rw [outputOf_below]
        exact fun hname hmirrored => hname (Path.name_eq_of_mirrored hclimbs hmirrored)

/-- Documents in the input directory and in a directory below it. -/
theorem documents_mirrored_of_two_levels :
    let w : World := ⟨[(["in".toList], .directory), (["in".toList, "b".toList], .directory),
      (["in".toList, "b".toList, "c.md".toList], .file []),
      (["in".toList, "a.md".toList], .file [])]⟩
    let input : Path := ⟨.absolute, ["in".toList]⟩
    let output : Path := ⟨.absolute, ["out".toList]⟩
    let r : Request :=
      { inputDir := some input, outputDir := some output, pattern := "**/*.md".toList }
    let pairs : List (Path × Path) :=
      [(input.below ["a.md".toList], output.below ["a.md".toList]),
        (input.below ["b".toList, "c.md".toList], output.below ["b".toList, "c.md".toList])]
    w.IsTree ∧ (prepare r {} w).result = .ok ⟨{ rootDir := some "/in".toList }, pairs⟩ ∧
      ∀ pair ∈ pairs, Path.Mirrored input output pair.1 pair.2 := by
  intro w input output r pairs
  have hw : w.IsTree := ⟨by decide, by decide, by decide, by decide⟩
  have hdirectory : w.isDirectory input = .ok true := by decide +kernel
  have hsettings : r.settings w {} = .ok { rootDir := some "/in".toList } := by decide +kernel
  have hglob : Glob.ofText r.pattern =
      .ok ⟨[.anyDepth, .pattern [.anyText, .char '.', .char 'm', .char 'd']], false⟩ := by
    decide +kernel
  have hprepare : (prepare r {} w).result = .ok ⟨{ rootDir := some "/in".toList }, pairs⟩ := by
    have hdocuments : documents w input r.pattern = .ok (pairs.map Prod.fst) :=
      documents_of_pairwise hglob (by decide +kernel) (by decide +kernel) (by decide +kernel)
    rw [@result_prepare w input r {} _ rfl hdirectory hsettings, plan]
    dsimp only [r]
    rw [hdocuments]
    rfl
  refine ⟨hw, hprepare, ?_⟩
  rcases @documents_mirrored w input output hw r {} _ _ rfl rfl hdirectory hsettings hglob with
    ⟨path, -, herror⟩ | ⟨found, hfound, -, -, -, -, hmirrored⟩
  · exact nomatch hprepare.symm.trans herror
  · obtain rfl : pairs = found := (Plan.mk.inj (Except.ok.inj (hprepare.symm.trans hfound))).2
    intro pair hpair
    obtain ⟨names, -, hdown, hup⟩ := hmirrored pair hpair
    exact hdown fun hclimbs => absurd (hup hclimbs).1 (by decide)

/-- A glob that asks for `..` selects a document beside the input directory. Its result lies
    beside the output directory, at the place of the document itself. -/
theorem not_mirrored_of_parent :
    let w : World := ⟨[(["in".toList], .directory), (["x.md".toList], .file [])]⟩
    let input : Path := ⟨.absolute, ["in".toList]⟩
    let output : Path := ⟨.absolute, ["out".toList]⟩
    let r : Request :=
      { inputDir := some input, outputDir := some output, pattern := "../x.md".toList }
    let document := input.below [parentName, "x.md".toList]
    let result := output.below [parentName, "x.md".toList]
    w.IsTree ∧
      (prepare r {} w).result = .ok ⟨{ rootDir := some "/in".toList }, [(document, result)]⟩ ∧
      result.normalize = ⟨.absolute, ["x.md".toList]⟩ ∧
      ¬Path.Mirrored input output document result := by
  intro w input output r document result
  have hdocuments : documents w input r.pattern = .ok [document] :=
    @documents_of_pairwise w input _ _ ⟨[.name parentName, .name "x.md".toList], false⟩
      (by decide +kernel) (by decide +kernel) (by decide +kernel) (by decide +kernel)
  have hsettings : r.settings w {} = .ok { rootDir := some "/in".toList } := by decide +kernel
  refine ⟨⟨by decide, by decide, by decide, by decide⟩, ?_, by decide, ?_⟩
  · rw [@result_prepare w input r {} _ rfl (by decide +kernel) hsettings, plan]
    dsimp only [r]
    rw [hdocuments]
    rfl
  have hname : input.normalize.name ≠ output.normalize.name := by decide
  have hclimbs : Path.Climbs [parentName, "x.md".toList] := by decide
  exact fun hmirrored => hname (Path.name_eq_of_mirrored hclimbs hmirrored)

end Run

end Transclude
