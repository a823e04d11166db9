import Transclude.Proofs.Import.Outcome
import Transclude.Proofs.Rewriting

/-!
# What a pass is to do

What a pass is to do can be said block by block, without saying in which order anything is
read (`Import.Treats`): a block without a directive is left alone, and any other block gets
the excerpt that its own directive takes from the text of its own file, its old body being
the template. The result of a pass (`Import.IsResult`) has the lines of the document, those at
the positions of the blocks with their new bodies.

The sequential strategy and the batch, in whatever order its reads end, both have exactly
this result.

* `Import.fillInTurn_eq_ok_iff`, `Import.fillTogether_eq_ok_iff`: how either fills the blocks;
* `Import.sequential_eq_ok_iff`, `Import.batch_eq_ok_iff`: which results either has.
-/

namespace Transclude

/-- The message for a reference to a group that found no section. -/
def Filled.missingMessage (filled : Filled) (group : Text) : String :=
  let path := String.ofList filled.job.path.toText
  s!"Group {String.ofList group} not found in {path} (line {filled.job.block.startLine + 1})"

namespace Import

/-! ## What a pass is to do -/

/-- How a code block is to be treated. -/
inductive Treats (settings : Settings) (root : Text) (base : Path) (read : Reader)
    (block : CodeBlock) : Option Filled → Prop where
  /-- A block without a directive is left alone. -/
  | skip
    (hdirective : Directive.ofMetadata settings.grammar (block.metadata.getD []) = .ok none) :
    Treats settings root base read block none
  /-- A block with a directive gets the excerpt that the directive takes from its file. -/
  | fill {directive : Directive} {path : Path} {content : Text} {excerpt : Extraction}
    (hdirective : Directive.ofMetadata settings.grammar (block.metadata.getD []) =
      .ok (some directive))
    (hpath : Sandbox.resolve settings.grammar.rootToken root settings.allowsOutside base
      directive.path = .ok path)
    (hcontent : read path = .ok content)
    (hexcerpt : excerpt = Excerpt.ofDirective settings.grammar.markerToken
      settings.keepsFinalBreak directive content block.value) :
    Treats settings root base read block (some {
      job := ⟨block, directive, path⟩
      value := if settings.dedents then Text.dedent excerpt.text else excerpt.text
      missing := excerpt.missing })

/-- The blocks of a document, each with the new body that it gets, if it gets one. -/
def targets (blocks : List CodeBlock) (treated : List (Option Filled)) :
    List (CodeBlock × Option Text) :=
  blocks.zip (treated.map (Option.map Filled.value))

/-- What the result of a pass is to be: the lines of the document, where those at the position
    of a block without a directive, and those between blocks, stay as they are, and those at the
    position of any other block get its new body; how many blocks get one; and one message for
    each reference to a group that found no section. -/
structure IsResult (settings : Settings) (root : Text) (base : Path) (read : Reader)
    (text : Text) (blocks : List CodeBlock) (treated : List (Option Filled))
    (result : Imported) : Prop where
  blocks_eq : CodeBlock.find text = .ok blocks
  treats : List.Forall₂ (Treats settings root base read) blocks treated
  rewrites : ∃ ls, CodeBlock.Rewrites 0 (targets blocks treated) (Text.lines text) ls ∧
    result.text = Text.unlines ls
  count_eq : result.count = treated.countP Option.isSome
  diagnostics_eq : result.diagnostics = (treated.filterMap id).flatMap fun filled =>
    filled.missing.map filled.missingMessage

variable {settings : Settings} {root : Text} {base : Path} {read : Reader} {text : Text}
  {block : CodeBlock} {blocks : List CodeBlock} {js : List Job} {fs : List Filled}
  {job : Job} {filled : Filled} {contents : List Text} {treated : List (Option Filled)}

/-! ## Single blocks -/

/-- A block is filled with what its file has. -/
def Fills (settings : Settings) (read : Reader) (job : Job) (filled : Filled) : Prop :=
  ∃ content, read job.path = .ok content ∧ (fill settings job content).result = .ok filled

theorem result_fill (settings : Settings) (job : Job) (content : Text) :
    (fill settings job content).result = .ok {
      job := job
      value :=
        if settings.dedents then Text.dedent (Excerpt.ofDirective settings.grammar.markerToken
          settings.keepsFinalBreak job.directive content job.block.value).text
        else (Excerpt.ofDirective settings.grammar.markerToken settings.keepsFinalBreak
          job.directive content job.block.value).text
      missing := (Excerpt.ofDirective settings.grammar.markerToken settings.keepsFinalBreak
        job.directive content job.block.value).missing } := rfl

theorem result_job?_eq_none : (job? settings root base block).result = .ok none ↔
    Directive.ofMetadata settings.grammar (block.metadata.getD []) = .ok none := by
  unfold job?
  split <;> rename_i h <;> rw [h]
  · exact ⟨fun hresult => (nomatch hresult), fun hnone => (nomatch hnone)⟩
  · exact ⟨fun _ => rfl, fun _ => rfl⟩
  · rw [Outcome.result_after, Outcome.result_map_eq_ok]
    exact ⟨fun ⟨_, _, hpath⟩ => (nomatch hpath), fun hnone => (nomatch hnone)⟩

theorem result_resolve_eq_ok {directive : Directive} {path : Path} :
    (resolve settings root base directive).result = .ok path ↔
      Sandbox.resolve settings.grammar.rootToken root settings.allowsOutside base
        directive.path = .ok path := by
  unfold resolve
  split <;> rename_i h <;> rw [h]

theorem result_job?_eq_some : (job? settings root base block).result = .ok (some job) ↔
    Directive.ofMetadata settings.grammar (block.metadata.getD []) = .ok (some job.directive) ∧
      Sandbox.resolve settings.grammar.rootToken root settings.allowsOutside base
        job.directive.path = .ok job.path ∧ job.block = block := by
  unfold job?
  split <;> rename_i h <;> rw [h]
  · exact ⟨fun hresult => (nomatch hresult), fun ⟨hdirective, _⟩ => nomatch hdirective⟩
  · exact ⟨fun hresult => (nomatch hresult), fun ⟨hdirective, _⟩ => nomatch hdirective⟩
  · rename_i directive
    rw [Outcome.result_after, Outcome.result_map_eq_ok]
    constructor
    · rintro ⟨path, hpath, hjob⟩
      rw [← Option.some.inj hjob]
      exact ⟨rfl, result_resolve_eq_ok.1 hpath, rfl⟩
    · rintro ⟨hdirective, hpath, rfl⟩
      rw [← Option.some.inj (Except.ok.inj hdirective)] at hpath
      refine ⟨job.path, result_resolve_eq_ok.2 hpath, ?_⟩
      rw [Option.some.inj (Except.ok.inj hdirective)]

/-- A block is treated as its job, if it has one, is filled. -/
theorem treats_iff {o : Option Filled} : Treats settings root base read block o ↔
    ((job? settings root base block).result = .ok none ∧ o = none) ∨
      ∃ job filled, (job? settings root base block).result = .ok (some job) ∧
        Fills settings read job filled ∧ o = some filled := by
  constructor
  · rintro (hdirective | ⟨hdirective, hpath, hcontent, rfl⟩)
    · exact .inl ⟨result_job?_eq_none.2 hdirective, rfl⟩
    · refine .inr ⟨⟨block, _, _⟩, _, result_job?_eq_some.2 ⟨hdirective, hpath, rfl⟩,
        ⟨_, hcontent, ?_⟩, rfl⟩
      exact result_fill _ _ _
  · rintro (⟨hjob, rfl⟩ | ⟨job, filled, hjob, ⟨content, hcontent, hfill⟩, rfl⟩)
    · exact .skip (result_job?_eq_none.1 hjob)
    · obtain ⟨hdirective, hpath, rfl⟩ := result_job?_eq_some.1 hjob
      rw [← Except.ok.inj ((result_fill _ _ _).symm.trans hfill)]
      exact .fill hdirective hpath hcontent rfl

/-- There is only one way to treat a block. -/
theorem Treats.unique {o o' : Option Filled} (h : Treats settings root base read block o)
    (h' : Treats settings root base read block o') : o = o' := by
  cases h with
  | skip hdirective =>
    cases h' with
    | skip => rfl
    | fill hdirective' => exact nomatch hdirective.symm.trans hdirective'
  | fill hdirective hpath hcontent hexcerpt =>
    cases h' with
    | skip hdirective' => exact nomatch hdirective.symm.trans hdirective'
    | fill hdirective' hpath' hcontent' hexcerpt' =>
      obtain rfl := Option.some.inj (Except.ok.inj (hdirective.symm.trans hdirective'))
      obtain rfl := Except.ok.inj (hpath.symm.trans hpath')
      obtain rfl := Except.ok.inj (hcontent.symm.trans hcontent')
      rw [hexcerpt, hexcerpt']

theorem Treats.block_eq (h : Treats settings root base read block (some filled)) :
    filled.job.block = block := by
  cases h
  rfl

/-! ## Blocks of a document -/

theorem result_jobs_eq_ok : (jobs settings root base blocks).result = .ok js ↔
    ∃ os, List.Forall₂ (fun block o => (job? settings root base block).result = .ok o) blocks os ∧
      os.filterMap id = js := by
  induction blocks generalizing js with
  | nil =>
    constructor
    · intro h
      exact ⟨[], .nil, Except.ok.inj h⟩
    · rintro ⟨os, hos, rfl⟩
      rw [List.forall₂_nil_left_iff.1 hos]
      rfl
  | cons block blocks ih =>
    rw [jobs, Outcome.result_andThen_eq_ok]
    constructor
    · rintro ⟨_ | job, hjob, hrest⟩
      · obtain ⟨os, hos, rfl⟩ := ih.1 hrest
        exact ⟨none :: os, .cons hjob hos, rfl⟩
      · obtain ⟨js', hjs', rfl⟩ := Outcome.result_map_eq_ok.1 hrest
        obtain ⟨os, hos, rfl⟩ := ih.1 hjs'
        exact ⟨some job :: os, .cons hjob hos, rfl⟩
    · rintro ⟨os, hos, rfl⟩
      obtain ⟨o, os, hjob, hrest, rfl⟩ := List.forall₂_cons_left_iff.1 hos
      refine ⟨o, hjob, ?_⟩
      cases o with
      | none => exact ih.2 ⟨os, hrest, rfl⟩
      | some job => exact Outcome.result_map_eq_ok.2 ⟨_, ih.2 ⟨os, hrest, rfl⟩, rfl⟩

/-- The sequential strategy fills the jobs of the blocks, one by one. -/
theorem fillInTurn_eq_ok_iff : (fillInTurn settings root base read blocks).result = .ok fs ↔
    ∃ js, (jobs settings root base blocks).result = .ok js ∧
      List.Forall₂ (Fills settings read) js fs := by
  induction blocks generalizing fs with
  | nil =>
    constructor
    · intro h
      rw [← Except.ok.inj h]
      exact ⟨[], rfl, .nil⟩
    · rintro ⟨js, hjs, hfs⟩
      rw [← Except.ok.inj hjs, List.forall₂_nil_left_iff] at hfs
      rw [hfs]
      rfl
  | cons block blocks ih =>
    rw [fillInTurn, jobs, Outcome.result_andThen_eq_ok]
    simp only [Outcome.result_andThen_eq_ok]
    constructor
    · rintro ⟨_ | job, hjob, hrest⟩
      · obtain ⟨js, hjs, hfs⟩ := ih.1 hrest
        exact ⟨js, ⟨none, hjob, hjs⟩, hfs⟩
      · obtain ⟨filled, hfilled, hrest⟩ := Outcome.result_andThen_eq_ok.1 hrest
        obtain ⟨fs', hfs', rfl⟩ := Outcome.result_map_eq_ok.1 hrest
        obtain ⟨js, hjs, hfs⟩ := ih.1 hfs'
        obtain ⟨content, hcontent, hfill⟩ := Outcome.result_andThen_eq_ok.1 hfilled
        exact ⟨job :: js, ⟨some job, hjob, Outcome.result_map_eq_ok.2 ⟨js, hjs, rfl⟩⟩,
          .cons ⟨content, hcontent, hfill⟩ hfs⟩
    · rintro ⟨js, ⟨_ | job, hjob, hjs⟩, hfs⟩
      · exact ⟨none, hjob, ih.2 ⟨js, hjs, hfs⟩⟩
      · obtain ⟨js', hjs', rfl⟩ := Outcome.result_map_eq_ok.1 hjs
        obtain ⟨filled, fs', ⟨content, hcontent, hfill⟩, hfs', rfl⟩ :=
          List.forall₂_cons_left_iff.1 hfs
        refine ⟨some job, hjob, Outcome.result_andThen_eq_ok.2 ⟨filled, ?_, ?_⟩⟩
        · exact Outcome.result_andThen_eq_ok.2 ⟨content, hcontent, hfill⟩
        · exact Outcome.result_map_eq_ok.2 ⟨fs', ih.2 ⟨js', hjs', hfs'⟩, rfl⟩

/-! ## Reading together -/

variable {order : List Nat} {paths : List Path} {answers : List (Except Failure Text)}

/-- The answers in the order in which the reads end are the answers. -/
theorem mem_answers_iff {answer : Except Failure Text} :
    answer ∈ order.filterMap (answers[·]?) ++ answers ↔ answer ∈ answers := by
  refine ⟨fun h => ?_, List.mem_append_right _⟩
  rcases List.mem_append.1 h with h | h
  · obtain ⟨i, -, hi⟩ := List.mem_filterMap.1 h
    exact List.mem_of_getElem? hi
  · exact h

/-- No read fails first if none fails. -/
theorem firstFailure_eq_none_iff (order : List Nat) (answers : List (Except Failure Text)) :
    firstFailure order answers = none ↔ ∀ answer ∈ answers, ∃ content, answer = .ok content := by
  rw [firstFailure, List.findSome?_eq_none_iff]
  refine forall_congr' fun answer => imp_congr mem_answers_iff ?_
  cases answer with
  | error failure => exact iff_of_false nofun (by rintro ⟨_, ⟨⟩⟩)
  | ok content => exact iff_of_true rfl ⟨content, rfl⟩

/-- All reads end well if each has a content. -/
theorem firstFailure_map_eq_none_iff : firstFailure order (paths.map read) = none ↔
    ∃ contents, List.Forall₂ (fun path content => read path = .ok content) paths contents := by
  rw [firstFailure_eq_none_iff]
  induction paths with
  | nil => exact ⟨fun _ => ⟨[], .nil⟩, fun _ _ h => absurd h List.not_mem_nil⟩
  | cons path paths ih =>
    rw [List.map_cons, List.forall_mem_cons, ih]
    constructor
    · rintro ⟨⟨content, hcontent⟩, contents, hcontents⟩
      exact ⟨content :: contents, .cons hcontent hcontents⟩
    · rintro ⟨_, _ | ⟨hcontent, hcontents⟩⟩
      exact ⟨⟨_, hcontent⟩, _, hcontents⟩

theorem filterMap_toOption
    (h : List.Forall₂ (fun path content => read path = .ok content) paths contents) :
    (paths.map read).filterMap Except.toOption = contents := by
  induction h with
  | nil => rfl
  | @cons path content paths contents hcontent _ ih =>
    rw [List.map_cons, hcontent, List.filterMap_cons, ih]
    rfl

/-- Reads that are issued together have the result that each has alone, in whatever order
    they end. -/
theorem result_requestAll_eq_ok : (requestAll order read paths).result = .ok contents ↔
    List.Forall₂ (fun path content => read path = .ok content) paths contents := by
  unfold requestAll
  cases hfirst : firstFailure order (paths.map read) with
  | none =>
    -- Then the answers are the contents, in the order of the paths and not of the reads.
    obtain ⟨contents', hcontents'⟩ := firstFailure_map_eq_none_iff.1 hfirst
    simp only [hfirst, filterMap_toOption hcontents']
    constructor
    · intro h
      rwa [← Except.ok.inj h]
    · intro h
      rw [← filterMap_toOption hcontents', filterMap_toOption h]
  | some failure =>
    simp only [hfirst]
    refine ⟨fun h => (nomatch h), fun h => ?_⟩
    rw [firstFailure_map_eq_none_iff.2 ⟨_, h⟩] at hfirst
    exact nomatch hfirst

/-- The batch reads the files of the jobs and fills them with what it read. -/
theorem fillTogether_eq_ok_iff :
    ((requestAll order read (js.map Job.path)).andThen fun contents =>
      fillAll settings (js.zip contents)).result = .ok fs ↔
        List.Forall₂ (Fills settings read) js fs := by
  rw [Outcome.result_andThen_eq_ok]
  simp only [result_requestAll_eq_ok]
  induction js generalizing fs with
  | nil =>
    rw [List.forall₂_nil_left_iff]
    constructor
    · rintro ⟨contents, -, hfs⟩
      exact (Except.ok.inj hfs).symm
    · rintro rfl
      exact ⟨[], .nil, rfl⟩
  | cons job js ih =>
    constructor
    · rintro ⟨_, _ | ⟨hcontent, hcontents⟩, hfs⟩
      rw [List.zip_cons_cons, fillAll, Outcome.result_andThen_eq_ok] at hfs
      obtain ⟨filled, hfill, hfs⟩ := hfs
      obtain ⟨fs', hfs', rfl⟩ := Outcome.result_map_eq_ok.1 hfs
      exact .cons ⟨_, hcontent, hfill⟩ (ih.1 ⟨_, hcontents, hfs'⟩)
    · rintro (_ | ⟨⟨content, hcontent, hfill⟩, hrest⟩)
      obtain ⟨contents, hcontents, hfs⟩ := ih.2 hrest
      refine ⟨content :: contents, .cons hcontent hcontents, ?_⟩
      rw [List.zip_cons_cons, fillAll, Outcome.result_andThen_eq_ok]
      exact ⟨_, hfill, Outcome.result_map_eq_ok.2 ⟨_, hfs, rfl⟩⟩

/-! ## Whole passes -/

/-- The filled jobs of a document are its blocks, treated. -/
theorem exists_jobs_iff_exists_treated :
    (∃ js, (jobs settings root base blocks).result = .ok js ∧
      List.Forall₂ (Fills settings read) js fs) ↔
        ∃ treated, List.Forall₂ (Treats settings root base read) blocks treated ∧
          treated.filterMap id = fs := by
  simp only [result_jobs_eq_ok]
  constructor
  · rintro ⟨_, ⟨os, hos, rfl⟩, hfs⟩
    induction hos generalizing fs with
    | nil => exact ⟨[], .nil, (List.forall₂_nil_left_iff.1 hfs).symm⟩
    | @cons block o blocks os hjob _ ih =>
      cases o with
      | none =>
        obtain ⟨treated, htreated, rfl⟩ := ih hfs
        exact ⟨none :: treated, .cons (treats_iff.2 (.inl ⟨hjob, rfl⟩)) htreated, rfl⟩
      | some job =>
        obtain ⟨filled, fs', hfilled, hfs', rfl⟩ := List.forall₂_cons_left_iff.1 hfs
        obtain ⟨treated, htreated, rfl⟩ := ih hfs'
        exact ⟨some filled :: treated,
          .cons (treats_iff.2 (.inr ⟨job, filled, hjob, hfilled, rfl⟩)) htreated, rfl⟩
  · rintro ⟨treated, htreated, rfl⟩
    induction htreated with
    | nil => exact ⟨[], ⟨[], .nil, rfl⟩, .nil⟩
    | cons h _ ih =>
      obtain ⟨_, ⟨os, hos, rfl⟩, hfs⟩ := ih
      rcases treats_iff.1 h with ⟨hjob, rfl⟩ | ⟨job, filled, hjob, hfilled, rfl⟩
      · exact ⟨_, ⟨none :: os, .cons hjob hos, rfl⟩, hfs⟩
      · exact ⟨_, ⟨some job :: os, .cons hjob hos, rfl⟩, .cons hfilled hfs⟩

theorem map_fst_targets (h : List.Forall₂ (Treats settings root base read) blocks treated) :
    (targets blocks treated).map Prod.fst = blocks :=
  List.map_fst_zip (by rw [List.length_map, h.length_eq])

/-- The patches of a pass are those of the blocks with their new bodies. -/
theorem patches_targets (h : List.Forall₂ (Treats settings root base read) blocks treated) :
    CodeBlock.patches (targets blocks treated) = (treated.filterMap id).map Filled.patch := by
  induction h with
  | nil => rfl
  | @cons block o blocks treated htreats _ ih =>
    cases o with
    | none => exact ih
    | some filled =>
      rw [List.filterMap_cons, id_eq, List.map_cons, ← ih, Filled.patch, htreats.block_eq]
      rfl

/-- Writing new bodies back rewrites the lines of the document. -/
theorem replace_eq_ok_iff (hfind : CodeBlock.find text = .ok blocks)
    (h : List.Forall₂ (Treats settings root base read) blocks treated) {text' : Text} :
    Replacement.replace text ((treated.filterMap id).map Filled.patch) = .ok text' ↔
      ∃ ls, CodeBlock.Rewrites 0 (targets blocks treated) (Text.lines text) ls ∧
        text' = Text.unlines ls := by
  rw [← patches_targets h]
  exact CodeBlock.replace_patches_eq_ok_iff (hfind.trans (congrArg _ (map_fst_targets h).symm))

theorem IsResult.find_eq {result : Imported}
    (h : IsResult settings root base read text blocks treated result) :
    CodeBlock.find text = .ok ((targets blocks treated).map Prod.fst) :=
  h.blocks_eq.trans (congrArg _ (map_fst_targets h.treats).symm)

/-- The result has the lines that patching the blocks gives. -/
theorem IsResult.replace_eq {result : Imported}
    (h : IsResult settings root base read text blocks treated result) :
    Replacement.replace text (CodeBlock.patches (targets blocks treated)) = .ok result.text :=
  (CodeBlock.replace_patches_eq_ok_iff h.find_eq).2 h.rewrites

/-- A pass that fills the blocks as they are to be treated has the right result. -/
theorem exists_isResult_iff {result : Imported} :
    (∃ blocks fs, CodeBlock.find text = .ok blocks ∧
      (∃ js, (jobs settings root base blocks).result = .ok js ∧
        List.Forall₂ (Fills settings read) js fs) ∧ (finish text fs).result = .ok result) ↔
          ∃ blocks treated, IsResult settings root base read text blocks treated result := by
  simp only [exists_jobs_iff_exists_treated]
  constructor
  · rintro ⟨blocks, _, hblocks, ⟨treated, htreated, rfl⟩, hfinish⟩
    obtain ⟨text', htext', rfl⟩ := map_eq_ok.1 hfinish
    refine ⟨blocks, treated, hblocks, htreated, (replace_eq_ok_iff hblocks htreated).1 htext', ?_,
      rfl⟩
    rw [List.length_filterMap_eq_countP]
    rfl
  · rintro ⟨blocks, treated, hblocks, htreated, hrewrites, hcount, hdiagnostics⟩
    refine ⟨blocks, _, hblocks, ⟨treated, htreated, rfl⟩,
      map_eq_ok.2 ⟨_, (replace_eq_ok_iff hblocks htreated).2 hrewrites, ?_⟩⟩
    obtain ⟨text', count, diagnostics⟩ := result
    rw [List.length_filterMap_eq_countP]
    exact congrArg₂ (Imported.mk text') hcount.symm hdiagnostics.symm

theorem sequential_eq_ok_iff {result : Imported} :
    (sequential settings root read base text).result = .ok result ↔
      ∃ blocks treated, IsResult settings root base read text blocks treated result := by
  rw [← exists_isResult_iff, sequential, Outcome.result_andThen_eq_ok]
  simp only [Outcome.result_andThen_eq_ok, fillInTurn_eq_ok_iff]
  constructor
  · rintro ⟨fs, ⟨blocks, hblocks, hfs⟩, hfinish⟩
    exact ⟨blocks, fs, hblocks, hfs, hfinish⟩
  · rintro ⟨blocks, fs, hblocks, hfs, hfinish⟩
    exact ⟨fs, ⟨blocks, hblocks, hfs⟩, hfinish⟩

theorem batch_eq_ok_iff {result : Imported} :
    (batch order settings root read base text).result = .ok result ↔
      ∃ blocks treated, IsResult settings root base read text blocks treated result := by
  rw [← exists_isResult_iff, batch, Outcome.result_andThen_eq_ok]
  constructor
  · rintro ⟨fs, htogether, hfinish⟩
    obtain ⟨js, hjobs, hfs⟩ := Outcome.result_andThen_eq_ok.1 htogether
    obtain ⟨blocks, hblocks, hjs⟩ := Outcome.result_andThen_eq_ok.1 hjobs
    exact ⟨blocks, fs, hblocks, ⟨js, hjs, fillTogether_eq_ok_iff.1 hfs⟩, hfinish⟩
  · rintro ⟨blocks, fs, hblocks, ⟨js, hjs, hfs⟩, hfinish⟩
    refine ⟨fs, Outcome.result_andThen_eq_ok.2 ⟨js, ?_, ?_⟩, hfinish⟩
    · exact Outcome.result_andThen_eq_ok.2 ⟨blocks, hblocks, hjs⟩
    · exact fillTogether_eq_ok_iff.2 hfs

/-- A pass has a result exactly if it is right. -/
theorem document_eq_ok_iff {path : Option Path} {result : Imported} :
    (document settings root read path text).result = .ok result ↔
      ∃ blocks treated,
        IsResult settings root (baseDirectory path) read text blocks treated result := by
  rw [document]
  split
  · exact batch_eq_ok_iff
  · exact sequential_eq_ok_iff

end Import

end Transclude
