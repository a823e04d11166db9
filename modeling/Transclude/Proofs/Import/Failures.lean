import Transclude.Proofs.Frame
import Transclude.Proofs.Import.Reads
import Transclude.Proofs.Import.Strategies

/-!
# What a failing pass has read

A block can fail in two ways. It is *refused* if its directive is malformed or means a file
outside the root directory; this is seen without reading anything. Otherwise it asks for the
path of a file, and the read of that path can fail. What a pass does up to its failure follows
from this alone.

The batch looks for refused blocks first: if there is one, the first of them in the document is
the failure, and nothing was read. The sequential strategy has read the files of all blocks
before the first that fails, and the file of that block itself if it is the read that fails.
Writing the bodies back never fails, so a pass in which no block fails has a result, and a pass
in which one does has none.

* `Import.refusal?`, `Import.path?`, `Import.fault?`: how a block fails, and what it asks for;
* `Import.fillInTurn_of_faults`: block after block;
* `Import.reads_and_failures`: both strategies.
-/

namespace Transclude

variable {α β : Type}

/-! ## Traces and failures of outcomes -/

namespace Outcome

variable {o : Outcome α} {f : α → β} {before : Trace} {a : α}
  {failure : Failure}

@[simp] theorem reads_after :
    (o.after before).trace.reads = before.reads ++ o.trace.reads := rfl

@[simp] theorem trace_map : (o.map f).trace = o.trace := rfl

theorem reads_andThen_of_ok (h : o.result = .ok a) (next : α → Outcome β) :
    (o.andThen next).trace.reads = o.trace.reads ++ (next a).trace.reads := by
  rw [andThen, h]
  rfl

theorem andThen_of_error (h : o.result = .error failure) (next : α → Outcome β) :
    (o.andThen next).result = .error failure ∧ (o.andThen next).trace = o.trace := by
  rw [andThen, h]
  exact ⟨rfl, rfl⟩

theorem result_andThen_of_ok (h : o.result = .ok a) (next : α → Outcome β) :
    (o.andThen next).result = (next a).result := by
  rw [result_andThen, h]
  rfl

theorem result_map_eq_error : (o.map f).result = .error failure ↔ o.result = .error failure := by
  rw [result_map]
  cases o.result with
  | error failed => exact ⟨fun h => congrArg Except.error (Except.error.inj h),
      fun h => congrArg Except.error (Except.error.inj h)⟩
  | ok a => exact ⟨nofun, nofun⟩

end Outcome

namespace Import

variable {settings : Settings} {root : Text} {base : Path} {read : Reader} {text : Text}
  {block : CodeBlock} {blocks : List CodeBlock} {js : List Job} {job : Job}
  {failure : Failure} {order : List Nat}

/-! ## How a block fails -/

/-- Why a block is refused, if it is: its directive is malformed, or the file that it means is
    not within the root directory. -/
def refusal? (settings : Settings) (root : Text) (base : Path) (block : CodeBlock) :
    Option Failure :=
  match Directive.ofMetadata settings.grammar (block.metadata.getD []) with
  | .error failure => some failure
  | .ok none => none
  | .ok (some directive) =>
    match Sandbox.resolve settings.grammar.rootToken root settings.allowsOutside base
      directive.path with
    | .error failure => some failure
    | .ok _ => none

/-- The path that a block asks for, if it has a directive and is not refused. -/
def path? (settings : Settings) (root : Text) (base : Path) (block : CodeBlock) : Option Path :=
  match Directive.ofMetadata settings.grammar (block.metadata.getD []) with
  | .ok (some directive) => (Sandbox.resolve settings.grammar.rootToken root
      settings.allowsOutside base directive.path).toOption
  | _ => none

/-- How a read fails, if it does. -/
def readFailure? (read : Reader) (path : Path) : Option Failure :=
  match read path with
  | .error failure => some failure
  | .ok _ => none

/-- How a block fails, if it does: it is refused, or its file cannot be read. -/
def fault? (settings : Settings) (root : Text) (base : Path) (read : Reader)
    (block : CodeBlock) : Option Failure :=
  (refusal? settings root base block).or
    ((path? settings root base block).bind (readFailure? read))

/-- A job is made of a block unless it is refused or has no directive. -/
theorem job?_cases (settings : Settings) (root : Text) (base : Path) (block : CodeBlock) :
    (job? settings root base block).trace.reads = [] ∧
      ((∃ failure, (job? settings root base block).result = .error failure ∧
          refusal? settings root base block = some failure ∧
            path? settings root base block = none) ∨
        ((job? settings root base block).result = .ok none ∧
          refusal? settings root base block = none ∧ path? settings root base block = none) ∨
        ∃ job, (job? settings root base block).result = .ok (some job) ∧
          refusal? settings root base block = none ∧
            path? settings root base block = some job.path) := by
  rw [job?, refusal?, path?]
  cases Directive.ofMetadata settings.grammar (block.metadata.getD []) with
  | error failure => exact ⟨rfl, .inl ⟨failure, rfl, rfl, rfl⟩⟩
  | ok directive? =>
    cases directive? with
    | none => exact ⟨rfl, .inr (.inl ⟨rfl, rfl, rfl⟩)⟩
    | some directive =>
      dsimp only
      rw [resolve]
      cases Sandbox.resolve settings.grammar.rootToken root settings.allowsOutside base
        directive.path with
      | error failure => exact ⟨rfl, .inl ⟨failure, rfl, rfl, rfl⟩⟩
      | ok path => exact ⟨rfl, .inr (.inr ⟨_, rfl, rfl, rfl⟩)⟩

/-- Filling a block reads the path of its job, and fails only as this read does. -/
theorem request_fill_cases (settings : Settings) (read : Reader) (job : Job) {before : Trace}
    (hbefore : before.reads = []) :
    (((request read job.path).andThen (fill settings job)).after before).trace.reads =
        [job.path] ∧
      ((∃ failure, (((request read job.path).andThen (fill settings job)).after before).result =
            .error failure ∧ readFailure? read job.path = some failure) ∨
        ∃ filled, (((request read job.path).andThen (fill settings job)).after before).result =
            .ok filled ∧ readFailure? read job.path = none) := by
  rw [Outcome.reads_after, hbefore, List.nil_append, readFailure?]
  cases hread : read job.path with
  | error failure =>
    obtain ⟨hresult, htrace⟩ :=
      Outcome.andThen_of_error (o := request read job.path) hread (fill settings job)
    exact ⟨congrArg Trace.reads htrace, .inl ⟨failure, hresult, rfl⟩⟩
  | ok content =>
    exact ⟨Outcome.reads_andThen_of_ok hread _,
      .inr ⟨_, Outcome.result_andThen_of_ok hread _, rfl⟩⟩

/-! ## Block after block -/

/-- The paths that are read when blocks are handled one after the other: those of the blocks
    before the first that fails, and its own if it asks for one. -/
def readsInTurn (settings : Settings) (root : Text) (base : Path) (read : Reader)
    (blocks : List CodeBlock) : List Path :=
  (blocks.takeWhile fun block => (fault? settings root base read block).isNone).filterMap
      (path? settings root base) ++
    ((blocks.find? fun block => (fault? settings root base read block).isSome).bind
      (path? settings root base)).toList

theorem readsInTurn_cons_of_none (h : fault? settings root base read block = none) :
    readsInTurn settings root base read (block :: blocks) =
      (path? settings root base block).toList ++ readsInTurn settings root base read blocks := by
  rw [readsInTurn, readsInTurn, List.takeWhile_cons_of_pos (by rw [h]; rfl),
    List.find?_cons_of_neg (by rw [h]; exact Bool.false_ne_true), List.filterMap_cons]
  cases path? settings root base block <;> rfl

theorem readsInTurn_cons_of_some (h : fault? settings root base read block = some failure) :
    readsInTurn settings root base read (block :: blocks) =
      (path? settings root base block).toList := by
  rw [readsInTurn, List.takeWhile_cons_of_neg (by rw [h]; exact Bool.false_ne_true),
    List.find?_cons_of_pos (by rw [h]; rfl)]
  rfl

/-- The first block that fails decides what is read and how the blocks fail. -/
theorem fillInTurn_of_faults (settings : Settings) (root : Text) (base : Path) (read : Reader)
    (blocks : List CodeBlock) :
    (fillInTurn settings root base read blocks).trace.reads =
        readsInTurn settings root base read blocks ∧
      ∀ failure, (fillInTurn settings root base read blocks).result = .error failure ↔
        blocks.findSome? (fault? settings root base read) = some failure := by
  induction blocks with
  | nil => exact ⟨rfl, fun failure => ⟨nofun, nofun⟩⟩
  | cons block blocks ih =>
    rw [fillInTurn]
    obtain ⟨hreads, ⟨refused, hjob, hrefusal, hpath⟩ | ⟨hjob, hrefusal, hpath⟩ |
      ⟨job, hjob, hrefusal, hpath⟩⟩ := job?_cases settings root base block
    · -- The block is refused.
      have hfault : fault? settings root base read block = some refused := by
        rw [fault?, hrefusal]
        rfl
      obtain ⟨hresult, htrace⟩ := Outcome.andThen_of_error hjob _
      rw [hresult, htrace, hreads, readsInTurn_cons_of_some hfault, hpath,
        List.findSome?_cons, hfault]
      exact ⟨rfl, fun failure => ⟨fun h => congrArg some (Except.error.inj h),
        fun h => congrArg Except.error (Option.some.inj h)⟩⟩
    · -- The block has no directive.
      have hfault : fault? settings root base read block = none := by
        rw [fault?, hrefusal, hpath]
        rfl
      rw [Outcome.reads_andThen_of_ok hjob, Outcome.result_andThen_of_ok hjob, hreads,
        readsInTurn_cons_of_none hfault, hpath, List.findSome?_cons, hfault]
      exact ih
    · -- The block asks for a path.
      rw [Outcome.reads_andThen_of_ok hjob, Outcome.result_andThen_of_ok hjob, hreads,
        List.nil_append]
      have hfault : fault? settings root base read block = readFailure? read job.path := by
        rw [fault?, hrefusal, hpath, Option.none_or, Option.bind_some]
      obtain ⟨hread, ⟨failed, hfailed, hfailure⟩ | ⟨filled, hfilled, hfailure⟩⟩ :=
        request_fill_cases settings read job
          (show (note 2 s!"Importing {String.ofList job.path.toText}").reads = [] from rfl)
      · rw [hfailure] at hfault
        obtain ⟨hresult, htrace⟩ := Outcome.andThen_of_error hfailed
          fun filled => (fillInTurn settings root base read blocks).map (filled :: ·)
        rw [hresult, htrace, readsInTurn_cons_of_some hfault, hpath, List.findSome?_cons, hfault]
        exact ⟨hread, fun failure => ⟨fun h => congrArg some (Except.error.inj h),
          fun h => congrArg Except.error (Option.some.inj h)⟩⟩
      · rw [hfailure] at hfault
        rw [Outcome.reads_andThen_of_ok hfilled, Outcome.result_andThen_of_ok hfilled,
          readsInTurn_cons_of_none hfault, hpath, List.findSome?_cons, hfault, hread,
          Outcome.trace_map, ih.1]
        exact ⟨rfl, fun failure => Outcome.result_map_eq_error.trans (ih.2 failure)⟩

/-! ## All blocks first -/

/-- The first block that is refused is the failure; otherwise there is a job for each block
    that asks for a path. -/
theorem jobs_of_refusals (settings : Settings) (root : Text) (base : Path)
    (blocks : List CodeBlock) :
    (jobs settings root base blocks).trace.reads = [] ∧
      (∀ failure, blocks.findSome? (refusal? settings root base) = some failure →
        (jobs settings root base blocks).result = .error failure) ∧
      (blocks.findSome? (refusal? settings root base) = none →
        ∃ js, (jobs settings root base blocks).result = .ok js ∧
          js.map Job.path = blocks.filterMap (path? settings root base)) := by
  induction blocks with
  | nil => exact ⟨rfl, by rintro _ ⟨⟩, fun _ => ⟨[], rfl, rfl⟩⟩
  | cons block blocks ih =>
    obtain ⟨ihreads, iherror, ihok⟩ := ih
    rw [jobs, List.findSome?_cons, List.filterMap_cons]
    obtain ⟨hreads, ⟨refused, hjob, hrefusal, hpath⟩ | ⟨hjob, hrefusal, hpath⟩ |
      ⟨job, hjob, hrefusal, hpath⟩⟩ := job?_cases settings root base block
    · -- A block that is refused ends the pass: the blocks after it do not matter.
      obtain ⟨hresult, htrace⟩ := Outcome.andThen_of_error hjob _
      rw [hresult, htrace, hreads, hrefusal]
      exact ⟨rfl, fun failure h => congrArg Except.error (Option.some.inj h), by rintro ⟨⟩⟩
    · rw [Outcome.reads_andThen_of_ok hjob, Outcome.result_andThen_of_ok hjob, hreads, hrefusal,
        hpath]
      exact ⟨ihreads, iherror, ihok⟩
    · rw [Outcome.reads_andThen_of_ok hjob, Outcome.result_andThen_of_ok hjob, hreads, hrefusal,
        hpath]
      refine ⟨ihreads, fun failure h => Outcome.result_map_eq_error.2 (iherror failure h),
        fun h => ?_⟩
      obtain ⟨js, hjs, hpaths⟩ := ihok h
      exact ⟨job :: js, Outcome.result_map_eq_ok.2 ⟨js, hjs, rfl⟩,
        congrArg (job.path :: ·) hpaths⟩

/-- Reads that are issued together fail with the failure of one of them. -/
theorem exists_of_result_requestAll {paths : List Path}
    (h : (requestAll order read paths).result = .error failure) :
    ∃ path ∈ paths, read path = .error failure := by
  rw [requestAll] at h
  split at h
  · rename_i failed hfirst
    rw [firstFailure] at hfirst
    obtain ⟨answer, hanswer, hfailed⟩ := List.exists_of_findSome?_eq_some hfirst
    -- Whichever read ends first, its answer is one of the answers.
    have hmem : answer ∈ paths.map read := mem_answers_iff.1 hanswer
    obtain ⟨path, hpath, rfl⟩ := List.mem_map.1 hmem
    refine ⟨path, hpath, ?_⟩
    cases hread : read path with
    | error found =>
      rw [hread] at hfailed
      rw [← Except.error.inj h]
      exact congrArg Except.error (Option.some.inj hfailed)
    | ok content =>
      rw [hread] at hfailed
      cases hfailed
  · cases h

theorem fillAll_ok (settings : Settings) (work : List (Job × Text)) :
    (fillAll settings work).trace.reads = [] ∧ ∃ fs, (fillAll settings work).result = .ok fs := by
  induction work with
  | nil => exact ⟨rfl, [], rfl⟩
  | cons work rest ih =>
    obtain ⟨job, content⟩ := work
    obtain ⟨hreads, fs, hfs⟩ := ih
    rw [fillAll, Outcome.reads_andThen_of_ok (result_fill settings job content), Outcome.trace_map,
      hreads, Outcome.result_andThen_of_ok (result_fill settings job content)]
    exact ⟨rfl, _, Outcome.result_map_eq_ok.2 ⟨fs, hfs, rfl⟩⟩

/-! ## Writing back -/

/-- The new bodies of the blocks of a document can be written back. -/
theorem exists_finish (hfind : CodeBlock.find text = .ok blocks)
    (hjs : (jobs settings root base blocks).result = .ok js) {fs : List Filled}
    (hfs : List.Forall₂ (Fills settings read) js fs) :
    ∃ imported, (finish text fs).result = .ok imported := by
  obtain ⟨treated, htreated, rfl⟩ := exists_jobs_iff_exists_treated.1 ⟨js, hjs, hfs⟩
  have hreplace :=
    CodeBlock.replace_patches (hfind.trans (congrArg _ (map_fst_targets htreated).symm))
  rw [patches_targets htreated] at hreplace
  exact ⟨_, map_eq_ok.2 ⟨_, hreplace, rfl⟩⟩

/-! ## Whole passes -/

theorem sequential_of_faults (settings : Settings) (root : Text) (base : Path) (read : Reader)
    (hfind : CodeBlock.find text = .ok blocks) :
    (sequential settings root read base text).trace.reads =
        readsInTurn settings root base read blocks ∧
      (∀ failure, (sequential settings root read base text).result = .error failure ↔
        blocks.findSome? (fault? settings root base read) = some failure) ∧
      ((∃ imported, (sequential settings root read base text).result = .ok imported) ↔
        blocks.findSome? (fault? settings root base read) = none) := by
  obtain ⟨hreads, herror⟩ := fillInTurn_of_faults settings root base read blocks
  have hblocks : (Import.blocks text).result = .ok blocks := hfind
  have hreads' := Outcome.reads_andThen_of_ok hblocks (fillInTurn settings root base read)
  have hresult' := Outcome.result_andThen_of_ok hblocks (fillInTurn settings root base read)
  rw [sequential]
  cases hresult : (fillInTurn settings root base read blocks).result with
  | error failed =>
    obtain ⟨hresult'', htrace⟩ := Outcome.andThen_of_error (hresult'.trans hresult) (finish text)
    rw [hresult'', htrace, hreads', hreads, (herror failed).1 hresult]
    exact ⟨rfl, fun failure => ⟨fun h => congrArg some (Except.error.inj h),
      fun h => congrArg Except.error (Option.some.inj h)⟩,
      iff_of_false (by rintro ⟨_, ⟨⟩⟩) (Option.some_ne_none failed)⟩
  | ok fs =>
    -- All blocks are filled. Then writing back succeeds, so that no other failure can come.
    obtain ⟨js, hjs, hfs⟩ := fillInTurn_eq_ok_iff.1 hresult
    obtain ⟨imported, hfinish⟩ := exists_finish hfind hjs hfs
    have hnone : blocks.findSome? (fault? settings root base read) = none := by
      cases hfault : blocks.findSome? (fault? settings root base read) with
      | none => rfl
      | some failure => cases hresult.symm.trans ((herror failure).2 hfault)
    rw [Outcome.reads_andThen_of_ok (hresult'.trans hresult),
      Outcome.result_andThen_of_ok (hresult'.trans hresult), hfinish, hreads', hreads, hnone]
    exact ⟨List.append_nil _, fun failure => iff_of_false (by rintro ⟨⟩) (by rintro ⟨⟩),
      fun _ => rfl, fun _ => ⟨_, rfl⟩⟩

/-- The files of jobs are read together, and their blocks filled. -/
def fillTogether (order : List Nat) (settings : Settings) (read : Reader) (js : List Job) :
    Outcome (List Filled) :=
  ((requestAll order read (js.map Job.path)).andThen fun contents =>
    fillAll settings (js.zip contents)).after
      (note 2 s!"Reading {js.length} files concurrently")

theorem reads_fillTogether (order : List Nat) (settings : Settings) (read : Reader)
    (js : List Job) : (fillTogether order settings read js).trace.reads = js.map Job.path := by
  have hreads := reads_requestAll order read (js.map Job.path)
  rw [fillTogether, Outcome.reads_after]
  cases hrequest : (requestAll order read (js.map Job.path)).result with
  | error failed => rw [(Outcome.andThen_of_error hrequest _).2, hreads]; rfl
  | ok contents =>
    rw [Outcome.reads_andThen_of_ok hrequest, hreads, (fillAll_ok settings _).1, List.append_nil]
    rfl

theorem batch_eq (order : List Nat) (settings : Settings) (root : Text) (read : Reader)
    (base : Path) (text : Text) : batch order settings root read base text =
      (((Import.blocks text).andThen (jobs settings root base)).andThen
        (fillTogether order settings read)).andThen (finish text) := rfl

theorem batch_of_refusal (hfind : CodeBlock.find text = .ok blocks)
    (h : blocks.findSome? (refusal? settings root base) = some failure) :
    (batch order settings root read base text).trace.reads = [] ∧
      (batch order settings root read base text).result = .error failure := by
  obtain ⟨hreads, herror, -⟩ := jobs_of_refusals settings root base blocks
  have hblocks : (Import.blocks text).result = .ok blocks := hfind
  have hjobs := (Outcome.result_andThen_of_ok hblocks (jobs settings root base)).trans
    (herror failure h)
  obtain ⟨hresult, htrace⟩ := Outcome.andThen_of_error hjobs
    (fillTogether order settings read)
  obtain ⟨hresult', htrace'⟩ := Outcome.andThen_of_error hresult (finish text)
  rw [batch_eq, hresult', htrace', htrace, Outcome.reads_andThen_of_ok hblocks, hreads]
  exact ⟨rfl, rfl⟩

theorem batch_of_no_refusal (hfind : CodeBlock.find text = .ok blocks)
    (h : blocks.findSome? (refusal? settings root base) = none) :
    (batch order settings root read base text).trace.reads =
        blocks.filterMap (path? settings root base) ∧
      (∀ failure, (batch order settings root read base text).result = .error failure →
        ∃ path ∈ blocks.filterMap (path? settings root base), read path = .error failure) ∧
      ((∃ imported, (batch order settings root read base text).result = .ok imported) ↔
        ∀ path ∈ blocks.filterMap (path? settings root base), ∃ content,
          read path = .ok content) := by
  obtain ⟨hreads, -, hok⟩ := jobs_of_refusals settings root base blocks
  obtain ⟨js, hjs, hpaths⟩ := hok h
  have hblocks : (Import.blocks text).result = .ok blocks := hfind
  have hjobs := (Outcome.result_andThen_of_ok hblocks (jobs settings root base)).trans hjs
  have hstageReads : (((Import.blocks text).andThen (jobs settings root base)).andThen
      (fillTogether order settings read)).trace.reads = js.map Job.path := by
    rw [Outcome.reads_andThen_of_ok hjobs, Outcome.reads_andThen_of_ok hblocks, hreads,
      reads_fillTogether]
    rfl
  have hstage := Outcome.result_andThen_of_ok hjobs (fillTogether order settings read)
  rw [batch_eq, ← hpaths]
  cases hrequest : (requestAll order read (js.map Job.path)).result with
  | error failed =>
    -- Some read fails, and no block is filled.
    obtain ⟨path, hpath, hread⟩ := exists_of_result_requestAll hrequest
    obtain ⟨hresult, htrace⟩ := Outcome.andThen_of_error
      (hstage.trans (Outcome.andThen_of_error hrequest _).1) (finish text)
    rw [hresult, htrace, hstageReads]
    refine ⟨rfl, fun failure hfailure => ⟨path, hpath, ?_⟩, nofun, fun hall => ?_⟩
    · rw [hread, Except.error.inj hfailure]
    · obtain ⟨content, hcontent⟩ := hall path hpath
      exact nomatch hread.symm.trans hcontent
  | ok contents =>
    -- All reads succeed. Filling reads nothing more, and neither it nor writing back fails.
    obtain ⟨hfillReads, fs, hfill⟩ := fillAll_ok settings (js.zip contents)
    have hfilled : (fillTogether order settings read js).result = .ok fs :=
      (Outcome.result_andThen_of_ok hrequest _).trans hfill
    obtain ⟨imported, hfinish⟩ := exists_finish hfind hjs (fillTogether_eq_ok_iff.1 hfilled)
    rw [Outcome.reads_andThen_of_ok (hstage.trans hfilled),
      Outcome.result_andThen_of_ok (hstage.trans hfilled), hstageReads, hfinish]
    refine ⟨List.append_nil _, nofun, fun _ path hpath => ?_, fun _ => ⟨imported, rfl⟩⟩
    obtain ⟨content, -, hcontent⟩ :=
      exists_of_forall₂ (result_requestAll_eq_ok.1 hrequest).flip hpath
    exact ⟨content, hcontent⟩

/-- Both strategies, for a document whose code blocks can be found. The batch reads nothing if a
    block is refused, and fails as the first such block does; otherwise it issues the read of the
    path of each block that asks for one, and fails, if reads do, as one of them does. The
    sequential strategy reads the paths of the blocks before the first that fails, and its own if
    it asks for one, and fails as it does. Either returns a document only if no block fails. -/
theorem reads_and_failures (settings : Settings) (root : Text) (base : Path) (read : Reader)
    (order : List Nat) (hfind : CodeBlock.find text = .ok blocks) :
    let together := batch order settings root read base text
    let inTurn := sequential settings root read base text
    let paths := blocks.filterMap (path? settings root base)
    (∀ failure, blocks.findSome? (refusal? settings root base) = some failure →
        together.trace.reads = [] ∧ together.result = .error failure) ∧
      (blocks.findSome? (refusal? settings root base) = none →
        together.trace.reads = paths ∧
          (∀ failure, together.result = .error failure →
            ∃ path ∈ paths, read path = .error failure) ∧
          ((∃ imported, together.result = .ok imported) ↔
            ∀ path ∈ paths, ∃ content, read path = .ok content)) ∧
      inTurn.trace.reads =
        (blocks.takeWhile fun block =>
            (fault? settings root base read block).isNone).filterMap (path? settings root base) ++
          ((blocks.find? fun block => (fault? settings root base read block).isSome).bind
            (path? settings root base)).toList ∧
      (∀ failure, inTurn.result = .error failure ↔
        blocks.findSome? (fault? settings root base read) = some failure) ∧
      ((∃ imported, inTurn.result = .ok imported) ↔
        blocks.findSome? (fault? settings root base read) = none) := by
  obtain ⟨hreads, herror, hok⟩ := sequential_of_faults settings root base read hfind
  exact ⟨fun failure h => batch_of_refusal hfind h, fun h => batch_of_no_refusal hfind h, hreads,
    herror, hok⟩

/-- A document with a block without directive, one whose file cannot be read and one that means
    a file outside the root directory: the strategies fail in different ways. In a document
    without a refused block the batch issues all reads, and fails as one of them does. -/
theorem reads_and_failures_of_two_faults :
    let root : Text := "/srv".toList
    let base := baseDirectory (some (Path.ofText "/srv/docs/a.md".toList))
    let missing (path : Path) := Failure.unreadable path.toText (.refused .notFound)
    let read : Reader := fun path => .error (missing path)
    let block (metadata : Option Text) (start : Nat) : CodeBlock :=
      { lang := metadata.map fun _ => ['x'], metadata, value := [], startLine := start,
        endLine := start + 2, markup := "~~~".toList }
    let b := Path.ofText "/srv/docs/b".toList
    let c := Path.ofText "/srv/docs/c".toList
    let text : Text := "~~~\n~~~\n\n~~~x file=b\n~~~\n\n~~~x file=../../c\n~~~\n".toList
    let text' : Text := "~~~x file=b\n~~~\n\n~~~x file=c\n~~~\n".toList
    (CodeBlock.find text = .ok [block none 0, block (some "file=b".toList) 3,
        block (some "file=../../c".toList) 6] ∧
      (batch [] {} root read base text).trace.reads = [] ∧
      (batch [] {} root read base text).result = .error (.outsideRoot "/c".toList root) ∧
      (sequential {} root read base text).trace.reads = [b] ∧
      (sequential {} root read base text).result = .error (missing b)) ∧
    CodeBlock.find text' = .ok [block (some "file=b".toList) 0, block (some "file=c".toList) 3] ∧
      ∀ order, (batch order {} root read base text').trace.reads = [b, c] ∧
        ∃ path ∈ [b, c], (batch order {} root read base text').result = .error (missing path) := by
  intro root base missing read block b c text text'
  have hfind : CodeBlock.find text = .ok [block none 0, block (some "file=b".toList) 3,
      block (some "file=../../c".toList) 6] := by decide +kernel
  have hfind' : CodeBlock.find text' =
      .ok [block (some "file=b".toList) 0, block (some "file=c".toList) 3] := by decide +kernel
  have hpaths : [block (some "file=b".toList) 0, block (some "file=c".toList) 3].filterMap
      (path? {} root base) = [b, c] := by decide +kernel
  refine ⟨?_, hfind', fun order => ?_⟩
  · obtain ⟨hrefused, -, hreads, herror, -⟩ := reads_and_failures {} root base read [] hfind
    obtain ⟨hnone, hresult⟩ := hrefused (.outsideRoot "/c".toList root) (by decide +kernel)
    refine ⟨hfind, hnone, hresult, ?_, (herror (missing b)).2 (by decide +kernel)⟩
    rw [hreads]
    decide +kernel
  · obtain ⟨-, hissued, -⟩ := reads_and_failures {} root base read order hfind'
    rw [hpaths] at hissued
    obtain ⟨hreads, herror, hok⟩ := hissued (by decide +kernel)
    refine ⟨hreads, ?_⟩
    cases hresult : (batch order {} root read base text').result with
    | error failure =>
      obtain ⟨path, hpath, hread⟩ := herror failure hresult
      exact ⟨path, hpath, by rw [← Except.error.inj hread]⟩
    | ok imported =>
      obtain ⟨content, hcontent⟩ := hok.1 ⟨imported, hresult⟩ b List.mem_cons_self
      exact nomatch hcontent

end Import

end Transclude
