import Transclude.Proofs.Import.Outcome
import Transclude.Proofs.Sandbox

/-!
# What a pass reads

A pass issues the read of a path only after the sandbox let it through, whichever strategy
it follows and whether it has a result or not. So it asks for paths within the root
directory only, and readers that agree on these cannot be told apart.

* `Import.asks_sequential`, `Import.asks_batch`: what either strategy asks for;
* `Import.reads_within_root`: neither reads, or depends on, anything outside.
-/

namespace Transclude

namespace Import

variable {settings : Settings} {root : Text} {base : Path} {read read' : Reader} {text : Text}
  {block : CodeBlock} {blocks : List CodeBlock} {js : List Job} {job : Job}
  {order : List Nat} {P : Path → Prop}

/-- The paths that a directive can be resolved to are of the kind `P`. -/
def Resolves (settings : Settings) (root : Text) (base : Path) (P : Path → Prop) : Prop :=
  ∀ t path, Sandbox.resolve settings.grammar.rootToken root settings.allowsOutside base t =
    .ok path → P path

/-! ## Jobs -/

theorem reads_resolve (directive : Directive) :
    (resolve settings root base directive).trace.reads = [] := by
  unfold resolve
  split <;> rfl

/-- Making a job asks for nothing. -/
theorem asks_job? (settings : Settings) (root : Text) (base : Path) (block : CodeBlock)
    (P : Path → Prop) : (job? settings root base block).Asks P := by
  unfold job?
  split
  · exact Outcome.asks_of_reads_eq_nil rfl
  · exact Outcome.asks_of_reads_eq_nil rfl
  · refine Outcome.Asks.after (fun _ h => absurd h List.not_mem_nil) (Outcome.Asks.map ?_)
    exact Outcome.asks_of_reads_eq_nil (reads_resolve _)

theorem path_of_job? (hP : Resolves settings root base P)
    (h : (job? settings root base block).result = .ok (some job)) : P job.path := by
  unfold job? at h
  split at h
  · exact nomatch h
  · exact nomatch h
  · rename_i directive _
    obtain ⟨path, hpath, hjob⟩ := Outcome.result_map_eq_ok.1 h
    rw [← Option.some.inj hjob]
    unfold resolve at hpath
    split at hpath
    · exact nomatch hpath
    · rename_i hresolve
      rw [← Except.ok.inj hpath]
      exact hP _ _ hresolve

/-- Making jobs asks for nothing, and their paths are of the right kind. -/
theorem asks_jobs (settings : Settings) (root : Text) (base : Path) (blocks : List CodeBlock)
    (P : Path → Prop) : (jobs settings root base blocks).Asks P := by
  induction blocks with
  | nil => exact Outcome.asks_of_reads_eq_nil rfl
  | cons block blocks ih =>
    refine Outcome.Asks.andThen (asks_job? settings root base block P) fun o _ => ?_
    cases o with
    | none => exact ih
    | some job => exact Outcome.Asks.map ih

theorem path_of_mem_jobs (hP : Resolves settings root base P)
    (h : (jobs settings root base blocks).result = .ok js) : ∀ job ∈ js, P job.path := by
  induction blocks generalizing js with
  | nil =>
    rw [← Except.ok.inj h]
    exact fun _ hjob => absurd hjob List.not_mem_nil
  | cons block blocks ih =>
    obtain ⟨_ | job, hjob, hrest⟩ := Outcome.result_andThen_eq_ok.1 h
    · exact ih hrest
    · obtain ⟨js', hjs', rfl⟩ := Outcome.result_map_eq_ok.1 hrest
      exact List.forall_mem_cons.2 ⟨path_of_job? hP hjob, ih hjs'⟩

/-! ## The sequential strategy -/

theorem asks_fill (settings : Settings) (job : Job) (content : Text) (P : Path → Prop) :
    (fill settings job content).Asks P :=
  Outcome.asks_of_reads_eq_nil rfl

theorem asks_request {path : Path} (h : P path) : (request read path).Asks P := by
  intro asked hasked
  rw [List.mem_singleton.1 hasked]
  exact h

theorem asks_fillInTurn (hP : Resolves settings root base P) (read : Reader)
    (blocks : List CodeBlock) : (fillInTurn settings root base read blocks).Asks P := by
  induction blocks with
  | nil => exact Outcome.asks_of_reads_eq_nil rfl
  | cons block blocks ih =>
    refine Outcome.Asks.andThen (asks_job? settings root base block P) fun o ho => ?_
    cases o with
    | none => exact ih
    | some job =>
      refine Outcome.Asks.andThen ?_ fun _ _ => Outcome.Asks.map ih
      refine Outcome.Asks.after (fun _ h => absurd h List.not_mem_nil) ?_
      exact (asks_request (path_of_job? hP ho)).andThen fun content _ => asks_fill _ _ _ _

/-- The sequential strategy asks for what directives can be resolved to. -/
theorem asks_sequential (hP : Resolves settings root base P) (read : Reader) (text : Text) :
    (sequential settings root read base text).Asks P := by
  refine Outcome.Asks.andThen (Outcome.Asks.andThen ?_ fun blocks _ => ?_) fun _ _ => ?_
  · exact Outcome.asks_of_reads_eq_nil rfl
  · exact asks_fillInTurn hP read blocks
  · exact Outcome.asks_of_reads_eq_nil rfl

/-- Handling blocks one after the other depends on the paths it asks for only. -/
theorem fillInTurn_congr (hP : Resolves settings root base P)
    (h : ∀ path, P path → read path = read' path) (blocks : List CodeBlock) :
    fillInTurn settings root base read blocks = fillInTurn settings root base read' blocks := by
  induction blocks with
  | nil => rfl
  | cons block blocks ih =>
    refine Outcome.andThen_congr fun o ho => ?_
    cases o with
    | none => exact ih
    | some job => simp only [request, h job.path (path_of_job? hP ho), ih]

/-! ## The batch -/

theorem reads_requestAll (order : List Nat) (read : Reader) (paths : List Path) :
    (requestAll order read paths).trace.reads = paths := by
  unfold requestAll
  simp only
  split <;> rfl

theorem asks_fillAll (settings : Settings) (work : List (Job × Text)) (P : Path → Prop) :
    (fillAll settings work).Asks P := by
  induction work with
  | nil => exact Outcome.asks_of_reads_eq_nil rfl
  | cons work rest ih =>
    exact (asks_fill settings work.1 work.2 P).andThen fun _ _ => Outcome.Asks.map ih

/-- The batch asks for what directives can be resolved to. -/
theorem asks_batch (hP : Resolves settings root base P) (order : List Nat) (read : Reader)
    (text : Text) : (batch order settings root read base text).Asks P := by
  refine Outcome.Asks.andThen (Outcome.Asks.andThen ?_ fun js hjs => ?_) fun _ _ => ?_
  · refine Outcome.Asks.andThen (Outcome.asks_of_reads_eq_nil rfl) fun blocks _ => ?_
    exact asks_jobs settings root base blocks P
  · obtain ⟨blocks, -, hjs⟩ := Outcome.result_andThen_eq_ok.1 hjs
    refine Outcome.Asks.after (fun _ h => absurd h List.not_mem_nil) ?_
    refine Outcome.Asks.andThen (fun path hpath => ?_) fun contents _ => asks_fillAll _ _ _
    rw [reads_requestAll] at hpath
    obtain ⟨job, hjob, rfl⟩ := List.mem_map.1 hpath
    exact path_of_mem_jobs hP hjs job hjob
  · exact Outcome.asks_of_reads_eq_nil rfl

/-- Reads that are issued together depend on their own paths only. -/
theorem requestAll_congr {paths : List Path} (h : ∀ path ∈ paths, read path = read' path) :
    requestAll order read paths = requestAll order read' paths := by
  unfold requestAll
  rw [List.map_congr_left h]

theorem batch_congr (hP : Resolves settings root base P)
    (h : ∀ path, P path → read path = read' path) (order : List Nat) (text : Text) :
    batch order settings root read base text = batch order settings root read' base text := by
  refine congrArg (Outcome.andThen · _) (Outcome.andThen_congr fun js hjs => ?_)
  obtain ⟨blocks, -, hjs⟩ := Outcome.result_andThen_eq_ok.1 hjs
  have hpaths : ∀ path ∈ js.map Job.path, read path = read' path := by
    intro path hpath
    obtain ⟨job, hjob, rfl⟩ := List.mem_map.1 hpath
    exact h job.path (path_of_mem_jobs hP hjs job hjob)
  rw [requestAll_congr hpaths]

/-! ## The root directory -/

theorem hasNames_baseDirectory (path : Option Text) :
    (baseDirectory (path.map Path.ofText)).HasNames := by
  cases path with
  | none => exact fun _ h => absurd h List.not_mem_nil
  | some t => exact (Path.hasNames_ofText t).absolute.parent

theorem isAbsolute_of_checkedRoot (h : settings.checkedRoot = .ok root) :
    (Path.ofText root).isAbsolute := by
  unfold Settings.checkedRoot at h
  split at h
  · rename_i habsolute
    rwa [← Except.ok.inj h]
  · exact nomatch h

/-- A pass that may not import from outside an absolute root directory hands paths within it
    to its reader and no others, whatever the document says and whether the pass has a result
    or not. Readers that agree on the paths within the root directory cannot be told apart. -/
theorem reads_within_root (hroot : settings.checkedRoot = .ok root)
    (hinside : settings.allowsOutside = false) (read : Reader) (path : Option Text) (text : Text)
    (order : List Nat) :
    let base := baseDirectory (path.map Path.ofText)
    (∀ p ∈ (sequential settings root read base text).trace.reads, Sandbox.Within root p) ∧
      (∀ p ∈ (batch order settings root read base text).trace.reads, Sandbox.Within root p) ∧
      ∀ read' : Reader, (∀ p, Sandbox.Within root p → read p = read' p) →
        sequential settings root read base text = sequential settings root read' base text ∧
        batch order settings root read base text =
          batch order settings root read' base text := by
  intro base
  -- Both facts follow from what paths can be resolved to, which the sandbox decides.
  have hP : Resolves settings root base (Sandbox.Within root) := by
    intro t p hresolve
    rw [hinside] at hresolve
    exact Sandbox.within_of_resolve (isAbsolute_of_checkedRoot hroot)
      (hasNames_baseDirectory path) hresolve
  refine ⟨asks_sequential hP read text, asks_batch hP order read text, fun read' h => ⟨?_, ?_⟩⟩
  · rw [sequential, sequential, funext (fillInTurn_congr hP h)]
  · exact batch_congr hP h order text

/-- A root directory that is written with `..`, and a document below it that asks for a file
    above it and for one in it. -/
theorem reads_within_climbing_root :
    let root := "/srv/old/../docs".toList
    let settings : Settings := { rootDir := some root }
    let base := baseDirectory (("/srv/docs/a.md".toList : Option Text).map Path.ofText)
    let text := "~~~x file=../b\n~~~\n\n~~~x file=<rootDir>/c\n~~~\n".toList
    let read : Reader := fun _ => .ok []
    settings.checkedRoot = .ok root ∧ settings.allowsOutside = false ∧
      (∀ p ∈ (sequential settings root read base text).trace.reads, Sandbox.Within root p) ∧
      (∀ p ∈ (batch [1] settings root read base text).trace.reads, Sandbox.Within root p) := by
  intro root settings base text read
  have hroot : settings.checkedRoot = .ok root := if_pos (by decide)
  have hreads := reads_within_root hroot rfl read (some "/srv/docs/a.md".toList) text [1]
  exact ⟨hroot, rfl, hreads.1, hreads.2.1⟩

end Import

end Transclude
