import Transclude.Proofs.Import.Failures
import Transclude.Proofs.Import.Reads

/-!
# Passes with similar readers

Two results are *similar* if they are the same, or if both are failures that are the business
of an import. A pass only hands on the failures of its reader, so two readers that answer
similarly to all that a pass asks for give it similar results: where one has a document, the
other has the same.

* `Similar`: similar results;
* `Import.similar_file`: a pass over a file with similar readers;
* `Import.not_mem_reads_file`: the paths that such a pass asks for lead down.
-/

namespace Transclude

variable {α β : Type}

/-- Whether two results are the same, or both are failures that are the business of an import. -/
def Similar (r r' : Except Failure α) : Prop :=
  r = r' ∨ ∃ failure failure', r = .error failure ∧ r' = .error failure' ∧
    failure.isImportError ∧ failure'.isImportError

namespace Similar

variable {r r' : Except Failure α} {o o' : Outcome α} {next next' : α → Outcome β}
  {failure : Failure} {a : α}

theorem refl (r : Except Failure α) : Similar r r := .inl rfl

theorem eq_ok (h : Similar r r') (hr : r = .ok a) : r' = .ok a := by
  rcases h with rfl | ⟨failure, failure', hfailure, -⟩
  · exact hr
  · exact nomatch hr.symm.trans hfailure

theorem exists_error (h : Similar r r') (hr : r = .error failure)
    (hfailure : failure.isImportError) : ∃ failure', r' = .error failure' ∧ failure'.isImportError := by
  rcases h with rfl | ⟨_, failure', -, hr', -, himport⟩
  · exact ⟨failure, hr, hfailure⟩
  · exact ⟨failure', hr', himport⟩

theorem map (h : Similar r r') (f : α → β) : Similar (r.map f) (r'.map f) := by
  rcases h with rfl | ⟨failure, failure', rfl, rfl, himport⟩
  · exact refl _
  · exact .inr ⟨failure, failure', rfl, rfl, himport⟩

/-- What goes on similarly with the same result ends similarly. -/
theorem andThen (h : Similar o.result o'.result)
    (hnext : ∀ a, o.result = .ok a → Similar (next a).result (next' a).result) :
    Similar (o.andThen next).result (o'.andThen next').result := by
  rw [Outcome.result_andThen, Outcome.result_andThen]
  rcases h with heq | ⟨failure, failure', hr, hr', himport⟩
  · rw [← heq]
    cases hr : o.result with
    | error failure => exact refl _
    | ok a => exact hnext a hr
  · rw [hr, hr']
    exact .inr ⟨failure, failure', rfl, rfl, himport⟩

end Similar

namespace Outcome

variable {o : Outcome α} {next : α → Outcome β} {path : Path} {a : α}

/-- What the first part of a pass asks for, the pass asks for. -/
theorem mem_reads_andThen (h : path ∈ o.trace.reads) : path ∈ (o.andThen next).trace.reads := by
  cases hr : o.result with
  | error failure => rwa [(andThen_of_error hr next).2]
  | ok a =>
    rw [reads_andThen_of_ok hr]
    exact List.mem_append_left _ h

/-- What the second part of a pass asks for, the pass asks for. -/
theorem mem_reads_andThen_of_ok (hr : o.result = .ok a) (h : path ∈ (next a).trace.reads) :
    path ∈ (o.andThen next).trace.reads := by
  rw [reads_andThen_of_ok hr]
  exact List.mem_append_right _ h

end Outcome

namespace Import

variable {settings : Settings} {root : Text} {base path : Path} {read read' : Reader} {text : Text}
  {block : CodeBlock} {blocks : List CodeBlock} {js : List Job} {job : Job} {paths : List Path}

/-! ## Block after block -/

/-- Blocks are handled similarly with similar readers. -/
theorem similar_fillInTurn (h : ∀ path ∈ (fillInTurn settings root base read blocks).trace.reads,
      Similar (read path) (read' path)) :
    Similar (fillInTurn settings root base read blocks).result
      (fillInTurn settings root base read' blocks).result := by
  induction blocks with
  | nil => exact .refl _
  | cons block blocks ih =>
    rw [fillInTurn] at h
    rw [fillInTurn, fillInTurn]
    refine Similar.andThen (.refl _) fun o ho => ?_
    replace h := fun path hpath => h path (Outcome.mem_reads_andThen_of_ok ho hpath)
    cases o with
    | none => exact ih h
    | some job =>
      have hfirst : Similar ((request read job.path).andThen (fill settings job)).result
          ((request read' job.path).andThen (fill settings job)).result :=
        Similar.andThen (h job.path (Outcome.mem_reads_andThen
          (Outcome.mem_reads_andThen List.mem_cons_self))) fun _ _ => .refl _
      refine Similar.andThen hfirst fun filled hfilled => Similar.map (ih ?_) _
      exact fun path hpath => h path (Outcome.mem_reads_andThen_of_ok hfilled hpath)

theorem similar_sequential (h : ∀ path ∈ (sequential settings root read base text).trace.reads,
      Similar (read path) (read' path)) :
    Similar (sequential settings root read base text).result
      (sequential settings root read' base text).result := by
  refine Similar.andThen (Similar.andThen (.refl _) fun found hfound => ?_) fun _ _ => .refl _
  refine similar_fillInTurn fun path hpath => h path ?_
  exact Outcome.mem_reads_andThen (Outcome.mem_reads_andThen_of_ok hfound hpath)

/-! ## The batch -/

/-- Reads that are issued together, and end in that order, fail similarly. -/
theorem similar_requestAll (h : ∀ path ∈ paths, Similar (read path) (read' path)) :
    Similar (requestAll [] read paths).result (requestAll [] read' paths).result := by
  induction paths with
  | nil => exact .refl _
  | cons path paths ih =>
    -- The first read decides, unless it has a result.
    have hcons (read : Reader) : (requestAll [] read (path :: paths)).result =
        (read path).bind fun content => (requestAll [] read paths).result.map (content :: ·) := by
      simp only [requestAll, firstFailure, List.map_cons, List.filterMap_nil, List.nil_append,
        List.findSome?_cons]
      cases read path with
      | error failure => rfl
      | ok content =>
        simp only [List.filterMap_cons]
        split <;> rfl
    rw [hcons, hcons]
    rcases h path List.mem_cons_self with heq | ⟨failure, failure', hr, hr', himport⟩
    · rw [heq]
      cases read' path with
      | error failure => exact .refl _
      | ok content => exact (ih fun path hpath => h path (List.mem_cons_of_mem _ hpath)).map _
    · rw [hr, hr']
      exact .inr ⟨failure, failure', rfl, rfl, himport⟩

theorem similar_batch (h : ∀ path ∈ (batch [] settings root read base text).trace.reads,
      Similar (read path) (read' path)) :
    Similar (batch [] settings root read base text).result
      (batch [] settings root read' base text).result := by
  refine Similar.andThen (Similar.andThen (.refl _) fun js hjs => ?_) fun _ _ => .refl _
  refine Similar.andThen (similar_requestAll fun path hpath => h path ?_) fun _ _ => .refl _
  refine Outcome.mem_reads_andThen (Outcome.mem_reads_andThen_of_ok hjs ?_)
  rw [← reads_requestAll [] read (js.map Job.path)] at hpath
  exact Outcome.mem_reads_andThen hpath

/-! ## Files -/

/-- A pass over a file has similar results with readers that answer similarly to all that it asks
    for. -/
theorem similar_file (hdocument : Similar (read path) (read' path))
    (h : ∀ asked ∈ (file settings root read path).trace.reads, Similar (read asked) (read' asked)) :
    Similar (file settings root read path).result (file settings root read' path).result := by
  rw [file] at h
  rw [file, file]
  rcases hdocument with heq | ⟨failure, failure', hr, hr', himport⟩
  · rw [← heq]
    cases hr : read path with
    | error failure => exact .refl _
    | ok text =>
      rw [hr] at h
      replace h : ∀ asked ∈ (document settings root read (some path) text).trace.reads,
          Similar (read asked) (read' asked) := h
      rw [document] at h
      show Similar (document settings root read (some path) text).result
        (document settings root read' (some path) text).result
      rw [document, document]
      by_cases htogether : settings.readsTogether
      · simp only [if_pos htogether] at h ⊢
        exact similar_batch h
      · simp only [if_neg htogether] at h ⊢
        exact similar_sequential h
  · rw [hr, hr']
    exact .inr ⟨failure, failure', rfl, rfl, himport⟩

/-- The paths that a pass over a file asks for hold no `..`. -/
theorem not_mem_reads_file (settings : Settings) (root : Text) (read : Reader) (path : Path) :
    ∀ asked ∈ (file settings root read path).trace.reads, Path.parentName ∉ asked.components := by
  have hresolves (base : Path) :
      Resolves settings root base fun asked => Path.parentName ∉ asked.components := by
    intro t asked hasked
    rw [Sandbox.resolve] at hasked
    split at hasked
    · rw [← Except.ok.inj hasked]
      intro hmem
      have habs : (base.resolved.append
          (.ofText (Sandbox.expand settings.grammar.rootToken root t))).isAbsolute :=
        Path.isAbsolute_append (Path.isAbsolute_absolute base)
      rw [Sandbox.target, Path.normalize, habs] at hmem
      exact (Path.mem_collapse hmem).2 rfl
    · cases hasked
  rw [file]
  split
  · exact fun _ hasked => absurd hasked List.not_mem_nil
  · rename_i text _
    have hasks : (document settings root read (some path) text).Asks
        fun asked => Path.parentName ∉ asked.components := by
      rw [document]
      split
      · exact asks_batch (hresolves _) [] read text
      · exact asks_sequential (hresolves _) read text
    exact hasks.after fun _ hasked => absurd hasked List.not_mem_nil

end Import

end Transclude
