import Transclude.Proofs.Import.Failures
import Transclude.Proofs.Positions
import Transclude.Proofs.Suffix

/-!
# Why a pass fails

The business of an import are directives without a path, paths outside the root directory and
files that cannot be read. In a document without carriage returns the code blocks are found and
their bodies written back, so whatever else ends a pass comes from a directive: the number of a
line in it is none. For a pass to fail for another reason than the import's own, some block must
have such a directive; then neither strategy returns a document.

* `Import.refusal_cases`, `Import.fault_cases`: why a block fails;
* `Import.failures_of_pass`: why a pass does.
-/

namespace Transclude

namespace Import

variable {settings : Settings} {root : Text} {base : Path} {read : Reader} {text : Text}
  {block : CodeBlock} {blocks : List CodeBlock} {failure : Failure} {order : List Nat}

/-- The directive of a block has digits that write no number where the number of a line may
    stand. -/
def Misnumbered (settings : Settings) (block : CodeBlock) : Prop :=
  Directive.Misnumbered settings.grammar (block.metadata.getD [])

/-- The reader says of a file only that it cannot be read. -/
def FailsProperly (read : Reader) : Prop :=
  ∀ path failure, read path = .error failure → ∃ p fault, failure = .unreadable p fault

/-! ## Single blocks -/

theorem resolve_eq_error {rootToken path : Text} {allowOutside : Bool}
    (h : Sandbox.resolve rootToken root allowOutside base path = .error failure) :
    ∃ p, failure = .outsideRoot p root := by
  rw [Sandbox.resolve] at h
  split at h
  · cases h
  · exact ⟨_, (Except.error.inj h).symm⟩

theorem refusal_cases (h : refusal? settings root base block = some failure) :
    failure.isImportError ∨ (∃ e, failure = .badNumeral e) ∧ Misnumbered settings block := by
  rw [refusal?] at h
  cases hdirective : Directive.ofMetadata settings.grammar (block.metadata.getD []) with
  | error failed =>
    rw [hdirective] at h
    obtain rfl : failed = failure := Option.some.inj h
    rcases Directive.ofMetadata_eq_error hdirective with ⟨token, column, rfl⟩ | hbad
    · exact .inl rfl
    · exact .inr hbad
  | ok directive? =>
    rw [hdirective] at h
    cases directive? with
    | none => cases h
    | some directive =>
      dsimp only at h
      split at h
      · rename_i hresolve
        obtain ⟨p, hp⟩ := resolve_eq_error hresolve
        rw [← Option.some.inj h, hp]
        exact .inl rfl
      · cases h

theorem isImportError_of_read (hread : FailsProperly read) {path : Path}
    (h : read path = .error failure) : failure.isImportError := by
  obtain ⟨p, fault, rfl⟩ := hread path failure h
  rfl

theorem fault_cases (hread : FailsProperly read)
    (h : fault? settings root base read block = some failure) :
    failure.isImportError ∨ (∃ e, failure = .badNumeral e) ∧ Misnumbered settings block := by
  rw [fault?, Option.or_eq_some_iff] at h
  rcases h with h | ⟨-, h⟩
  · exact refusal_cases h
  · obtain ⟨path, -, hpath⟩ := Option.bind_eq_some_iff.1 h
    rw [readFailure?] at hpath
    split at hpath
    · rename_i hfailed
      exact .inl (isImportError_of_read hread (Option.some.inj hpath ▸ hfailed))
    · cases hpath

/-- A block whose directive has such a number is refused. -/
theorem Misnumbered.refusal_eq (h : Misnumbered settings block) (root : Text) (base : Path) :
    ∃ e, refusal? settings root base block = some (.badNumeral e) := by
  obtain ⟨e, he⟩ := Directive.Misnumbered.ofMetadata_eq h
  exact ⟨e, by rw [refusal?, he]⟩

/-! ## Passes -/

theorem sequential_failure_cases (hread : FailsProperly read)
    (hfind : CodeBlock.find text = .ok blocks)
    (h : (sequential settings root read base text).result = .error failure) :
    failure.isImportError ∨
      (∃ e, failure = .badNumeral e) ∧ ∃ block ∈ blocks, Misnumbered settings block := by
  obtain ⟨-, herror, -⟩ := sequential_of_faults settings root base read hfind
  obtain ⟨block, hblock, hfault⟩ := List.exists_of_findSome?_eq_some ((herror failure).1 h)
  exact (fault_cases hread hfault).imp_right fun ⟨he, hmis⟩ => ⟨he, block, hblock, hmis⟩

theorem batch_failure_cases (hread : FailsProperly read)
    (hfind : CodeBlock.find text = .ok blocks)
    (h : (batch order settings root read base text).result = .error failure) :
    failure.isImportError ∨
      (∃ e, failure = .badNumeral e) ∧ ∃ block ∈ blocks, Misnumbered settings block := by
  cases hrefusal : blocks.findSome? (refusal? settings root base) with
  | some refused =>
    have hresult : (batch order settings root read base text).result = .error refused :=
      (batch_of_refusal hfind hrefusal).2
    obtain rfl : refused = failure := Except.error.inj (hresult.symm.trans h)
    obtain ⟨block, hblock, hrefused⟩ := List.exists_of_findSome?_eq_some hrefusal
    exact (refusal_cases hrefused).imp_right fun ⟨he, hmis⟩ => ⟨he, block, hblock, hmis⟩
  | none =>
    obtain ⟨path, -, hpath⟩ := (batch_of_no_refusal hfind hrefusal).2.1 failure h
    exact .inl (isImportError_of_read hread hpath)

/-- A document with such a block makes every pass fail. -/
theorem Misnumbered.not_ok (hmis : Misnumbered settings block) (hblock : block ∈ blocks)
    (hfind : CodeBlock.find text = .ok blocks) (result : Imported) :
    (sequential settings root read base text).result ≠ .ok result ∧
      (batch order settings root read base text).result ≠ .ok result := by
  obtain ⟨e, hrefusal⟩ := hmis.refusal_eq root base
  constructor
  · intro hok
    obtain ⟨-, -, hnone⟩ := sequential_of_faults settings root base read hfind
    have hfault := List.findSome?_eq_none_iff.1 (hnone.1 ⟨result, hok⟩) block hblock
    rw [fault?, hrefusal] at hfault
    cases hfault
  · intro hok
    cases hfirst : blocks.findSome? (refusal? settings root base) with
    | none => cases hrefusal.symm.trans (List.findSome?_eq_none_iff.1 hfirst block hblock)
    | some failure =>
      have hresult : (batch order settings root read base text).result = .error failure :=
        (batch_of_refusal hfind hfirst).2
      cases hresult.symm.trans hok

/-- Why a pass over a document without carriage returns fails, whichever the strategy, if the
    reader says no more than that files cannot be read: for a reason that is the business of an
    import, or since the number of a line in some directive is none; then no pass has a result.
    Apart from such numbers, what stands after the last `#` of a token is a line range as a whole
    or belongs to the path. -/
theorem failures_of_pass (hreturn : '\r' ∉ text) (hread : FailsProperly read)
    (settings : Settings) (root : Text) (base : Path) (order : List Nat) :
    ∃ blocks, CodeBlock.find text = .ok blocks ∧
      (∀ failure, (sequential settings root read base text).result = .error failure ∨
          (batch order settings root read base text).result = .error failure →
        failure.isImportError ∨
          (∃ e, failure = .badNumeral e) ∧ ∃ block ∈ blocks, Misnumbered settings block) ∧
      (∀ block ∈ blocks, Misnumbered settings block → ∀ result,
        (sequential settings root read base text).result ≠ .ok result ∧
          (batch order settings root read base text).result ≠ .ok result) ∧
      ∀ before after, '#' ∉ after →
        (LineRange.IsRange after → ∃ range, (LineRange.scan after).outcome = .ok (some range) ∧
          Directive.bodyParts (before ++ '#' :: after) = .ok (before, Span.ofRange range)) ∧
        (LineRange.Misnumbered after →
          ∃ e, Directive.bodyParts (before ++ '#' :: after) = .error e) ∧
        (¬LineRange.IsRange after → ¬LineRange.Misnumbered after →
          Directive.bodyParts (before ++ '#' :: after) = .ok (before ++ '#' :: after, {})) := by
  obtain ⟨blocks, hfind⟩ := CodeBlock.exists_find_of_no_return hreturn
  refine ⟨blocks, hfind, fun failure h => ?_, fun block hblock hmis result =>
    hmis.not_ok hblock hfind result, fun before after => Directive.bodyParts_cases before⟩
  rcases h with h | h
  · exact sequential_failure_cases hread hfind h
  · exact batch_failure_cases hread hfind h

/-- A name that looks like the beginning of a range, in a document that holds the character
    NUL. -/
theorem failures_of_pass_of_odd_name :
    let text : Text := "~~~x file=b#Lab\n~~~\n\x00".toList
    let base := baseDirectory (some (Path.ofText "/srv/a.md".toList))
    let read : Reader := fun path => .error (.unreadable path.toText (.refused .notFound))
    let failure := Failure.unreadable "/srv/b#Lab".toList (.refused .notFound)
    '\r' ∉ text ∧ FailsProperly read ∧
      (sequential {} "/srv".toList read base text).result = .error failure ∧
        failure.isImportError := by
  intro text base read failure
  have hreturn : '\r' ∉ text := by decide
  have hread : FailsProperly read := fun path failed h => ⟨_, _, (Except.error.inj h).symm⟩
  have hresult : (sequential {} "/srv".toList read base text).result = .error failure := by
    decide +kernel
  obtain ⟨blocks, -, hcases, -⟩ := failures_of_pass hreturn hread {} "/srv".toList base []
  refine ⟨hreturn, hread, hresult, (hcases failure (.inl hresult)).resolve_right ?_⟩
  rintro ⟨⟨e, he⟩, -⟩
  exact nomatch he

/-- The raised two is a digit, but no decimal digit: a pass fails because of it, although it makes
    no range of what stands after the `#`. -/
theorem not_isImportError_of_raised_digit :
    let text : Text := "~~~x file=a#L²\n~~~".toList
    let base := baseDirectory (some (Path.ofText "/srv/d.md".toList))
    let read : Reader := fun _ => .ok "foo".toList
    let failure := Failure.badNumeral (.notDecimal ['²'])
    '\r' ∉ text ∧ FailsProperly read ∧ ¬LineRange.IsRange ['L', '²'] ∧
      Directive.ofMetadata {} "file=a#L²".toList = .error failure ∧
      (sequential {} "/srv".toList read base text).result = .error failure ∧
      (batch [] {} "/srv".toList read base text).result = .error failure ∧
      ¬failure.isImportError := by
  intro text base read failure
  refine ⟨by decide, nofun, fun hrange => ?_, by decide +kernel, by decide +kernel,
    by decide +kernel, by decide⟩
  obtain ⟨range, hscan⟩ := LineRange.scan_eq_some_iff.2 hrange
  have herror : (LineRange.scan ['L', '²']).outcome = .error (.notDecimal ['²']) := by
    decide +kernel
  exact nomatch herror.symm.trans hscan

end Import

end Transclude
