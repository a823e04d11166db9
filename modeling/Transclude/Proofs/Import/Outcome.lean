import Transclude.Import

/-!
# Outcomes

What an outcome is made of: a step that goes on has a result exactly if both of its parts
have one, and the reads that it issues are those of the first part followed, if that has a
result, by those of the second. Nothing else is needed to follow a pass.

* `Outcome.result_andThen_eq_ok`: when a step that goes on has a result;
* `Outcome.Asks`: every read that was issued is of a path of some kind.
-/

namespace Transclude

variable {α β : Type}

theorem map_eq_ok {f : α → β} {r : Except Failure α} {b : β} :
    r.map f = .ok b ↔ ∃ a, r = .ok a ∧ f a = b := by
  cases r with
  | error failure => exact ⟨fun h => (nomatch h), fun ⟨_, h, _⟩ => nomatch h⟩
  | ok a =>
    constructor
    · intro h
      exact ⟨a, rfl, Except.ok.inj h⟩
    · rintro ⟨a', h, rfl⟩
      rw [Except.ok.inj h]
      rfl

/-- Two computations that have the same results have the same optional result. -/
theorem toOption_eq_of_ok_iff {r s : Except Failure α} (h : ∀ a, r = .ok a ↔ s = .ok a) :
    r.toOption = s.toOption := by
  cases r with
  | ok a => rw [(h a).1 rfl]
  | error failure =>
    cases s with
    | error => rfl
    | ok a => exact nomatch (h a).2 rfl

theorem toOption_eq_some_iff {r : Except Failure α} {a : α} : r.toOption = some a ↔ r = .ok a := by
  cases r with
  | error failure => exact ⟨fun h => (nomatch h), fun h => nomatch h⟩
  | ok b => exact ⟨fun h => congrArg _ (Option.some.inj h), fun h => congrArg _ (Except.ok.inj h)⟩

namespace Outcome

variable {o : Outcome α} {next : α → Outcome β} {f : α → β} {before : Trace} {b : β}

/-! ## Results -/

@[simp] theorem result_after : (o.after before).result = o.result := rfl

@[simp] theorem result_map : (o.map f).result = o.result.map f := rfl

theorem result_andThen : (o.andThen next).result = o.result.bind fun a => (next a).result := by
  unfold andThen
  split <;> rename_i h <;> rw [h] <;> rfl

/-- A step that goes on has a result if both of its parts have one. -/
theorem result_andThen_eq_ok :
    (o.andThen next).result = .ok b ↔ ∃ a, o.result = .ok a ∧ (next a).result = .ok b := by
  rw [result_andThen]
  cases o.result with
  | error failure => exact ⟨fun h => (nomatch h), fun ⟨_, h, _⟩ => nomatch h⟩
  | ok a =>
    constructor
    · intro h
      exact ⟨a, rfl, h⟩
    · rintro ⟨a', h, hnext⟩
      rw [Except.ok.inj h]
      exact hnext

theorem result_map_eq_ok : (o.map f).result = .ok b ↔ ∃ a, o.result = .ok a ∧ f a = b := by
  rw [result_map, map_eq_ok]

/-! ## Requests -/

/-- Every read that was issued is of a path of the kind `P`. -/
def Asks (P : Path → Prop) (o : Outcome α) : Prop :=
  ∀ path ∈ o.trace.reads, P path

variable {P : Path → Prop}

theorem Asks.after (hbefore : ∀ path ∈ before.reads, P path) (h : o.Asks P) :
    (o.after before).Asks P := by
  intro path hpath
  rcases List.mem_append.1 hpath with hpath | hpath
  · exact hbefore path hpath
  · exact h path hpath

theorem Asks.map (h : o.Asks P) : (o.map f).Asks P := h

/-- A step that goes on asks for what its parts ask for. -/
theorem Asks.andThen (h : o.Asks P) (hnext : ∀ a, o.result = .ok a → (next a).Asks P) :
    (o.andThen next).Asks P := by
  unfold Outcome.andThen
  split
  · exact h
  · rename_i a ha
    exact (hnext a ha).after h

/-- What asks for nothing asks for nothing of the wrong kind. -/
theorem asks_of_reads_eq_nil (h : o.trace.reads = []) : o.Asks P := by
  intro path hpath
  rw [h] at hpath
  exact absurd hpath List.not_mem_nil

/-- A step goes on alike if it goes on alike with its result. -/
theorem andThen_congr {next' : α → Outcome β}
    (h : ∀ a, o.result = .ok a → next a = next' a) : o.andThen next = o.andThen next' := by
  unfold andThen
  split
  · rfl
  · rename_i a ha
    rw [h a ha]

end Outcome

end Transclude
