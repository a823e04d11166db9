import Mathlib.Data.List.TakeWhile
import Transclude.Proofs.Directive

/-!
# What stands after the last number sign

The text after the last `#` of a file token is of one of three kinds. It is a line range as a
whole; or digits stand in it where the number of a line may stand, and they write no number, be
it that one is no decimal digit or that there are too many; or it is anything else. A range gives
the lines, and what stands before the `#` is the path. Digits that write no number are an error,
whatever comes after them. In the third case the whole token body is the path.

* `LineRange.IsRange`, `LineRange.Misnumbered`: the first two kinds;
* `LineRange.scan_eq_some_iff`, `LineRange.scan_eq_error_iff`: they are told apart;
* `Directive.bodyParts_cases`: what a token body means;
* `Directive.ofMetadata_eq_error`: how a directive can be malformed.
-/

namespace Transclude

/-! ## Numerals -/

namespace Text

/-- Decimal digits, not too many of them: what writes a number. -/
def IsNumeral (digits : Text) : Prop :=
  (∀ c ∈ digits, (decimalValue? c).isSome) ∧ digits.length ≤ numeralLimit

variable {digits : Text}

theorem IsNumeral.isDigit (h : digits.IsNumeral) : ∀ c ∈ digits, isDigit c := fun c hc => by
  rw [Text.isDigit, h.1 c hc, Bool.true_or]

/-- Exactly the numerals have a value. -/
theorem exists_numeral_iff : (∃ n, numeral digits = .ok n) ↔ digits.IsNumeral := by
  have hprefix := List.takeWhile_prefix (l := digits) fun c => (decimalValue? c).isSome
  constructor
  · rintro ⟨n, hn⟩
    rw [numeral] at hn
    split at hn
    · cases hn
    · rename_i hlimit
      split at hn
      · cases hn
      · rename_i hlength
        have hall := hprefix.eq_of_length_le (Nat.not_lt.1 hlength)
        refine ⟨List.takeWhile_eq_self_iff.1 hall, ?_⟩
        rw [hall] at hlimit
        exact Nat.not_lt.1 hlimit
  · rintro ⟨hdecimal, hlimit⟩
    have hall : digits.takeWhile (fun c => (decimalValue? c).isSome) = digits :=
      List.takeWhile_eq_self_iff.2 hdecimal
    rw [numeral, hall, if_neg (Nat.not_lt.2 hlimit), if_neg (Nat.lt_irrefl _)]
    exact ⟨_, rfl⟩

end Text

/-! ## Line ranges -/

namespace LineRange

variable {t digits rest first last : Text} {dash : Bool}

/-- A line of a range, as it may be written. -/
def IsBound (t : Text) : Prop :=
  ∃ digits, t = 'L' :: digits ∧ digits ≠ [] ∧ Text.IsNumeral digits

/-- The dash of a range, if it has one. -/
def dashText (dash : Bool) : Text :=
  if dash then ['-'] else []

/-- A line range as it may be written. -/
def IsRange (t : Text) : Prop :=
  ∃ first dash last, (first = [] ∨ IsBound first) ∧ (last = [] ∨ IsBound last) ∧
    t = first ++ (dashText dash ++ last)

/-- An `L` and digits, all that there are, that write no number; the text may go on. -/
def IsIll (t : Text) : Prop :=
  ∃ digits rest, t = 'L' :: (digits ++ rest) ∧ digits ≠ [] ∧ (∀ c ∈ digits, Text.isDigit c) ∧
    NoDigitFirst rest ∧ ¬Text.IsNumeral digits

/-- Where a line of a range may be written, there are digits that write no number. -/
def Misnumbered (t : Text) : Prop :=
  ∃ first dash last, (first = [] ∨ IsBound first) ∧ IsIll last ∧
    t = first ++ (dashText dash ++ last)

/-! ### Lines -/

theorem IsBound.bound_append (h : IsBound t) (hrest : NoDigitFirst rest) :
    ∃ n, bound (t ++ rest) = (.line n, rest) := by
  obtain ⟨digits, rfl, hne, hnumeral⟩ := h
  obtain ⟨n, hn⟩ := Text.exists_numeral_iff.2 hnumeral
  exact ⟨n, by rw [List.cons_append, bound_of_digits hne hnumeral.isDigit hrest, hn]⟩

theorem IsIll.bound_eq (h : IsIll t) : ∃ e rest, bound t = (.invalid e, rest) := by
  obtain ⟨digits, rest, rfl, hne, hdigits, hrest, hill⟩ := h
  cases hnumeral : Text.numeral digits with
  | error e => exact ⟨e, rest, by rw [bound_of_digits hne hdigits hrest, hnumeral]⟩
  | ok n => exact absurd (Text.exists_numeral_iff.1 ⟨n, hnumeral⟩) hill

/-- What is read where a line may be written. -/
theorem bound_cases (t : Text) : bound t = (.absent, t) ∨ (∃ rest, bound t = (.malformed, rest)) ∨
    (∃ line n rest, IsBound line ∧ t = line ++ rest ∧ bound t = (.line n, rest)) ∨
    ∃ e rest, IsIll t ∧ bound t = (.invalid e, rest) := by
  by_cases hhead : t.head? = some 'L'
  · obtain ⟨t, rfl⟩ := List.head?_eq_some_iff.1 hhead
    have hsplit := List.takeWhile_append_dropWhile (p := Text.isDigit) (l := t)
    obtain ⟨hdigits, hrest⟩ := Text.isRun_takeWhile Text.isDigit t
    generalize t.takeWhile Text.isDigit = digits, t.dropWhile Text.isDigit = rest
      at hsplit hdigits hrest
    subst hsplit
    by_cases hne : digits = []
    · rw [hne, List.nil_append, bound, Text.takeWhile_eq_nil hrest]
      exact .inr (.inl ⟨rest, rfl⟩)
    · have hbound := bound_of_digits hne hdigits hrest
      cases hnumeral : Text.numeral digits with
      | ok n =>
        rw [hnumeral] at hbound
        exact .inr (.inr (.inl ⟨'L' :: digits, n, rest,
          ⟨digits, rfl, hne, Text.exists_numeral_iff.1 ⟨n, hnumeral⟩⟩, rfl, hbound⟩))
      | error e =>
        rw [hnumeral] at hbound
        refine .inr (.inr (.inr ⟨e, rest, ⟨digits, rest, rfl, hne, hdigits, hrest, fun hvalue => ?_⟩,
          hbound⟩))
        obtain ⟨n, hn⟩ := Text.exists_numeral_iff.2 hvalue
        cases hnumeral.symm.trans hn
  · exact .inl (bound_absent hhead)

/-! ### After the first line -/

/-- A text that is empty or goes on with an `L`. -/
def StartsLine (t : Text) : Prop :=
  ∀ c ∈ t.head?, c = 'L'

theorem startsLine_of_isBound (h : last = [] ∨ IsBound last) : StartsLine last := by
  rcases h with rfl | ⟨digits, rfl, -⟩
  · exact nofun
  · exact fun c hc => (Option.some.inj hc).symm

theorem IsIll.startsLine (h : IsIll last) : StartsLine last := by
  obtain ⟨digits, rest, rfl, -⟩ := h
  exact fun c hc => (Option.some.inj hc).symm

theorem StartsLine.noDigitFirst (h : StartsLine last) (dash : Bool) :
    NoDigitFirst (dashText dash ++ last) := by
  intro c hc
  cases dash with
  | true =>
    rw [← Option.some.inj hc]
    decide
  | false =>
    rw [h c hc]
    decide

theorem StartsLine.dash?_append (h : StartsLine last) (dash : Bool) :
    dash? (dashText dash ++ last) = (dash, last) := by
  cases dash with
  | true => rfl
  | false =>
    show dash? last = _
    unfold dash?
    split
    · exact absurd (h '-' rfl) (by decide)
    · rfl

theorem eq_dashText_append (t : Text) : t = dashText (dash? t).1 ++ (dash? t).2 := by
  unfold dash?
  split <;> rfl

theorem bound_dashText (last : Text) :
    bound (dashText true ++ last) = (.absent, dashText true ++ last) := rfl

/-- What is read after the first line of a range. -/
def scanRest (first : Option Nat) (t : Text) : Scan :=
  match bound (dash? t).2 with
  | (.malformed, rest) => ⟨.ok none, rest⟩
  | (.invalid error, rest) => ⟨.error error, rest⟩
  | (last, rest) =>
    if rest.isEmpty then ⟨.ok (some ⟨first, (dash? t).1, last.number?⟩), rest⟩
    else ⟨.ok none, rest⟩

theorem scan_of_absent (h : bound t = (.absent, rest)) : scan t = scanRest none rest := by
  rw [scan, h]
  rfl

theorem scan_of_line {n : Nat} (h : bound t = (.line n, rest)) :
    scan t = scanRest (some n) rest := by
  rw [scan, h]
  rfl

theorem scanRest_of_isBound (h : last = [] ∨ IsBound last) (first : Option Nat) (dash : Bool) :
    ∃ range, (scanRest first (dashText dash ++ last)).outcome = .ok (some range) := by
  rw [scanRest, (startsLine_of_isBound h).dash?_append]
  rcases h with rfl | h
  · exact ⟨_, rfl⟩
  · obtain ⟨n, hn⟩ := h.bound_append noDigitFirst_nil
    rw [List.append_nil] at hn
    rw [hn]
    exact ⟨_, rfl⟩

theorem scanRest_of_isIll (h : IsIll last) (first : Option Nat) (dash : Bool) :
    ∃ e, (scanRest first (dashText dash ++ last)).outcome = .error e := by
  obtain ⟨e, rest, hbound⟩ := h.bound_eq
  rw [scanRest, h.startsLine.dash?_append, hbound]
  exact ⟨e, rfl⟩

theorem isBound_of_scanRest {n : Option Nat} {range : LineRange}
    (h : (scanRest n t).outcome = .ok (some range)) :
    (dash? t).2 = [] ∨ IsBound (dash? t).2 := by
  rw [scanRest] at h
  rcases bound_cases (dash? t).2 with hb | ⟨rest, hb⟩ | ⟨line, m, rest, hline, heq, hb⟩ |
    ⟨e, rest, -, hb⟩
  · rw [hb] at h
    dsimp only at h
    split at h
    · rename_i hempty
      exact .inl (List.isEmpty_iff.1 hempty)
    · exact nomatch h
  · rw [hb] at h
    exact nomatch h
  · rw [hb] at h
    dsimp only at h
    split at h
    · rename_i hempty
      rw [heq, List.isEmpty_iff.1 hempty, List.append_nil]
      exact .inr hline
    · exact nomatch h
  · rw [hb] at h
    exact nomatch h

theorem isIll_of_scanRest {n : Option Nat} {e : Text.NumeralError}
    (h : (scanRest n t).outcome = .error e) : IsIll (dash? t).2 := by
  rw [scanRest] at h
  rcases bound_cases (dash? t).2 with hb | ⟨rest, hb⟩ | ⟨line, m, rest, -, -, hb⟩ |
    ⟨e, rest, hill, -⟩
  · rw [hb] at h
    dsimp only at h
    split at h <;> exact nomatch h
  · rw [hb] at h
    exact nomatch h
  · rw [hb] at h
    dsimp only at h
    split at h <;> exact nomatch h
  · exact hill

/-! ### Whole ranges -/

/-- Exactly the line ranges are read as such. -/
theorem scan_eq_some_iff : (∃ range, (scan t).outcome = .ok (some range)) ↔ IsRange t := by
  constructor
  · rintro ⟨range, h⟩
    rcases bound_cases t with hb | ⟨rest, hb⟩ | ⟨line, n, rest, hline, rfl, hb⟩ | ⟨e, rest, -, hb⟩
    · rw [scan_of_absent hb] at h
      exact ⟨[], _, _, .inl rfl, isBound_of_scanRest h, eq_dashText_append t⟩
    · rw [scan, hb] at h
      cases h
    · rw [scan_of_line hb] at h
      exact ⟨line, _, _, .inr hline, isBound_of_scanRest h,
        congrArg (line ++ ·) (eq_dashText_append rest)⟩
    · rw [scan, hb] at h
      cases h
  · rintro ⟨first, dash, last, hfirst, hlast, rfl⟩
    have hrest := (startsLine_of_isBound hlast).noDigitFirst dash
    rcases hfirst with rfl | hfirst
    · -- Without a first line and a dash, the last line is taken for the first.
      cases dash with
      | true =>
        rw [List.nil_append, scan_of_absent (bound_dashText last)]
        exact scanRest_of_isBound hlast none true
      | false =>
        show ∃ range, (scan last).outcome = .ok (some range)
        rcases hlast with rfl | hlast
        · exact ⟨_, rfl⟩
        · obtain ⟨n, hn⟩ := hlast.bound_append noDigitFirst_nil
          rw [List.append_nil] at hn
          rw [scan_of_line hn]
          exact scanRest_of_isBound (.inl rfl) (some n) false
    · obtain ⟨n, hn⟩ := hfirst.bound_append hrest
      rw [scan_of_line hn]
      exact scanRest_of_isBound hlast (some n) dash

/-- Exactly the texts in which the number of a line is none are an error. -/
theorem scan_eq_error_iff : (∃ e, (scan t).outcome = .error e) ↔ Misnumbered t := by
  constructor
  · rintro ⟨e, h⟩
    rcases bound_cases t with hb | ⟨rest, hb⟩ | ⟨line, n, rest, hline, rfl, hb⟩ |
      ⟨e', rest, hill, -⟩
    · rw [scan_of_absent hb] at h
      exact ⟨[], _, _, .inl rfl, isIll_of_scanRest h, eq_dashText_append t⟩
    · rw [scan, hb] at h
      cases h
    · rw [scan_of_line hb] at h
      exact ⟨line, _, _, .inr hline, isIll_of_scanRest h,
        congrArg (line ++ ·) (eq_dashText_append rest)⟩
    · exact ⟨[], false, t, .inl rfl, hill, rfl⟩
  · rintro ⟨first, dash, last, hfirst, hill, rfl⟩
    have hrest := hill.startsLine.noDigitFirst dash
    rcases hfirst with rfl | hfirst
    · cases dash with
      | true =>
        rw [List.nil_append, scan_of_absent (bound_dashText last)]
        exact scanRest_of_isIll hill none true
      | false =>
        obtain ⟨e, rest, hbound⟩ := hill.bound_eq
        show ∃ e, (scan last).outcome = .error e
        rw [scan, hbound]
        exact ⟨e, rfl⟩
    · obtain ⟨n, hn⟩ := hfirst.bound_append hrest
      rw [scan_of_line hn]
      exact scanRest_of_isIll hill (some n) dash

end LineRange

/-! ## Directives -/

namespace Directive

variable {body before after metadata : Text} {grammar : Grammar} {failure : Failure}

theorem not_mem_of_splitAtLastHash (h : splitAtLastHash body = none) : '#' ∉ body := by
  induction body with
  | nil => exact List.not_mem_nil
  | cons c t ih =>
    rw [splitAtLastHash] at h
    split at h
    · cases h
    · rename_i hnone
      split at h
      · cases h
      · rename_i hc
        exact List.not_mem_cons_of_ne_of_not_mem (Ne.symm hc) (ih hnone)

theorem splitAtLastHash_eq_some_iff :
    splitAtLastHash body = some (before, after) ↔ body = before ++ '#' :: after ∧ '#' ∉ after := by
  refine ⟨fun h => ?_, fun h => h.1 ▸ splitAtLastHash_append before h.2⟩
  induction body generalizing before with
  | nil => cases h
  | cons c t ih =>
    rw [splitAtLastHash] at h
    split at h
    · rename_i before' after' hsome
      obtain ⟨rfl, rfl⟩ := Prod.mk.inj (Option.some.inj h)
      obtain ⟨rfl, hafter⟩ := ih hsome
      exact ⟨rfl, hafter⟩
    · rename_i hnone
      split at h
      · rename_i hc
        obtain ⟨rfl, rfl⟩ := Prod.mk.inj (Option.some.inj h)
        exact ⟨congrArg (· :: _) hc, not_mem_of_splitAtLastHash hnone⟩
      · cases h

/-- What a token body with a `#` means: a range at its end gives the lines, digits there that
    write no number are an error, and anything else belongs to the path. -/
theorem bodyParts_cases (before : Text) (hafter : '#' ∉ after) :
    (LineRange.IsRange after → ∃ range, (LineRange.scan after).outcome = .ok (some range) ∧
      bodyParts (before ++ '#' :: after) = .ok (before, Span.ofRange range)) ∧
    (LineRange.Misnumbered after → ∃ e, bodyParts (before ++ '#' :: after) = .error e) ∧
    (¬LineRange.IsRange after → ¬LineRange.Misnumbered after →
      bodyParts (before ++ '#' :: after) = .ok (before ++ '#' :: after, {})) := by
  rw [← LineRange.scan_eq_some_iff, ← LineRange.scan_eq_error_iff, bodyParts,
    splitAtLastHash_append before hafter]
  dsimp only
  cases (LineRange.scan after).outcome with
  | error e => exact ⟨by rintro ⟨_, ⟨⟩⟩, fun _ => ⟨e, rfl⟩, fun _ h => absurd ⟨e, rfl⟩ h⟩
  | ok range? =>
    cases range? with
    | none => exact ⟨by rintro ⟨_, ⟨⟩⟩, by rintro ⟨_, ⟨⟩⟩, fun _ _ => rfl⟩
    | some range =>
      exact ⟨fun _ => ⟨range, rfl, rfl⟩, by rintro ⟨_, ⟨⟩⟩, fun h _ => absurd ⟨range, rfl⟩ h⟩

/-- The file token of the metadata ends with a `#` and with digits that write no number where the
    number of a line may stand. -/
def Misnumbered (grammar : Grammar) (metadata : Text) : Prop :=
  ∃ token before after,
    (Metadata.tokens metadata).find? (grammar.fileKey.isPrefixOf ·) = some token ∧
      token.drop grammar.fileKey.length = before ++ '#' :: after ∧ '#' ∉ after ∧
        LineRange.Misnumbered after

theorem exists_bodyParts_eq_error_iff : (∃ e, bodyParts body = .error e) ↔
    ∃ before after, body = before ++ '#' :: after ∧ '#' ∉ after ∧
      LineRange.Misnumbered after := by
  constructor
  · rintro ⟨e, h⟩
    cases hsplit : splitAtLastHash body with
    | none =>
      rw [bodyParts, hsplit] at h
      cases h
    | some parts =>
      obtain ⟨before, after⟩ := parts
      obtain ⟨rfl, hafter⟩ := splitAtLastHash_eq_some_iff.1 hsplit
      refine ⟨before, after, rfl, hafter, LineRange.scan_eq_error_iff.1 ⟨e, ?_⟩⟩
      rw [bodyParts, hsplit] at h
      dsimp only at h
      cases hscan : (LineRange.scan after).outcome with
      | error e' =>
        rw [hscan] at h
        exact congrArg Except.error (Except.error.inj h)
      | ok range? =>
        rw [hscan] at h
        cases range? <;> cases h
  · rintro ⟨before, after, rfl, hafter, hmis⟩
    exact (bodyParts_cases before hafter).2.1 hmis

/-- How the directive in some metadata can be malformed: the path is missing, or a number is. -/
theorem ofMetadata_eq_error (h : ofMetadata grammar metadata = .error failure) :
    (∃ token column, failure = .emptyPath token column) ∨
      (∃ e, failure = .badNumeral e) ∧ Misnumbered grammar metadata := by
  rw [ofMetadata] at h
  dsimp only at h
  split at h
  · cases h
  · rename_i token htoken
    rw [ofToken, tokenParts] at h
    cases hbody : bodyParts (token.drop grammar.fileKey.length) with
    | error e =>
      rw [hbody] at h
      obtain ⟨before, after, hsplit, hafter, hmis⟩ := exists_bodyParts_eq_error_iff.1 ⟨e, hbody⟩
      exact .inr ⟨⟨e, (Except.error.inj h).symm⟩, token, before, after, htoken, hsplit, hafter, hmis⟩
    | ok parts =>
      obtain ⟨path, span⟩ := parts
      rw [hbody] at h
      dsimp only at h
      by_cases hpath : path.isEmpty
      · rw [if_pos hpath] at h
        exact .inl ⟨_, _, (Except.error.inj h).symm⟩
      · rw [if_neg hpath] at h
        cases h

/-- Digits that write no number are an error, whatever else is there. -/
theorem Misnumbered.ofMetadata_eq (h : Misnumbered grammar metadata) :
    ∃ e, ofMetadata grammar metadata = .error (.badNumeral e) := by
  obtain ⟨token, before, after, htoken, hsplit, hafter, hmis⟩ := h
  obtain ⟨e, hbody⟩ := exists_bodyParts_eq_error_iff.2 ⟨before, after, hsplit, hafter, hmis⟩
  refine ⟨e, ?_⟩
  rw [ofMetadata, htoken]
  dsimp only
  rw [ofToken, tokenParts, hbody]

end Directive

end Transclude
