import Transclude.Proofs.Suffix

/-!
# The grammar of file tokens

A line range has the form `[L digits][-][L digits]`, and a line that stands alone is the first
one. As long as all digits of a text are ASCII digits, and not too many stand in a row, reading
it as a range is nothing but this grammar: a text of the form is read as what it writes, any
other text as no range, and no text is an error. A file token is then read by its grammar, too:
its body is a path, a `#` and a range, or a path alone.

* `LineRange.Writes`: the grammar of ranges, with what a range means;
* `LineRange.scan_iff_writes`: ranges are read by it;
* `Directive.Means`: the grammar of token bodies;
* `Directive.tokenParts_by_grammar`: tokens are read by it.
-/

namespace Transclude

namespace Text

/-- All digits of a text are ASCII digits, and there are never too many in a row. -/
structure PlainDigits (t : Text) : Prop where
  isDigit : ∀ c ∈ t, Text.isDigit c → c.isDigit
  length_le : ∀ run, run <:+: t → (∀ c ∈ run, c.isDigit) → run.length ≤ numeralLimit

variable {t u digits : Text}

theorem PlainDigits.of_infix (h : t.PlainDigits) (hu : u <:+: t) : u.PlainDigits :=
  ⟨fun c hc => h.isDigit c (hu.subset hc), fun run hrun => h.length_le run (hrun.trans hu)⟩

/-- In a short text there is no room for too many digits. -/
theorem plainDigits_of_length_le (hlength : t.length ≤ numeralLimit)
    (h : t.all fun c => !Text.isDigit c || c.isDigit) : t.PlainDigits := by
  refine ⟨fun c hc hdigit => ?_, fun _ hrun _ => Nat.le_trans hrun.length_le hlength⟩
  have hplain := List.all_eq_true.1 h c hc
  rwa [hdigit] at hplain

theorem PlainDigits.isNumeral (h : t.PlainDigits) (hrun : digits <:+: t)
    (hdigits : ∀ c ∈ digits, Text.isDigit c) : IsNumeral digits := by
  have hascii : ∀ c ∈ digits, c.isDigit := fun c hc =>
    h.isDigit c (hrun.subset hc) (hdigits c hc)
  refine ⟨fun c hc => ?_, h.length_le digits hrun hascii⟩
  rw [decimalValue?_of_isDigit (hascii c hc)]
  rfl

end Text

/-! ## Ranges -/

namespace LineRange

variable {t line first last rest : Text} {dash : Bool} {range : LineRange} {n : Nat}
  {v w : Option Nat}

/-- A text writes a line of a range: it is empty and there is no line, or it is an `L` and decimal
    digits. -/
inductive WritesLine : Text → Option Nat → Prop where
  | absent : WritesLine [] none
  | line {digits : Text} (hne : digits ≠ []) (hdigits : ∀ c ∈ digits, c.isDigit) :
      WritesLine ('L' :: digits) (some (Nat.ofDigitChars 10 digits 0))

/-- A text has the form `[L digits][-][L digits]`. -/
def HasForm (t : Text) : Prop :=
  ∃ first dash last v w, WritesLine first v ∧ WritesLine last w ∧
    t = first ++ (dashText dash ++ last)

/-- A text writes a range. A line that stands alone is the first line. -/
def Writes (t : Text) (range : LineRange) : Prop :=
  ∃ first last, WritesLine first range.first ∧ WritesLine last range.last ∧
    t = first ++ (dashText range.dash ++ last) ∧
      (range.first = none → range.dash = false → range.last = none)

/-- Every text of the form writes a range. -/
theorem exists_writes_iff : (∃ range, Writes t range) ↔ HasForm t := by
  constructor
  · rintro ⟨range, first, last, hfirst, hlast, rfl, -⟩
    exact ⟨first, range.dash, last, _, _, hfirst, hlast, rfl⟩
  · rintro ⟨first, dash, last, v, w, hfirst, hlast, rfl⟩
    by_cases halone : v = none ∧ dash = false
    · obtain ⟨rfl, rfl⟩ := halone
      cases hfirst
      exact ⟨⟨w, false, none⟩, last, [], hlast, .absent, (List.append_nil last).symm,
        fun _ _ => rfl⟩
    · exact ⟨⟨v, dash, w⟩, first, last, hfirst, hlast, rfl,
        fun hv hdash => absurd ⟨hv, hdash⟩ halone⟩

/-! ### Reading what is written -/

/-- A line that is written is read, together with what follows it. -/
theorem WritesLine.bound_append (h : WritesLine line (some n)) (hplain : line.PlainDigits)
    (hrest : NoDigitFirst rest) : bound (line ++ rest) = (.line n, rest) := by
  cases h with
  | @line digits hne hdigits =>
    have hlength := hplain.length_le digits (List.suffix_cons 'L' digits).isInfix hdigits
    rw [List.cons_append, bound_of_digits hne (fun c hc => Text.isDigit_of_charIsDigit
      (hdigits c hc)) hrest, Text.numeral_of_isDigit hdigits hlength]

theorem WritesLine.startsLine (h : WritesLine last w) : StartsLine last := by
  cases h with
  | absent => exact nofun
  | line => exact fun c hc => (Option.some.inj hc).symm

theorem scanRest_of_writesLine (h : WritesLine last w) (hplain : last.PlainDigits)
    (v : Option Nat) (dash : Bool) :
    (scanRest v (dashText dash ++ last)).outcome = .ok (some ⟨v, dash, w⟩) := by
  rw [scanRest, h.startsLine.dash?_append]
  cases w with
  | none =>
    cases h
    rfl
  | some n =>
    have hbound := h.bound_append hplain noDigitFirst_nil
    rw [List.append_nil] at hbound
    rw [hbound]
    rfl

/-- What is written is read. -/
theorem Writes.scan_eq (h : Writes t range) (hplain : t.PlainDigits) :
    (scan t).outcome = .ok (some range) := by
  obtain ⟨v, dash, w⟩ := range
  obtain ⟨first, last, hfirst, hlast, rfl, halone⟩ := h
  have hplain' : last.PlainDigits := hplain.of_infix
    ((List.suffix_append _ last).trans (List.suffix_append first _)).isInfix
  cases v with
  | none =>
    cases hfirst
    -- A last line needs the dash before it, or it would be taken for the first.
    cases dash with
    | true =>
      rw [List.nil_append, scan_of_absent (bound_dashText last)]
      exact scanRest_of_writesLine hlast hplain' none true
    | false =>
      obtain rfl := halone rfl rfl
      cases hlast
      rfl
  | some n =>
    rw [scan_of_line (hfirst.bound_append (hplain.of_infix (List.prefix_append first _).isInfix)
      (hlast.startsLine.noDigitFirst dash))]
    exact scanRest_of_writesLine hlast hplain' (some n) dash

theorem exists_writesLine (h : line = [] ∨ IsBound line) (hplain : line.PlainDigits) :
    ∃ v, WritesLine line v := by
  rcases h with rfl | ⟨digits, rfl, hne, hnumeral⟩
  · exact ⟨none, .absent⟩
  · exact ⟨_, .line hne fun c hc =>
      hplain.isDigit c (List.mem_cons_of_mem 'L' hc) (hnumeral.isDigit c hc)⟩

/-- A text that is read as a range writes it. -/
theorem writes_of_scan (hplain : t.PlainDigits) (h : (scan t).outcome = .ok (some range)) :
    Writes t range := by
  obtain ⟨first, dash, last, hfirst, hlast, rfl⟩ := scan_eq_some_iff.1 ⟨range, h⟩
  obtain ⟨v, hv⟩ := exists_writesLine hfirst
    (hplain.of_infix (List.prefix_append first _).isInfix)
  obtain ⟨w, hw⟩ := exists_writesLine hlast (hplain.of_infix
    ((List.suffix_append _ last).trans (List.suffix_append first _)).isInfix)
  obtain ⟨range', hrange'⟩ := exists_writes_iff.2 ⟨first, dash, last, v, w, hv, hw, rfl⟩
  have := h.symm.trans (hrange'.scan_eq hplain)
  rwa [Option.some.inj (Except.ok.inj this)]

theorem not_misnumbered (hplain : t.PlainDigits) : ¬Misnumbered t := by
  rintro ⟨first, dash, last, -, ⟨digits, rest, rfl, -, hdigits, -, hill⟩, rfl⟩
  refine hill (hplain.isNumeral ?_ hdigits)
  exact ⟨first ++ dashText dash ++ ['L'], rest, by simp⟩

/-- Ranges are read by their grammar: a text is read as the range that it writes, as no range if
    it does not have the form of one, and never with an error. -/
theorem scan_iff_writes (hplain : t.PlainDigits) :
    ∃ range?, (scan t).outcome = .ok range? ∧ (range?.isSome ↔ HasForm t) ∧
      ∀ range, range? = some range ↔ Writes t range := by
  cases hscan : (scan t).outcome with
  | error e => exact absurd (scan_eq_error_iff.1 ⟨e, hscan⟩) (not_misnumbered hplain)
  | ok range? =>
    have hwrites (range : LineRange) : range? = some range ↔ Writes t range :=
      ⟨fun h => writes_of_scan hplain (hscan.trans (congrArg Except.ok h)),
        fun h => Except.ok.inj (hscan.symm.trans (h.scan_eq hplain))⟩
    refine ⟨range?, rfl, ?_, hwrites⟩
    rw [Option.isSome_iff_exists, ← exists_writes_iff]
    exact exists_congr hwrites

end LineRange

/-! ## Tokens -/

namespace Directive

variable {key body path part : Text} {span : Span} {range : LineRange}

/-- The body of a token means a path and lines: with a range after its last `#` the lines of the
    range, which are open if there is a dash or no first line, and otherwise the whole file. -/
inductive Means (body : Text) : Text → Span → Prop where
  | range {path part : Text} {range : LineRange} (hbody : body = path ++ '#' :: part)
      (hpart : '#' ∉ part) (hrange : LineRange.Writes part range) :
      Means body path
        ⟨range.first.map Int.ofNat, range.dash || range.first.isNone, range.last.map Int.ofNat⟩
  | whole (h : ∀ path part, body = path ++ '#' :: part → '#' ∉ part → ¬LineRange.HasForm part) :
      Means body body ⟨none, true, none⟩

theorem exists_means (body : Text) : ∃ path span, Means body path span := by
  by_cases h : ∃ path part, body = path ++ '#' :: part ∧ '#' ∉ part ∧ LineRange.HasForm part
  · obtain ⟨path, part, hbody, hpart, hform⟩ := h
    obtain ⟨range, hrange⟩ := LineRange.exists_writes_iff.2 hform
    exact ⟨path, _, .range hbody hpart hrange⟩
  · exact ⟨body, _, .whole fun path part hbody hpart hform => h ⟨path, part, hbody, hpart, hform⟩⟩

/-- The body of a token is read as what it means. -/
theorem Means.bodyParts_eq (h : Means body path span) (hplain : body.PlainDigits) :
    bodyParts body = .ok (path, span) := by
  cases h with
  | @range _ part range hbody hpart hrange =>
    have hplain' : part.PlainDigits := hplain.of_infix
      (hbody ▸ ((List.suffix_cons '#' part).trans (List.suffix_append path _)).isInfix)
    rw [bodyParts, hbody, splitAtLastHash_append path hpart]
    dsimp only
    rw [hrange.scan_eq hplain']
    rfl
  | whole h =>
    rw [bodyParts]
    cases hsplit : splitAtLastHash body with
    | none => rfl
    | some parts =>
      obtain ⟨before, part⟩ := parts
      obtain ⟨hbody, hpart⟩ := splitAtLastHash_eq_some_iff.1 hsplit
      have hplain' : part.PlainDigits := hplain.of_infix
        (hbody ▸ ((List.suffix_cons '#' part).trans (List.suffix_append before _)).isInfix)
      obtain ⟨range?, hscan, hform, -⟩ := LineRange.scan_iff_writes hplain'
      have hnone : range? = none := Option.not_isSome_iff_eq_none.1 fun hsome =>
        h before part hbody hpart (hform.1 hsome)
      dsimp only
      rw [hscan, hnone]

/-- File tokens are read by their grammar. Every body means a path and lines, and these are what
    is read; only an empty path is an error, at the column where the key ends. -/
theorem tokenParts_by_grammar (key body : Text) (hplain : (key ++ body).PlainDigits) :
    (∀ t : Text, t.PlainDigits → ∃ range?, (LineRange.scan t).outcome = .ok range? ∧
        (range?.isSome ↔ LineRange.HasForm t) ∧
        ∀ range, range? = some range ↔ LineRange.Writes t range) ∧
      (∃ path span, Means body path span) ∧
      ∀ path span, Means body path span → tokenParts key (key ++ body) =
        if path = [] then .error (.emptyPath (key ++ body) key.length) else .ok (path, span) := by
  refine ⟨fun t => LineRange.scan_iff_writes, exists_means body, fun path span hmeans => ?_⟩
  have hparts := hmeans.bodyParts_eq (hplain.of_infix (List.suffix_append key body).isInfix)
  rw [tokenParts, List.drop_left, hparts]
  simp only [List.isEmpty_iff]

/-- A path with a `#` and what looks like a range, and a range with leading zeros and a last line
    before its first; and a token without a path. -/
theorem tokenParts_by_grammar_of_two_hashes :
    let key : Text := "file=".toList
    let body : Text := "a#L1#L007-L5".toList
    (key ++ body).PlainDigits ∧ (key ++ "#-L2".toList).PlainDigits ∧
      tokenParts key (key ++ body) = .ok ("a#L1".toList, ⟨some 7, true, some 5⟩) ∧
      tokenParts key (key ++ "#-L2".toList) = .error (.emptyPath "file=#-L2".toList 5) := by
  intro key body
  have hplain : (key ++ body).PlainDigits :=
    Text.plainDigits_of_length_le (by decide) (by decide)
  have hplain' : (key ++ "#-L2".toList).PlainDigits :=
    Text.plainDigits_of_length_le (by decide) (by decide)
  obtain ⟨hscan, -, htoken⟩ := tokenParts_by_grammar key body hplain
  obtain ⟨-, -, htoken'⟩ := tokenParts_by_grammar key "#-L2".toList hplain'
  have hline {digits : Text} (hne : digits ≠ []) (h : digits.all Char.isDigit) :=
    LineRange.WritesLine.line hne (List.all_eq_true.1 h)
  refine ⟨hplain, hplain', ?_, ?_⟩
  · have hwrites : LineRange.Writes "L007-L5".toList ⟨some 7, true, some 5⟩ :=
      ⟨"L007".toList, "L5".toList, hline (by decide) (by decide), hline (by decide) (by decide),
        rfl, nofun⟩
    have hbody : body = "a#L1".toList ++ '#' :: "L007-L5".toList := rfl
    exact htoken _ _ (.range hbody (by decide) hwrites)
  · have hwrites : LineRange.Writes "-L2".toList ⟨none, true, some 2⟩ :=
      ⟨[], "L2".toList, .absent, hline (by decide) (by decide), rfl, nofun⟩
    have hbody : "#-L2".toList = [] ++ '#' :: "-L2".toList := rfl
    exact htoken' _ _ (.range hbody (by decide) hwrites)

end Directive

end Transclude
