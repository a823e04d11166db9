import Transclude.Text.Basic

/-!
# Patterns for names

A pattern for a name stands for the names that it *matches*: `*` for any text, `?` for any
character, and a set in brackets for any character in it, or not in it if the set starts
with an exclamation mark. A set lists characters and ranges; a range from a greater
character to a smaller one holds nothing. A bracket that is not closed stands for itself,
and so does any other character.

* `NamePattern.ofText`: the pattern that a text writes;
* `NamePattern.fits`: whether it matches a name.
-/

namespace Transclude

/-- A set of characters between brackets. -/
structure CharSet where
  isNegated : Bool
  /-- The ranges, with both ends; a single character is a range by itself. -/
  ranges : List (Char × Char)
  deriving DecidableEq, Repr

/-- Whether a character is in a set. -/
def CharSet.holds (s : CharSet) (c : Char) : Bool :=
  (s.ranges.any fun (low, high) => low ≤ c && c ≤ high) ≠ s.isNegated

/-- A piece of a pattern for names. -/
inductive NamePiece where
  /-- Any text, the empty one too. -/
  | anyText
  /-- Any character. -/
  | anyChar
  /-- A character of a set. -/
  | oneOf (set : CharSet)
  /-- This character. -/
  | char (c : Char)
  deriving DecidableEq, Repr

/-- A pattern for names. -/
abbrev NamePattern := List NamePiece

namespace NamePattern

/-- The ranges that the text between brackets lists. -/
def rangesOf : Text → List (Char × Char)
  | low :: '-' :: high :: rest =>
    if low ≤ high then (low, high) :: rangesOf rest else rangesOf rest
  | c :: rest => (c, c) :: rangesOf rest
  | [] => []

/-- The text up to the closing bracket and the text after it. A bracket that comes first
    does not close. -/
def untilBracket? : Text → Option (Text × Text)
  | [] => none
  | c :: rest =>
    let tail := rest.takeWhile (· ≠ ']')
    match rest.dropWhile (· ≠ ']') with
    | [] => none
    | _ :: after => some (c :: tail, after)

/-- The set after an opening bracket and the text after the set, if the set ends. -/
def set? (t : Text) : Option (CharSet × Text) :=
  match t with
  | '!' :: rest => (untilBracket? rest).map fun (inside, after) => (⟨true, rangesOf inside⟩, after)
  | _ => (untilBracket? t).map fun (inside, after) => (⟨false, rangesOf inside⟩, after)

theorem length_lt_of_untilBracket? {t inside after : Text}
    (h : untilBracket? t = some (inside, after)) : after.length < t.length := by
  unfold untilBracket? at h
  split at h
  · contradiction
  · rename_i c rest
    have hle := (List.dropWhile_suffix (fun d : Char => decide (d ≠ ']')) (l := rest)).length_le
    split at h
    · contradiction
    · rename_i hdrop
      simp only [Option.some.injEq, Prod.mk.injEq] at h
      rw [hdrop] at hle
      rw [← h.2]
      simp only [List.length_cons] at hle ⊢
      omega

theorem length_lt_of_set? {t after : Text} {s : CharSet} (h : set? t = some (s, after)) :
    after.length < t.length := by
  unfold set? at h
  split at h
  · obtain ⟨⟨inside, rest⟩, hfound, heq⟩ := Option.map_eq_some_iff.1 h
    have hlt := length_lt_of_untilBracket? hfound
    simp only [Prod.mk.injEq] at heq
    rw [← heq.2]
    simp only [List.length_cons]
    omega
  · obtain ⟨⟨inside, rest⟩, hfound, heq⟩ := Option.map_eq_some_iff.1 h
    have hlt := length_lt_of_untilBracket? hfound
    simp only [Prod.mk.injEq] at heq
    rw [← heq.2]
    exact hlt

/-- The pattern that a text writes. -/
def ofText (t : Text) : NamePattern :=
  match t with
  | [] => []
  | c :: rest =>
    if c = '*' then .anyText :: ofText rest
    else if c = '?' then .anyChar :: ofText rest
    else if c = '[' then
      match _hset : set? rest with
      | some (s, after) => .oneOf s :: ofText after
      | none => .char c :: ofText rest
    else .char c :: ofText rest
termination_by t.length
decreasing_by
  all_goals simp only [List.length_cons]
  · omega
  · omega
  · have hlt := length_lt_of_set? _hset
    omega
  · omega
  · omega

/-- Whether a piece that stands for one character matches it. -/
def matchesChar : NamePiece → Char → Bool
  | .anyText, _ => false
  | .anyChar, _ => true
  | .oneOf s, c => s.holds c
  | .char d, c => c = d

/-- Whether some end of a name satisfies `p`. -/
def someEnd (p : Text → Bool) : Text → Bool
  | [] => p []
  | c :: rest => p (c :: rest) || someEnd p rest

/-- Whether a pattern matches a name. -/
def fits : NamePattern → Text → Bool
  | [], name => name.isEmpty
  | .anyText :: rest, name => someEnd (fits rest) name
  | piece :: rest, name =>
    match name with
    | [] => false
    | c :: name => matchesChar piece c && fits rest name

end NamePattern

end Transclude
