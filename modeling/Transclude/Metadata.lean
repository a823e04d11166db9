import Transclude.Text.Basic

/-!
# Metadata tokens

The metadata of a fence is a list of tokens with single spaces between them. A
space after a backslash does not end a token; it stays in it, with its backslash.
Two spaces in a row have an empty token between them.

* `Metadata.tokens`: the tokens of a metadata text.
-/

namespace Transclude

namespace Metadata

/-- The tokens of a text that comes after the character `before`. -/
def tokensAfter (before : Char) : Text → List Text
  | [] => [[]]
  | c :: t =>
    if c = ' ' && before ≠ '\\' then [] :: tokensAfter c t
    else match tokensAfter c t with
      | [] => [[c]]
      | token :: tokens => (c :: token) :: tokens

/-- The tokens of a metadata text: its pieces between the spaces that no
    backslash precedes. -/
def tokens (t : Text) : List Text :=
  tokensAfter ' ' t

end Metadata

end Transclude
