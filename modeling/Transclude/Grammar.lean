import Transclude.Text.Basic

/-!
# The words of the directive language

A directive is a token of a fence's metadata; which token it is and how its path
and its template are read depends on four words, which a project may choose.
-/

namespace Transclude

/-- The words of the directive language. -/
structure Grammar where
  /-- What the token that names the imported file starts with. -/
  fileKey : Text := "file=".toList
  /-- The token that selects sections by marker. -/
  inlineFlag : Text := "inline".toList
  /-- What a path starts with to mean the root directory. -/
  rootToken : Text := "<rootDir>".toList
  /-- The word that introduces a marker. -/
  markerToken : Text := "group".toList
  deriving DecidableEq, Repr

end Transclude
