/-!
# Notices

What a run has to say beside its result is a list of *notices*. A note has a
level and is shown only at that verbosity or above; a warning is always shown.
-/

namespace Transclude

/-- Something that a run says beside its result. -/
inductive Notice where
  /-- A message for those who ask for this much detail. -/
  | note (level : Int) (message : String)
  /-- A message for everyone: the output is incomplete. -/
  | warning (message : String)
  deriving DecidableEq, Repr

namespace Notice

/-- Whether a notice is shown at this verbosity. -/
def isShown (verbosity : Int) : Notice → Bool
  | note level _ => level ≤ verbosity
  | warning _ => true

/-- The word for the severity of a notice. -/
def severity : Notice → String
  | note .. => "DEBUG"
  | warning _ => "WARNING"

/-- What a notice says. -/
def message : Notice → String
  | note _ message => message
  | warning message => message

end Notice

end Transclude
