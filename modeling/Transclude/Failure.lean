import Transclude.Text.Digit
import Transclude.Text.Quoted
import Transclude.Text.Utf8

/-!
# What can go wrong

A pass over a document ends with a result or with a `Failure`: a cause together
with what is needed to say it. Its text is `Failure.message`.

Three causes are the business of an import: a directive without a path, a path
outside the root directory and a file that cannot be read. The others show that
a text was out of the ordinary: digits that are no numeral, a line or character
asked for where there is none.

* `Failure.isImportError`: the causes that are the business of an import.
-/

namespace Transclude

/-- Why the file system refuses a path. -/
inductive FileFault where
  | notFound
  | alreadyExists
  | notADirectory
  | isADirectory
  | nameTooLong
  deriving DecidableEq, Repr

namespace FileFault

/-- The number by which the file system reports the fault. -/
def code : FileFault → Nat
  | notFound => 2
  | alreadyExists => 17
  | notADirectory => 20
  | isADirectory => 21
  | nameTooLong => 36

/-- The fault in words. -/
def message : FileFault → String
  | notFound => "No such file or directory"
  | alreadyExists => "File exists"
  | notADirectory => "Not a directory"
  | isADirectory => "Is a directory"
  | nameTooLong => "File name too long"

/-- The fault in words, with its number and the path that was refused. -/
def describe (fault : FileFault) (path : Text) : String :=
  s!"[Errno {fault.code}] {fault.message}: {String.ofList (Text.quoted path)}"

end FileFault

namespace Utf8

/-- The kind of a fault in words. -/
def FaultKind.message : FaultKind → String
  | invalidStart => "invalid start byte"
  | invalidContinuation => "invalid continuation byte"
  | unexpectedEnd => "unexpected end of data"

/-- A fault in words: where it is, and what it is. -/
def Fault.message (fault : Fault) : String :=
  let place :=
    if fault.width = 1 then
      s!"byte 0x{String.ofList (Text.hexPadded 2 fault.byte.toNat)} in position {fault.start}"
    else s!"bytes in position {fault.start}-{fault.start + fault.width - 1}"
  s!"'utf-8' codec can't decode {place}: {fault.kind.message}"

end Utf8

/-- Why a file has no text. -/
inductive ReadFault where
  /-- The file system refuses the path. -/
  | refused (fault : FileFault)
  /-- The bytes of the file are not UTF-8. -/
  | undecodable (fault : Utf8.Fault)
  deriving DecidableEq, Repr

/-- The reason in words. -/
def ReadFault.message : ReadFault → String
  | refused fault => fault.message
  | undecodable fault => fault.message

/-- Why digits are no numeral, in words. Only the first two hundred characters of
    the quoted digits are shown. -/
def Text.NumeralError.message : Text.NumeralError → String
  | notDecimal digits =>
    let shown := (Text.quoted digits).take 200
    s!"invalid literal for int() with base 10: {String.ofList shown}"
  | tooLong count =>
    s!"Exceeds the limit ({Text.numeralLimit} digits) for integer string conversion: " ++
      s!"value has {count} digits; use sys.set_int_max_str_digits() to increase the limit"

/-- Why a pass over a document has no result. -/
inductive Failure where
  /-- The token of a directive has no path after its key, which ends at `column`. -/
  | emptyPath (token : Text) (column : Nat)
  /-- A path leads outside the root directory. -/
  | outsideRoot (path root : Text)
  /-- A file cannot be read. -/
  | unreadable (path : Text) (fault : ReadFault)
  /-- The number of a line is no numeral. -/
  | badNumeral (error : Text.NumeralError)
  /-- A path holds the character NUL, which no file name can. -/
  | nulInPath
  /-- A line is asked for that the text does not have. -/
  | noSuchLine
  /-- A character is asked for that a text does not have. -/
  | noSuchCharacter
  deriving DecidableEq, Repr

namespace Failure

/-- Whether the failure is the business of an import. -/
def isImportError : Failure → Bool
  | emptyPath .. | outsideRoot .. | unreadable .. => true
  | _ => false

/-- The failure in words. -/
def message : Failure → String
  | emptyPath token column =>
    let shown := String.ofList token
    s!"Unable to parse file path {shown}: expected a file path\n  {shown}\n  " ++
      s!"{String.ofList (Text.spaces column)}^"
  | outsideRoot path root =>
    s!"Attempted to import code from \"{String.ofList path}\", " ++
      s!"which is outside from the rootDir \"{String.ofList root}\""
  | unreadable path fault =>
    s!"Unable to read \"{String.ofList path}\": {fault.message}"
  | badNumeral error => error.message
  | nulInPath => "embedded null byte"
  | noSuchLine => "list index out of range"
  | noSuchCharacter => "string index out of range"

end Failure

end Transclude
