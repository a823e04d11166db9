import Transclude.Text.Digit
import Transclude.Yaml.Cell

/-!
# Dates and times

A *moment* is a date, or a date with a time of day and perhaps the offset of its zone.
It is written in digits, `2024-01-02` or `2024-01-02 03:04:05.6 +01:00`
(`Written.ofText?`), and it is an error if the digits name no day or no time
(`Moment.ofWritten`).

* `Moment.text`: a moment in writing, in full;
* `Moment.describe`: a moment as it is shown among other values.
-/

namespace Transclude

namespace Yaml

/-- The offset of a time zone, in seconds. -/
abbrev Offset := Int

/-- A time of day. -/
structure Clock where
  hour : Nat
  minute : Nat
  second : Nat
  microsecond : Nat
  offset : Option Offset
  deriving DecidableEq, Repr

/-- A date, perhaps with a time of day. -/
structure Moment where
  year : Nat
  month : Nat
  day : Nat
  clock : Option Clock
  deriving DecidableEq, Repr

/-! ## Reading -/

/-- The offset of a time zone as it is written: a sign, hours and perhaps minutes. -/
structure WrittenZone where
  isNegative : Bool
  hours : Text
  minutes : Text

/-- A time of day as it is written. -/
structure WrittenClock where
  hour : Text
  minute : Text
  second : Text
  fraction : Text
  zone : Option WrittenZone

/-- A moment as it is written. -/
structure Written where
  year : Text
  month : Text
  day : Text
  clock : Option WrittenClock

namespace Written

/-- Reads at least `least` and at most `most` digits. -/
def digits? (least most : Nat) (t : Text) : Option (Text × Text) :=
  let digits := (t.take most).takeWhile Char.isDigit
  if digits.length < least then none else some (digits, t.drop digits.length)

/-- Reads one character. -/
def char? (p : Char → Bool) : Text → Option Text
  | c :: rest => if p c then some rest else none
  | [] => none

/-- Reads a time zone up to the end of the text. -/
def zone? (t : Text) : Option (Option WrittenZone) :=
  match t.dropWhile fun c => c = ' ' || c = '\t' with
  | [] => if t.isEmpty then some none else none
  | ['Z'] => some (some ⟨false, ['0'], []⟩)
  | sign :: rest =>
    if sign ≠ '+' && sign ≠ '-' then none
    else do
      let (hours, rest) ← digits? 1 2 rest
      match rest with
      | [] => some (some ⟨sign = '-', hours, []⟩)
      | colon :: rest =>
        let (minutes, rest) ← digits? 2 2 rest
        if colon = ':' && rest.isEmpty then some (some ⟨sign = '-', hours, minutes⟩) else none

/-- Reads a time of day up to the end of the text. -/
def clock? (t : Text) : Option WrittenClock := do
  let (hour, rest) ← digits? 1 2 t
  let (minute, rest) ← digits? 2 2 (← char? (· = ':') rest)
  let (second, rest) ← digits? 2 2 (← char? (· = ':') rest)
  let (fraction, rest) :=
    match rest with
    | '.' :: rest => (rest.takeWhile Char.isDigit, rest.dropWhile Char.isDigit)
    | _ => ([], rest)
  return ⟨hour, minute, second, fraction, ← zone? rest⟩

/-- Reads a moment that fills the whole text. -/
def ofText? (t : Text) : Option Written := do
  let (year, rest) ← digits? 4 4 t
  let (month, rest) ← digits? 1 2 (← char? (· = '-') rest)
  let (day, rest) ← digits? 1 2 (← char? (· = '-') rest)
  if rest.isEmpty then return ⟨year, month, day, none⟩
  let time :=
    match rest with
    | c :: after => if c = 'T' || c = 't' then after else rest.dropWhile fun c => c = ' ' || c = '\t'
    | [] => []
  if time.length < rest.length then return ⟨year, month, day, ← clock? time⟩ else none

end Written

/-- Whether a plain text writes a moment: a date alone takes all its digits. -/
def isMoment (t : Text) : Bool :=
  match Written.ofText? t with
  | none => false
  | some written => written.clock.isSome || written.month.length = 2 && written.day.length = 2

/-! ## Meaning -/

/-- The number that digits write. -/
def numberOf (digits : Text) : Nat :=
  Text.ofDigits (digits.filterMap Text.decimalValue?)

/-- Whether a year has a leap day. -/
def isLeapYear (year : Nat) : Bool :=
  year % 4 = 0 && (year % 100 ≠ 0 || year % 400 = 0)

/-- How many days a month has. -/
def daysIn (year month : Nat) : Nat :=
  if month = 2 then if isLeapYear year then 29 else 28
  else if month = 4 || month = 6 || month = 9 || month = 11 then 30
  else 31

/-- Why a date does not exist, if it does not. -/
def dateFault? (year month day : Nat) : Option String :=
  if year = 0 then some "year 0 is out of range"
  else if month < 1 || 12 < month then some "month must be in 1..12"
  else if day < 1 || daysIn year month < day then some "day is out of range for month"
  else none

/-- Why a time of day does not exist, if it does not. -/
def clockFault? (hour minute second : Nat) : Option String :=
  if 23 < hour then some "hour must be in 0..23"
  else if 59 < minute then some "minute must be in 0..59"
  else if 59 < second then some "second must be in 0..59"
  else none

/-- How many seconds a day has. -/
def secondsPerDay : Nat := 86400

/-- A span of time in days and seconds, as it is shown among other values. Only the
    days can be negative. -/
def describeSpan (seconds : Int) : String :=
  let days := seconds.fdiv secondsPerDay
  let rest := seconds.fmod secondsPerDay
  let parts := (if days = 0 then [] else [s!"days={days}"]) ++
    (if rest = 0 then [] else [s!"seconds={rest}"])
  let shown := if parts.isEmpty then "0" else ", ".intercalate parts
  s!"datetime.timedelta({shown})"

namespace Moment

/-- The offset that a time zone has. It must be shorter than a day. -/
def offsetOf (zone : WrittenZone) : Except Fault Offset :=
  let seconds := 3600 * numberOf zone.hours + 60 * numberOf zone.minutes
  let offset : Int := if zone.isNegative then -seconds else seconds
  if seconds < secondsPerDay then .ok offset
  else .error (.noSuchDate ("offset must be a timedelta strictly between " ++
    "-timedelta(hours=24) and timedelta(hours=24), not " ++ describeSpan offset ++ "."))

/-- The millionths of a second that the digits of a fraction write; more digits than
    that are dropped. -/
def microsecondsOf (fraction : Text) : Nat :=
  let digits := fraction.take 6
  numberOf (digits ++ List.replicate (6 - digits.length) '0')

/-- The time of day that is written, if it exists. The zone is looked at first and
    then, before the time, the date. -/
def clockOf (dateFault : Option String) (written : WrittenClock) : Except Fault Clock := do
  let offset ← written.zone.mapM offsetOf
  let (hour, minute, second) :=
    (numberOf written.hour, numberOf written.minute, numberOf written.second)
  match dateFault <|> clockFault? hour minute second with
  | some reason => .error (.noSuchDate reason)
  | none => return ⟨hour, minute, second, microsecondsOf written.fraction, offset⟩

/-- The moment that is written, if it exists. -/
def ofWritten (written : Written) : Except Fault Moment := do
  let (year, month, day) :=
    (numberOf written.year, numberOf written.month, numberOf written.day)
  let dateFault := dateFault? year month day
  let clock ← written.clock.mapM (clockOf dateFault)
  match dateFault with
  | some reason => .error (.noSuchDate reason)
  | none => return ⟨year, month, day, clock⟩

/-! ## Writing -/

/-- A number with zeros in front up to a width. -/
def padded (width n : Nat) : Text :=
  let digits := Text.ofNat n
  List.replicate (width - digits.length) '0' ++ digits

/-- The offset of a time zone in writing. -/
def offsetText (offset : Offset) : Text :=
  let minutes := offset.natAbs / 60
  (if offset < 0 then '-' else '+') :: padded 2 (minutes / 60) ++ ':' :: padded 2 (minutes % 60)

/-- A time of day in writing. -/
def clockText (clock : Clock) : Text :=
  padded 2 clock.hour ++ ':' :: padded 2 clock.minute ++ ':' :: padded 2 clock.second ++
    (if clock.microsecond = 0 then [] else '.' :: padded 6 clock.microsecond) ++
    ((clock.offset.map offsetText).getD [])

/-- A moment in writing; `separator` stands between the date and the time of day. -/
def text (separator : Char) (m : Moment) : Text :=
  padded 4 m.year ++ '-' :: padded 2 m.month ++ '-' :: padded 2 m.day ++
    match m.clock with
    | none => []
    | some clock => separator :: clockText clock

/-- The offset of a time zone as it is shown among other values. -/
def describeOffset (offset : Offset) : String :=
  if offset = 0 then "datetime.timezone.utc"
  else s!"datetime.timezone({describeSpan offset})"

/-- A moment as it is shown among other values. Seconds and their millionths are left
    out if nothing but zeros follows. -/
def describe (m : Moment) : String :=
  let date := [m.year, m.month, m.day]
  match m.clock with
  | none => "datetime.date(" ++ ", ".intercalate (date.map toString) ++ ")"
  | some clock =>
    let tail :=
      if clock.microsecond ≠ 0 then [clock.second, clock.microsecond]
      else if clock.second ≠ 0 then [clock.second]
      else []
    let zone := (clock.offset.map fun offset => [s!"tzinfo={describeOffset offset}"]).getD []
    let parts := (date ++ [clock.hour, clock.minute] ++ tail).map toString ++ zone
    "datetime.datetime(" ++ ", ".intercalate parts ++ ")"

end Moment

end Yaml

end Transclude
