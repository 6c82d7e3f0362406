import Schemata.Number.Decimal

/-!
# `Schemata.Value.Moment` — dates and times

## Contents
- `Date` with `Date.isValid` and the count of days `Date.ordinal`.
- `Timestamp`, a date with a time of day and perhaps an offset from universal time; `Timestamp.same`
  compares instants, `Timestamp.text` and `Timestamp.quoted` write it.
-/

namespace Schemata

-- the core zero, also beside the zeros of other libraries
attribute [local instance (high)] Zero.ofOfNat0

/-- A day of the Gregorian calendar. -/
structure Date where
  year : Nat
  month : Nat
  day : Nat
deriving DecidableEq, Repr

namespace Date

/-- Whether a year has a leap day. -/
def isLeap (year : Nat) : Bool := (year % 4 == 0 && year % 100 != 0) || year % 400 == 0

/-- The lengths of the months of a year. -/
def monthLengths (year : Nat) : List Nat :=
  [31, if isLeap year then 29 else 28, 31, 30, 31, 30, 31, 31, 30, 31, 30, 31]

/-- Whether the day exists in a year from 1 to 9999. -/
def isValid (d : Date) : Bool :=
  1 ≤ d.year && d.year ≤ 9999 && 1 ≤ d.month && 1 ≤ d.day &&
    (match (monthLengths d.year)[d.month - 1]? with
      | some length => d.day ≤ length
      | none => false)

/-- Number of days from the first day of year 1, which is day 1. -/
def ordinal (d : Date) : Nat :=
  let y := d.year - 1
  365 * y + y / 4 - y / 100 + y / 400 + ((monthLengths d.year).take (d.month - 1)).sum + d.day

/-- A number with zeros in front up to a width. -/
def padded (width n : Nat) : String :=
  let digits := Nat.toDigits 10 n
  String.ofList (List.replicate (width - digits.length) '0' ++ digits)

/-- Year, month and day with dashes between them. -/
def text (d : Date) : String := s!"{padded 4 d.year}-{padded 2 d.month}-{padded 2 d.day}"

/-- How a date is written inside other values. -/
def quoted (d : Date) : String := s!"datetime.date({d.year}, {d.month}, {d.day})"

end Date

/-- A date with a time of day. The offset from universal time is in seconds. -/
structure Timestamp where
  date : Date
  hour : Nat
  minute : Nat
  second : Nat
  micro : Nat
  offset : Option Int
deriving DecidableEq, Repr

namespace Timestamp

/-- Microseconds from the start of year 1 on the clock that the timestamp shows. -/
def clock (t : Timestamp) : Int :=
  ((((t.date.ordinal * 24 + t.hour) * 60 + t.minute) * 60 + t.second) * 1000000 + t.micro : Nat)

/-- Timestamps with offsets are the same when they name one instant; one with and one without an offset
never are. -/
def same (a b : Timestamp) : Bool :=
  match a.offset, b.offset with
  | none, none => a.clock == b.clock
  | some s, some t => a.clock - s * 1000000 == b.clock - t * 1000000
  | _, _ => false

/-- The offset as sign, hours and minutes. -/
def offsetText (seconds : Int) : String :=
  let n := seconds.natAbs
  let sign := if seconds < 0 then "-" else "+"
  let base := sign ++ Date.padded 2 (n / 3600) ++ ":" ++ Date.padded 2 (n / 60 % 60)
  if n % 60 = 0 then base else base ++ ":" ++ Date.padded 2 (n % 60)

/-- Date and time of day with a space between them. -/
def text (t : Timestamp) : String :=
  let micro := if t.micro = 0 then "" else "." ++ Date.padded 6 t.micro
  let offset := (t.offset.map offsetText).getD ""
  let time := s!"{Date.padded 2 t.hour}:{Date.padded 2 t.minute}:{Date.padded 2 t.second}"
  s!"{t.date.text} {time}" ++ micro ++ offset

/-- A duration below a day in whole days and seconds. -/
def durationText (seconds : Int) : String :=
  let days := Int.fdiv seconds 86400
  let rest := Int.fmod seconds 86400
  let parts := (if days = 0 then [] else [s!"days={days}"]) ++ (if rest = 0 then [] else [s!"seconds={rest}"])
  "datetime.timedelta(" ++ (if parts.isEmpty then "0" else ", ".intercalate parts) ++ ")"

/-- How a timestamp is written inside other values. -/
def quoted (t : Timestamp) : String :=
  let time := [t.hour, t.minute] ++
    (if t.micro = 0 then (if t.second = 0 then [] else [t.second]) else [t.second, t.micro])
  let fields := [t.date.year, t.date.month, t.date.day] ++ time
  let zone :=
    match t.offset with
    | none => []
    | some s =>
      if s = 0 then ["tzinfo=datetime.timezone.utc"]
      else ["tzinfo=datetime.timezone(" ++ durationText s ++ ")"]
  "datetime.datetime(" ++ ", ".intercalate (fields.map toString ++ zone) ++ ")"

end Timestamp

end Schemata
