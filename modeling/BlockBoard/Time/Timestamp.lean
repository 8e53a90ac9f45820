import BlockBoard.Number.Decimal
import BlockBoard.Text.Blank
/-!
# Timestamps

Moments in Coordinated Universal Time, as days and seconds since 1970, and their text in the profile
of RFC 3339. Reading is lenient about blanks and missing leading zeros; writing is not.

- `Timestamp.ofText?`: the moment that a text names.
- `Timestamp.text`: the text of a moment.
-/

namespace BlockBoard

/-- A day of the calendar that counts leap years in all centuries, past and future. -/
structure CalendarDay where
  year : Int
  month : Nat
  day : Nat
  deriving DecidableEq, Repr

namespace CalendarDay

/-- Whether a year has a leap day. -/
def isLeap (year : Int) : Bool :=
  year % 4 == 0 && (year % 100 != 0 || year % 400 == 0)

/-- The number of days in a month. -/
def monthLength (year : Int) : Nat → Nat
  | 2 => if isLeap year then 29 else 28
  | 4 | 6 | 9 | 11 => 30
  | _ => 31

/-- The years that there are. -/
def hasYear (year : Int) : Bool := decide (-262143 ≤ year ∧ year ≤ 262142)

/-- Whether there is such a day. -/
def isValid (d : CalendarDay) : Bool :=
  hasYear d.year && decide (1 ≤ d.month ∧ d.month ≤ 12) &&
    decide (1 ≤ d.day ∧ d.day ≤ monthLength d.year d.month)

/-- The number of days from the first of March of the year zero to the first of January 1970. -/
def epochOffset : Int := 719468

/-- The number of days since 1970. A year is counted from March on, so that a leap day is its last. -/
def number (d : CalendarDay) : Int :=
  let year := if d.month ≤ 2 then d.year - 1 else d.year
  let month : Int := (d.month + 9) % 12
  365 * year + year / 4 - year / 100 + year / 400 + (153 * month + 2) / 5 + (d.day - 1) - epochOffset

/-- The day with a number. -/
def ofNumber (n : Int) : CalendarDay :=
  let n := n + epochOffset
  let era := n / 146097
  let inEra := n % 146097
  let yearInEra := (inEra - inEra / 1460 + inEra / 36524 - inEra / 146096) / 365
  let inYear := inEra - (365 * yearInEra + yearInEra / 4 - yearInEra / 100)
  let month := (5 * inYear + 2) / 153
  let day := inYear - (153 * month + 2) / 5 + 1
  let month := if month < 10 then month + 3 else month - 9
  ⟨yearInEra + era * 400 + (if month ≤ 2 then 1 else 0), month.toNat, day.toNat⟩

end CalendarDay

/-- A moment: seconds since 1970 without leap seconds, and nanoseconds, which go beyond a second during
a leap second. -/
structure Timestamp where
  seconds : Int
  nanos : Nat := 0
  deriving DecidableEq, Repr

namespace Timestamp

/-! ## Reading -/

/-- A text without blanks at its start. -/
def skipBlanks (s : List Char) : List Char := s.dropWhile isBlank

/-- A number of one to `width` digits, and the rest. -/
def digits? (width : Nat) (s : List Char) : Option (Nat × List Char) :=
  let ds := (s.take width).takeWhile Char.isDigit
  if ds.isEmpty then none else some (digitsValue ds, s.drop ds.length)

/-- A number with blanks allowed before it. -/
def field? (width : Nat) (s : List Char) : Option (Nat × List Char) := digits? width (skipBlanks s)

/-- A year: up to four digits, or any number of them after a sign. -/
def year? (s : List Char) : Option (Int × List Char) :=
  match skipBlanks s with
  | '-' :: r => (digits? r.length r).map fun (n, rest) => (-(n : Int), rest)
  | '+' :: r => (digits? r.length r).map fun (n, rest) => ((n : Int), rest)
  | r => (digits? 4 r).map fun (n, rest) => ((n : Int), rest)

/-- The text after a mark, with blanks allowed before the mark. -/
def mark? (c : Char) (s : List Char) : Option (List Char) :=
  match skipBlanks s with
  | d :: r => if d = c then some r else none
  | [] => none

/-- A part of a second in nanoseconds, if a point follows; digits beyond the ninth do not count. -/
def fraction? : List Char → Option (Nat × List Char)
  | '.' :: r => do
    let (n, rest) ← digits? 9 r
    let width := r.length - rest.length
    return (n * Nat.pow 10 (9 - width), rest.dropWhile Char.isDigit)
  | r => some (0, r)

/-- Two digits. -/
def twoDigits? : List Char → Option (Nat × List Char)
  | a :: b :: r => if a.isDigit && b.isDigit then some (digitsValue [a, b], r) else none
  | _ => none

/-- The distance from Coordinated Universal Time in seconds. -/
def offset? (s : List Char) : Option (Int × List Char) :=
  let s := skipBlanks s
  if String.ofList ((s.take 3).map Char.toLower) == "utc" then some (0, s.drop 3)
  else match s with
    | [] => none
    | c :: r => do
      if c == 'Z' || c == 'z' then return (0, r)
      let sign ← if c == '+' then some 1 else if c == '-' || c == '\u2212' then some (-1) else none
      let (hours, r) ← twoDigits? r
      let (minutes, r) ← twoDigits? (r.dropWhile fun c => c == ':' || isBlank c)
      if minutes < 60 ∧ hours < 24 then
        return (sign * ((hours * 3600 + minutes * 60 : Nat) : Int), r)
      else none

/-- A day and what stands between it and the time. -/
def day? (s : List Char) : Option (CalendarDay × List Char) := do
  let (year, s) ← year? s
  let (month, s) ← field? 2 (← mark? '-' s)
  let (day, s) ← field? 2 (← mark? '-' s)
  let d : CalendarDay := ⟨year, month, day⟩
  match s with
  | c :: r => if d.isValid && (c == 't' || c == 'T' || c == ' ') then some (d, r) else none
  | [] => none

/-- The seconds of a day and the nanoseconds. A sixtieth second is a leap second. -/
def time? (s : List Char) : Option (Nat × Nat × List Char) := do
  let (hour, s) ← field? 2 s
  let (minute, s) ← field? 2 (← mark? ':' s)
  let (second, s) ← field? 2 (← mark? ':' s)
  let (nanos, s) ← fraction? s
  if hour < 24 ∧ minute < 60 ∧ second ≤ 60 then
    let start := hour * 3600 + minute * 60
    return if second = 60 then (start + 59, nanos + 1000000000, s) else (start + second, nanos, s)
  else none

/-- The moment that a text names. -/
def ofText? (s : String) : Option Timestamp := do
  let (day, s) ← day? s.toList
  let (second, nanos, s) ← time? s
  let (offset, s) ← offset? s
  let seconds := day.number * 86400 + second - offset
  if (skipBlanks s).isEmpty && CalendarDay.hasYear (CalendarDay.ofNumber (seconds / 86400)).year then
    some ⟨seconds, nanos⟩
  else none

/-! ## Writing -/

/-- A number with at least `width` digits. -/
def padded (width n : Nat) : String :=
  let ds := Nat.toDigits 10 n
  String.ofList (List.replicate (width - ds.length) '0' ++ ds)

/-- A year: four digits, or a sign and five or more. -/
def yearText (year : Int) : String :=
  if 0 ≤ year ∧ year ≤ 9999 then padded 4 year.toNat
  else (if year < 0 then "-" else "+") ++ padded 4 year.natAbs

/-- A part of a second: nothing, or three, six or nine digits. -/
def fractionText (nanos : Nat) : String :=
  if nanos = 0 then ""
  else if nanos % 1000000 = 0 then "." ++ padded 3 (nanos / 1000000)
  else if nanos % 1000 = 0 then "." ++ padded 6 (nanos / 1000)
  else "." ++ padded 9 nanos

/-- The text of a moment. -/
def text (t : Timestamp) : String :=
  let d := CalendarDay.ofNumber (t.seconds / 86400)
  let s := (t.seconds % 86400).toNat
  yearText d.year ++ "-" ++ padded 2 d.month ++ "-" ++ padded 2 d.day ++ "T" ++
    padded 2 (s / 3600) ++ ":" ++ padded 2 (s / 60 % 60) ++ ":" ++
    padded 2 (s % 60 + t.nanos / 1000000000) ++ fractionText (t.nanos % 1000000000) ++ "Z"

end Timestamp

end BlockBoard
