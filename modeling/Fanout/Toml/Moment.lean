import Fanout.Number.Literal

/-!
# Dates and times

Calendar dates, times of day, and both together, as TOML writes them. Only what can be on a calendar
or a clock is read; a minute may have a leap second.
-/

namespace Fanout.Toml

/-- A day of the calendar. -/
structure Date where
  year : Nat
  /-- The month, from one on. -/
  month : Nat
  /-- The day of the month, from one on. -/
  day : Nat
deriving DecidableEq, Repr

/-- A time of day. -/
structure Time where
  hour : Nat
  minute : Nat
  second : Nat
  nanosecond : Nat
deriving DecidableEq, Repr

/-- How far local time is from universal time. -/
inductive Offset where
  | universal
  /-- So many minutes ahead. -/
  | minutes (ahead : Int)
deriving DecidableEq, Repr

/-- A date, a time, or both. -/
inductive Moment where
  | date (date : Date)
  /-- A time on no particular day. -/
  | time (time : Time)
  /-- A time on a day, possibly at a known distance from universal time. -/
  | dateTime (date : Date) (time : Time) (offset : Option Offset)
deriving DecidableEq, Repr

/-! ## Text -/

/-- A number with at least `width` digits. -/
def padded (width n : Nat) : String :=
  let digits := Nat.toDigits 10 n
  String.ofList (List.replicate (width - digits.length) '0' ++ digits)

/-- The text of a date. -/
def Date.text (date : Date) : String :=
  padded 4 date.year ++ "-" ++ padded 2 date.month ++ "-" ++ padded 2 date.day

/-- The text of a time, its fraction without trailing zeros. -/
def Time.text (time : Time) : String :=
  let clock := padded 2 time.hour ++ ":" ++ padded 2 time.minute ++ ":" ++ padded 2 time.second
  if time.nanosecond = 0 then clock
  else
    let digits := (padded 9 time.nanosecond).toList.reverse.dropWhile (· == '0')
    clock ++ "." ++ String.ofList digits.reverse

/-- The text of an offset. -/
def Offset.text : Offset → String
  | universal => "Z"
  | minutes ahead =>
    let sign := if ahead < 0 then "-" else "+"
    sign ++ padded 2 (ahead.natAbs / 60) ++ ":" ++ padded 2 (ahead.natAbs % 60)

/-- The text of a date or time. -/
def Moment.text : Moment → String
  | date d => d.text
  | time t => t.text
  | dateTime d t offset => d.text ++ "T" ++ t.text ++ (offset.map Offset.text).getD ""

/-! ## Reading

Each reader takes what it reads from the front of a text and gives the rest. -/

/-- Read a number of exactly `count` digits. -/
def readDigits (count : Nat) (cs : List Char) : Option (Nat × List Char) := do
  let digits := cs.take count
  if digits.length < count then none
  else return (← Literal.natural? 10 digits, cs.drop count)

/-- Read a number of two digits in a range. -/
def readTwo (low high : Nat) (cs : List Char) : Option (Nat × List Char) := do
  let (n, rest) ← readDigits 2 cs
  if low ≤ n ∧ n ≤ high then return (n, rest) else none

/-- Read a certain character. -/
def readMark (mark : Char) : List Char → Option (List Char)
  | c :: rest => if c = mark then some rest else none
  | [] => none

/-- Whether a year has a leap day. -/
def isLeap (year : Nat) : Bool := year % 4 == 0 && (year % 100 != 0 || year % 400 == 0)

/-- The number of days of a month. -/
def daysIn (year month : Nat) : Nat :=
  if month = 2 then (if isLeap year then 29 else 28)
  else if month = 4 ∨ month = 6 ∨ month = 9 ∨ month = 11 then 30
  else 31

/-- Read a date. -/
def readDate (cs : List Char) : Option (Date × List Char) := do
  let (year, rest) ← readDigits 4 cs
  let (month, rest) ← readTwo 1 12 (← readMark '-' rest)
  let (day, rest) ← readTwo 1 (daysIn year month) (← readMark '-' rest)
  return (⟨year, month, day⟩, rest)

/-- Read the fraction of a second, as nanoseconds; further digits are dropped. -/
def readFraction (cs : List Char) : Nat × List Char :=
  match cs with
  | '.' :: rest =>
    let digits := (rest.takeWhile Char.isDigit).take 9
    match Literal.natural? 10 digits with
    | some n => (n * Nat.pow 10 (9 - digits.length), rest.dropWhile Char.isDigit)
    | none => (0, cs)
  | _ => (0, cs)

/-- Read a time. -/
def readTime (cs : List Char) : Option (Time × List Char) := do
  let (hour, rest) ← readTwo 0 23 cs
  let (minute, rest) ← readTwo 0 59 (← readMark ':' rest)
  let (second, rest) ← readTwo 0 60 (← readMark ':' rest)
  let (nanosecond, rest) := readFraction rest
  return (⟨hour, minute, second, nanosecond⟩, rest)

/-- Read an offset. -/
def readOffset (cs : List Char) : Option (Offset × List Char) :=
  let distance (rest : List Char) : Option (Nat × List Char) := do
    let (hours, rest) ← readTwo 0 23 rest
    let (minutes, rest) ← readTwo 0 59 (← readMark ':' rest)
    return (hours * 60 + minutes, rest)
  match cs with
  | 'Z' :: rest | 'z' :: rest => some (.universal, rest)
  | '+' :: rest => (distance rest).map fun (n, rest) => (.minutes n, rest)
  | '-' :: rest => (distance rest).map fun (n, rest) => (.minutes (-n), rest)
  | _ => none

/-- Read the time behind a date, if there is one. -/
def readTimeOfDate (date : Date) (cs : List Char) : Moment × List Char :=
  let time := match cs with
    | 'T' :: rest | 't' :: rest | ' ' :: rest => readTime rest
    | _ => none
  match time with
  | none => (.date date, cs)
  | some (time, rest) =>
    match readOffset rest with
    | some (offset, rest) => (.dateTime date time (some offset), rest)
    | none => (.dateTime date time none, rest)

/-- Read a date or a time. -/
def readMoment (cs : List Char) : Option (Moment × List Char) :=
  match readDate cs with
  | some (date, rest) => some (readTimeOfDate date rest)
  | none => (readTime cs).map fun (time, rest) => (.time time, rest)

end Fanout.Toml
