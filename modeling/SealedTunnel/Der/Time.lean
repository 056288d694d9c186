import SealedTunnel.Der.Element

/-!
# Times

* `Moment` — a calendar date, a time of day and an offset from universal time.
* `Moment.seconds` — seconds since the start of 1970.
* `timeOf?` — the time an element shows.
-/

namespace SealedTunnel

namespace Der

/-- A date and a time of day somewhere. -/
structure Moment where
  /-- the year -/
  year : Nat
  /-- the month, from 1 -/
  month : Nat
  /-- the day of the month, from 1 -/
  day : Nat
  /-- the hour -/
  hour : Nat
  /-- the minute -/
  minute : Nat
  /-- the second -/
  second : Nat
  /-- how many minutes the place is ahead of universal time -/
  ahead : Int
  deriving DecidableEq, Repr

/-- Whether a year has a 29th of February. -/
def isLeap (year : Nat) : Bool := year % 4 == 0 && (year % 100 != 0 || year % 400 == 0)

/-- The number of days in a month. -/
def daysIn (year month : Nat) : Nat :=
  if month = 2 then (if isLeap year then 29 else 28)
  else if month ∈ [4, 6, 9, 11] then 30 else 31

/-- The number of days from the start of year 0 to the start of a year. -/
def daysBefore : (year : Nat) → Nat
  | 0 => 0
  | year + 1 =>
    -- years 0, …, `year` have passed; year 0 is a leap year
    (year + 1) * 365 + (year / 4 + 1) - (year / 100 + 1) + (year / 400 + 1)

/-- The start of 1970 in days from the start of year 0. -/
def epoch : Nat := daysBefore 1970

namespace Moment

/-- Whether the calendar and the clock have this moment. -/
def isValid (m : Moment) : Bool :=
  1 ≤ m.month && m.month ≤ 12 && 1 ≤ m.day && m.day ≤ daysIn m.year m.month &&
    m.hour ≤ 23 && m.minute ≤ 59 && m.second ≤ 59

/-- Seconds since the start of 1970. -/
def seconds (m : Moment) : Int :=
  let months := ((List.range (m.month - 1)).map fun i => daysIn m.year (i + 1)).sum
  let days : Int := ((daysBefore m.year + months + (m.day - 1) : Nat) : Int) - (epoch : Nat)
  days * 86400 + ((m.hour * 3600 + m.minute * 60 + m.second : Nat) : Int) - m.ahead * 60

end Moment

/-! ## Reading -/

/-- Two decimal digits. -/
def pair? (hi lo : UInt8) : Option Nat :=
  if 0x30 ≤ hi && hi ≤ 0x39 && 0x30 ≤ lo && lo ≤ 0x39 then
    some ((hi.toNat - 0x30) * 10 + (lo.toNat - 0x30))
  else none

/-- The numbers of two digits each at the start of an input. -/
def pairs? : (count : Nat) → Bytes → Option (List Nat × Bytes)
  | 0, input => some ([], input)
  | count + 1, hi :: lo :: rest => do
    let n ← pair? hi lo
    let (more, rest) ← pairs? count rest
    return (n :: more, rest)
  | _ + 1, _ => none

/-- The seconds, which may be left out, if something follows them. -/
def seconds? : Bytes → Option (Nat × Bytes)
  | hi :: lo :: rest => do
    let n ← pair? hi lo
    return (n, rest)
  | rest => some (0, rest)

/-- The widest offset in hours. -/
def maxHours : Nat := 25

/-- How many minutes a zone is ahead of universal time. The sign belongs to the hours; minutes
follow it where the hours are not zero. -/
def ahead? : Bytes → Option Int
  | [0x5a] => some 0
  | [sign, h1, h2, m1, m2] => do
    let hours ← pair? h1 h2
    let minutes ← pair? m1 m2
    let total : Int := ((hours * 60 + minutes : Nat) : Int)
    if maxHours < hours ∨ 59 < minutes then none
    else if sign = 0x2b then some total
    else if sign = 0x2d then some (if hours = 0 then total else -total)
    else none
  | _ => none

/-- The moment with these numbers, if there is one. -/
def moment? (year month day hour minute second : Nat) (ahead : Int) : Option Moment :=
  let m : Moment := { year, month, day, hour, minute, second, ahead }
  if m.isValid then some m else none

/-- The year that two digits stand for. -/
def century (year : Nat) : Nat := if 50 ≤ year then year + 1900 else year + 2000

/-- A time with a year of two digits. -/
def utcTime? (input : Bytes) : Option Moment := do
  match ← pairs? 5 input with
  | ([year, month, day, hour, minute], rest) =>
    let (second, rest) ← seconds? rest
    moment? (century year) month day hour minute second (← ahead? rest)
  | _ => none

/-- What follows a fraction of at most three digits. -/
def skipFraction : Bytes → Bytes
  | 0x2e :: rest =>
    let isDigit := fun (b : UInt8) => 0x30 ≤ b && b ≤ 0x39
    rest.drop (min 3 (rest.takeWhile isDigit).length)
  | rest => rest

/-- A time with a year of four digits, in universal time. -/
def generalizedTime? (input : Bytes) : Option Moment := do
  match ← pairs? 6 input with
  | ([high, low, month, day, hour, minute], rest) =>
    let (second, rest) ← seconds? rest
    if skipFraction rest = [0x5a] then
      moment? (high * 100 + low) month day hour minute second 0
    else none
  | _ => none

/-- The time an element shows. -/
def timeOf? (e : Element) : Option Moment :=
  if e.tag = Tag.utcTime then utcTime? e.content
  else if e.tag = Tag.generalizedTime then generalizedTime? e.content
  else none

end Der

end SealedTunnel
