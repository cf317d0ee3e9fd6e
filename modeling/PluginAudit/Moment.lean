import PluginAudit.Decimal.Numeral
import PluginAudit.Decimal.Shortest

/-!
Moments: seconds since the start of 1970 with a fraction in nanoseconds and the offset of the clock
they were read from, and their calendar dates.
-/

namespace PluginAudit

/-- A moment, with the offset in minutes of the clock that shows it. -/
structure Moment where
  seconds : Int
  nanoseconds : Nat := 0
  offset : Int := 0
deriving DecidableEq, Repr

structure Date where
  year : Int
  month : Nat
  day : Nat
deriving DecidableEq, Repr

namespace Date

/-- The day that is a number of days after the first of January 1970. Years are counted from March,
so that a leap day is the last of its year. -/
def ofDays (days : Int) : Date :=
  let z := days + 719468
  let era := z.fdiv 146097
  let dayOfEra := (z - era * 146097).toNat
  let yearOfEra := (dayOfEra - dayOfEra / 1460 + dayOfEra / 36524 - dayOfEra / 146096) / 365
  let dayOfYear := dayOfEra - (365 * yearOfEra + yearOfEra / 4 - yearOfEra / 100)
  let shifted := (5 * dayOfYear + 2) / 153
  let month := if shifted < 10 then shifted + 3 else shifted - 9
  let year : Int := yearOfEra + era * 400 + (if month ≤ 2 then 1 else 0)
  ⟨year, month, dayOfYear - (153 * shifted + 2) / 5 + 1⟩

def toDays (d : Date) : Int :=
  let year : Int := if d.month ≤ 2 then d.year - 1 else d.year
  let era := year.fdiv 400
  let yearOfEra := (year - era * 400).toNat
  let shifted := if d.month > 2 then d.month - 3 else d.month + 9
  let dayOfYear := (153 * shifted + 2) / 5 + d.day - 1
  let dayOfEra := yearOfEra * 365 + yearOfEra / 4 - yearOfEra / 100 + dayOfYear
  era * 146097 + dayOfEra - 719468

def isLeap (year : Int) : Bool := year % 4 == 0 && (year % 100 != 0 || year % 400 == 0)

def daysIn (year : Int) (month : Nat) : Nat :=
  if month == 2 then (if isLeap year then 29 else 28)
  else if month == 4 || month == 6 || month == 9 || month == 11 then 30
  else 31

end Date

namespace Moment

def twoDigits (n : Nat) : String :=
  if n < 10 then "0" ++ Decimal.natText n else Decimal.natText n

def yearText (year : Int) : String :=
  let digits := Decimal.natText year.natAbs
  let padded := String.ofList (List.replicate (4 - digits.length) '0') ++ digits
  if year < 0 then "-" ++ padded else padded

def shown (m : Moment) : Date × Nat :=
  let s := m.seconds + m.offset * 60
  (Date.ofDays (s.fdiv 86400), (s.fmod 86400).toNat)

def dateText (d : Date) : String :=
  yearText d.year ++ "-" ++ twoDigits d.month ++ "-" ++ twoDigits d.day

def clockText (seconds : Nat) : String :=
  twoDigits (seconds / 3600) ++ ":" ++ twoDigits (seconds / 60 % 60) ++ ":" ++ twoDigits
    (seconds % 60)

def plainText (m : Moment) : String :=
  let (date, seconds) := { m with offset := 0 }.shown
  dateText date ++ " " ++ clockText seconds

/-! ### Full texts -/

def fractionText (nanoseconds : Nat) : String :=
  let digits := (Decimal.natText nanoseconds).toList
  let padded := List.replicate (9 - digits.length) '0' ++ digits
  let kept := (padded.reverse.dropWhile (· == '0')).reverse
  if kept.isEmpty then "" else "." ++ String.ofList kept

def offsetText (offset : Int) : String :=
  if offset = 0 then "Z"
  else
    let minutes := offset.natAbs
    (if offset < 0 then "-" else "+") ++ twoDigits (minutes / 60) ++ ":" ++ twoDigits (minutes % 60)

def fullText (m : Moment) : String :=
  let (date, seconds) := m.shown
  dateText date ++ "T" ++ clockText seconds ++ fractionText m.nanoseconds ++ offsetText m.offset

/-- Why no document can hold a moment, if none can. -/
def obstacle? (m : Moment) : Option String :=
  let year := m.shown.1.year
  let cause? := if year < 0 ∨ 9999 < year then some "year outside of range [0,9999]"
    else if 1440 ≤ m.offset.natAbs then some "timezone hour outside of range [0,23]" else none
  cause?.map ("json: error calling MarshalJSON for type time.Time: Time.MarshalJSON: " ++ ·)

/-- A number of exactly so many digits at the start of a text, between two bounds. -/
def number? (width low high : Nat) (s : List Char) : Option (Nat × List Char) :=
  let digits := s.take width
  let n := Decimal.natOfDigits digits
  if digits.length = width ∧ digits.all Char.isDigit ∧ low ≤ n ∧ n ≤ high then
    some (n, s.drop width)
  else none

def mark? (c : Char) : List Char → Option (List Char)
  | d :: rest => if c = d then some rest else none
  | [] => none

def hour? (s : List Char) : Option (Nat × List Char) :=
  (number? 2 0 23 s).or ((number? 1 0 9 s).filter fun (_, rest) => rest.head? = some ':')

/-- The nanoseconds of a fraction, if there is one; digits beyond the ninth do not count. -/
def fraction (s : List Char) : Nat × List Char :=
  match s with
  | [] => (0, s)
  | c :: rest =>
    let (digits, rest) := rest.span Char.isDigit
    if (c = '.' ∨ c = ',') ∧ digits ≠ [] then
      let kept := digits.take 9
      (Decimal.natOfDigits (kept ++ List.replicate (9 - kept.length) '0'), rest)
    else (0, s)

def offset? : List Char → Option Int
  | ['Z'] => some 0
  | c :: rest => do
    let sign : Int ← if c = '+' then some 1 else if c = '-' then some (-1) else none
    let (hours, rest) ← number? 2 0 24 rest
    let rest ← mark? ':' rest
    let (minutes, rest) ← number? 2 0 60 rest
    if rest.isEmpty then some (sign * (hours * 60 + minutes : Nat)) else none
  | [] => none

/-- The moment that a text as in `2026-05-06T07:08:09.5+02:00` stands for. -/
def parse? (s : List Char) : Option Moment := do
  let (year, s) ← number? 4 0 9999 s
  let s ← mark? '-' s
  let (month, s) ← number? 2 1 12 s
  let s ← mark? '-' s
  let (day, s) ← number? 2 1 (Date.daysIn year month) s
  let s ← mark? 'T' s
  let (hour, s) ← hour? s
  let s ← mark? ':' s
  let (minute, s) ← number? 2 0 59 s
  let s ← mark? ':' s
  let (second, s) ← number? 2 0 59 s
  let (nanoseconds, s) := fraction s
  let offset ← offset? s
  some ⟨(Date.toDays ⟨year, month, day⟩) * 86400 +
    (hour * 3600 + minute * 60 + second : Nat) - offset * 60,
    nanoseconds, offset⟩

end Moment

end PluginAudit
