/-!
# Civil dates

Dates of the proleptic Gregorian calendar and their distance in days from 1970-01-01. Times are
counted in seconds since the start of that day, in UTC.
-/

namespace CertKeeper.Time

structure Date where
  year : Int
  month : Nat
  day : Nat
  deriving DecidableEq, Repr

def isLeapYear (y : Int) : Bool := y % 4 = 0 ∧ (y % 100 ≠ 0 ∨ y % 400 = 0)

def daysInMonth (y : Int) (m : Nat) : Nat :=
  if m = 2 then (if isLeapYear y then 29 else 28)
  else if m = 4 ∨ m = 6 ∨ m = 9 ∨ m = 11 then 30
  else 31

namespace Date

def isValid (d : Date) : Bool :=
  1 ≤ d.month ∧ d.month ≤ 12 ∧ 1 ≤ d.day ∧ d.day ≤ daysInMonth d.year d.month

/-- The days from 1970-01-01 to a date. Years are counted from March, so that the leap day is the
last day of a year. -/
def toDays (d : Date) : Int :=
  let y := if d.month ≤ 2 then d.year - 1 else d.year
  let era := y / 400
  let yearOfEra := y % 400
  let monthFromMarch : Int := ((d.month + 9) % 12 : Nat)
  let dayOfYear := (153 * monthFromMarch + 2) / 5 + d.day - 1
  let dayOfEra := yearOfEra * 365 + yearOfEra / 4 - yearOfEra / 100 + dayOfYear
  era * 146097 + dayOfEra - 719468

def ofDays (days : Int) : Date :=
  let z := days + 719468
  let era := z / 146097
  let dayOfEra := z % 146097
  let yearOfEra := (dayOfEra - dayOfEra / 1460 + dayOfEra / 36524 - dayOfEra / 146096) / 365
  let dayOfYear := dayOfEra - (365 * yearOfEra + yearOfEra / 4 - yearOfEra / 100)
  let monthFromMarch := (5 * dayOfYear + 2) / 153
  let day := (dayOfYear - (153 * monthFromMarch + 2) / 5 + 1).toNat
  let month := (if monthFromMarch < 10 then monthFromMarch + 3 else monthFromMarch - 9).toNat
  let year := yearOfEra + era * 400
  ⟨if month ≤ 2 then year + 1 else year, month, day⟩

end Date

def timestamp (d : Date) (hour minute second : Nat) : Int :=
  d.toDays * 86400 + (hour * 3600 + minute * 60 + second : Nat)

def monthName (m : Nat) : String :=
  let names :=
    ["Jan", "Feb", "Mar", "Apr", "May", "Jun", "Jul", "Aug", "Sep", "Oct", "Nov", "Dec"]
  names.getD (m - 1) ""

def padded (width : Nat) (pad : Char) (n : Nat) : String :=
  let digits := Nat.toDigits 10 n
  String.ofList (List.replicate (width - digits.length) pad ++ digits)

/-- A time as in `Jan  2 03:04:05 2006 UTC`. -/
def render (t : Int) : String :=
  let d := Date.ofDays (t / 86400)
  let s := (t % 86400).toNat
  monthName d.month ++ " " ++ padded 2 ' ' d.day ++ " " ++ padded 2 '0' (s / 3600) ++ ":"
    ++ padded 2 '0' (s / 60 % 60) ++ ":" ++ padded 2 '0' (s % 60) ++ " "
    ++ padded 4 '0' d.year.toNat ++ " UTC"

end CertKeeper.Time
