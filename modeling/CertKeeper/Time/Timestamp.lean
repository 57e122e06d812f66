import CertKeeper.Text.Blank
import CertKeeper.Time.Civil

/-!
# Timestamps of objects

Objects carry times as in `2006-01-02T03:04:05Z`. What is read may be written more loosely: with
blanks, with fewer digits, with a fraction of a second, which is dropped, and with an offset.
-/

namespace CertKeeper.Time

/-- A point in time, in whole seconds since 1970. The leap second after a second counts with it. -/
structure Timestamp where
  seconds : Int
  isLeap : Bool
  deriving DecidableEq, Repr

namespace Timestamp

def valueOf (digits : List Char) : Nat := digits.foldl (fun acc c => acc * 10 + (c.toNat - 48)) 0

/-- A number of at least one and at most `width` digits, after blanks. -/
def number? (width : Nat) (cs : List Char) : Option (Nat × List Char) :=
  let cs := Text.trimStart cs
  let digits := (cs.take width).takeWhile Char.isDigit
  if digits.isEmpty then none else some (valueOf digits, cs.drop digits.length)

def wideNumber? (cs : List Char) : Option (Int × List Char) :=
  let digits := cs.takeWhile Char.isDigit
  if digits.isEmpty then none else some (valueOf digits, cs.dropWhile Char.isDigit)

/-- A year of up to four digits, or of any number of them after a sign. -/
def year? (cs : List Char) : Option (Int × List Char) :=
  match Text.trimStart cs with
  | '-' :: rest => (wideNumber? rest).map fun y => (-y.1, y.2)
  | '+' :: rest => wideNumber? rest
  | cs => (number? 4 cs).map fun y => (y.1, y.2)

def mark? (mark : Char) (cs : List Char) : Option (List Char) :=
  match Text.trimStart cs with
  | c :: rest => if c = mark then some rest else none
  | [] => none

def separator? : List Char → Option (List Char)
  | c :: rest => if c = 'T' ∨ c = 't' ∨ c = ' ' then some rest else none
  | [] => none

def fraction? : List Char → Option (List Char)
  | '.' :: rest =>
    if (rest.headD ' ').isDigit then some (rest.dropWhile Char.isDigit) else none
  | rest => some rest

def pair? : List Char → Option (Nat × List Char)
  | a :: b :: rest => if a.isDigit ∧ b.isDigit then some (valueOf [a, b], rest) else none
  | _ => none

/-- An offset in hours and minutes, which may be apart from each other. -/
def offset? (cs : List Char) : Option (Nat × List Char) := do
  let (h, rest) ← pair? cs
  let (m, rest) ← pair? (rest.dropWhile fun c => c = ':' || Text.isBlank c)
  let offset := h * 3600 + m * 60
  if 59 < m ∨ 86400 ≤ offset then none else some (offset, rest)

def minusSign : Char := Char.ofNat 0x2212

/-- The seconds that a zone is ahead of UTC. -/
def zone? (cs : List Char) : Option (Int × List Char) :=
  let cs := Text.trimStart cs
  if (cs.take 3).map Char.toUpper = ['U', 'T', 'C'] then some (0, cs.drop 3)
  else
    match cs with
    | [] => none
    | c :: rest =>
      if c = 'Z' ∨ c = 'z' then some (0, rest)
      else if c = '+' then (offset? rest).map fun o => (o.1, o.2)
      else if c = '-' ∨ c = minusSign then (offset? rest).map fun o => (-(o.1 : Int), o.2)
      else none

def firstYear : Int := -262143

def lastYear : Int := 262142

def firstSecond : Int := timestamp ⟨firstYear, 1, 1⟩ 0 0 0

def lastSecond : Int := timestamp ⟨lastYear, 12, 31⟩ 23 59 59

def isInRange (seconds : Int) : Bool := firstSecond ≤ seconds ∧ seconds ≤ lastSecond

/-- The time of a date and a clock that is ahead of UTC. The sixtieth second is the leap second
after the one before it. -/
def ofClock? (d : Date) (hour minute second : Nat) (ahead : Int) : Option Timestamp :=
  let seconds := timestamp d hour minute (min second 59) - ahead
  if d.isValid ∧ firstYear ≤ d.year ∧ d.year ≤ lastYear ∧ hour ≤ 23 ∧ minute ≤ 59 ∧ second ≤ 60
      ∧ isInRange seconds then
    some ⟨seconds, second = 60⟩
  else none

def parse? (s : String) : Option Timestamp := do
  let (year, rest) ← year? s.toList
  let (month, rest) ← number? 2 (← mark? '-' rest)
  let (day, rest) ← number? 2 (← mark? '-' rest)
  let (hour, rest) ← number? 2 (← separator? rest)
  let (minute, rest) ← number? 2 (← mark? ':' rest)
  let (second, rest) ← number? 2 (← mark? ':' rest)
  let (ahead, rest) ← zone? (← fraction? rest)
  if rest.all Text.isBlank then ofClock? ⟨year, month, day⟩ hour minute second ahead else none

/-- A year in four digits, with a sign where that is not enough. -/
def yearText (y : Int) : String :=
  let digits := padded 4 '0' y.natAbs
  if y < 0 then "-" ++ digits else if 9999 < y then "+" ++ digits else digits

def render (t : Timestamp) : String :=
  let d := Date.ofDays (t.seconds / 86400)
  let s := (t.seconds % 86400).toNat
  let second := s % 60 + (if t.isLeap then 1 else 0)
  yearText d.year ++ "-" ++ padded 2 '0' d.month ++ "-" ++ padded 2 '0' d.day ++ "T"
    ++ padded 2 '0' (s / 3600) ++ ":" ++ padded 2 '0' (s / 60 % 60) ++ ":" ++ padded 2 '0' second
    ++ "Z"

def millis (t : Timestamp) : Int := (t.seconds + if t.isLeap then 1 else 0) * 1000

end Timestamp
end CertKeeper.Time
