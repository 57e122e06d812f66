import CertKeeper.Asn1.Element
import CertKeeper.Time.Civil

/-!
# Times in certificates

A time is written with two digits of its year and perhaps an offset, or with four and in UTC. Both
are read as seconds since 1970.
-/

namespace CertKeeper.X509.Time

open CertKeeper.Time CertKeeper.Asn1

def pair? (a b : UInt8) : Option Nat :=
  if 48 ≤ a ∧ a ≤ 57 ∧ 48 ≤ b ∧ b ≤ 57 then some ((a.toNat - 48) * 10 + (b.toNat - 48)) else none

def readPair? : Bytes → Option (Nat × Bytes)
  | a :: b :: rest => (pair? a b).map fun n => (n, rest)
  | _ => none

/-- Seconds, unless fewer than two bytes are left. -/
def readSeconds? : Bytes → Option (Nat × Bytes)
  | [] => none
  | [b] => some (0, [b])
  | b => readPair? b

structure Fields where
  month : Nat
  day : Nat
  hour : Nat
  minute : Nat
  second : Nat

def Fields.read? (b : Bytes) : Option (Fields × Bytes) := do
  let (month, b) ← readPair? b
  let (day, b) ← readPair? b
  let (hour, b) ← readPair? b
  let (minute, b) ← readPair? b
  let (second, b) ← readSeconds? b
  if 12 < month ∨ 31 < day ∨ 23 < hour ∨ 59 < minute ∨ 59 < second then none
  else some (⟨month, day, hour, minute, second⟩, b)

def Fields.inYear? (f : Fields) (year : Int) : Option Int :=
  let d : Date := ⟨year, f.month, f.day⟩
  if d.isValid then some (timestamp d f.hour f.minute f.second) else none

/-- The seconds that a zone is ahead of UTC. Minutes take the sign of the hours, so that they are
ahead where the hours are zero. -/
def offset? : Bytes → Option Int
  | [0x5A] => some 0
  | [sign, h1, h2, m1, m2] => do
    let h ← pair? h1 h2
    let m ← pair? m1 m2
    if 25 < h ∨ 59 < m then none
    else if sign = 0x2B then some (h * 3600 + m * 60 : Nat)
    else if sign = 0x2D then
      if h = 0 then some (m * 60 : Nat) else some (-(h * 3600 + m * 60 : Nat))
    else none
  | _ => none

def fullYear (y : Nat) : Int := if 50 ≤ y then y + 1900 else y + 2000

/-- A time with two digits of its year. Its century is that of the written year, whatever the offset
makes of it. -/
def shortYear? (b : Bytes) : Option Int := do
  let (year, b) ← readPair? b
  let (f, zone) ← Fields.read? b
  let offset ← offset? zone
  let written ← f.inYear? (fullYear year)
  some (written - offset)

/-- A fraction of a second of up to three digits, which may follow a point. -/
def skipFraction? : Bytes → Option Bytes
  | [] => none
  | b :: rest =>
    if b = 0x2E then
      let digits := rest.takeWhile fun d => 48 ≤ d && d ≤ 57
      if digits.length ≤ 3 then some (rest.drop digits.length) else none
    else some (b :: rest)

def fullYear? (b : Bytes) : Option Int := do
  let (century, b) ← readPair? b
  let (year, b) ← readPair? b
  let (f, b) ← Fields.read? b
  let zone ← skipFraction? b
  if zone = [0x5A] then f.inYear? (century * 100 + year : Nat) else none

def read? (b : Bytes) : Option (Int × Bytes) := do
  let (e, rest) ← Element.read? b
  let t ←
    if e.tag = Tag.utcTime then shortYear? e.content
    else if e.tag = Tag.generalizedTime then fullYear? e.content
    else none
  some (t, rest)

end CertKeeper.X509.Time
