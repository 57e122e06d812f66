/-!
# Magnitudes of double precision

The non-negative numbers of double precision are the multiples of `2 ^ -1074` that have at most 53
significant bits and lie below `2 ^ 1024`, and infinity. Every result is the exact one, rounded to
the nearest of them; of two equally near ones the even one is taken.
-/

namespace CertKeeper.Number

inductive Magnitude where
  /-- A number of units of `2 ^ -1074`. -/
  | finite (units : Nat)
  | infinite
  deriving DecidableEq, Repr

namespace Magnitude

/-- The exponent of the unit, negated. -/
def unitExponent : Nat := 1074

/-- The least number of units that is out of range. -/
def limit : Nat := Nat.pow 2 (1024 + unitExponent)

/-- The quotient rounded to the nearest integer, a half to the even neighbour. -/
def roundDiv (num den : Nat) : Nat :=
  let q := num / den
  let r := num % den
  if 2 * r < den then q
  else if den < 2 * r then q + 1
  else if q % 2 = 0 then q else q + 1

def bitLength (n : Nat) : Nat := if n = 0 then 0 else n.log2 + 1

def ofRatio (num den : Nat) : Magnitude :=
  let scale := Nat.pow 2 (bitLength (num / den) - 53)
  let units := roundDiv num (den * scale) * scale
  if units < limit then finite units else infinite

def ofDecimal (digits places : Nat) : Magnitude :=
  ofRatio (digits * Nat.pow 2 unitExponent) (Nat.pow 10 places)

def ofNat (n : Nat) : Magnitude := ofRatio (n * Nat.pow 2 unitExponent) 1

def mul : Magnitude → Magnitude → Magnitude
  | finite a, finite b => ofRatio (a * b) (Nat.pow 2 unitExponent)
  | _, _ => infinite

def div : Magnitude → Magnitude → Magnitude
  | finite a, finite b => ofRatio (a * Nat.pow 2 unitExponent) b
  | _, _ => infinite

def scale (n : Nat) : Magnitude → Magnitude
  | finite units => ofRatio (units * n) 1
  | infinite => infinite

def add : Magnitude → Magnitude → Magnitude
  | finite a, finite b => ofRatio (a + b) 1
  | _, _ => infinite

/-- The nearest integer, a half away from zero, or `top` for what exceeds it. -/
def toNatBelow (top : Nat) : Magnitude → Nat
  | finite units => min ((2 * units + Nat.pow 2 unitExponent) / Nat.pow 2 (unitExponent + 1)) top
  | infinite => top

theorem toNatBelow_le (top : Nat) (m : Magnitude) : m.toNatBelow top ≤ top := by
  cases m
  · exact Nat.min_le_right _ _
  · exact Nat.le_refl top

end Magnitude
end CertKeeper.Number
