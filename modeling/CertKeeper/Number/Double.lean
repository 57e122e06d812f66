import CertKeeper.Number.Magnitude

/-!
# Numbers of double precision

Finite numbers with a sign. Zero has a sign as well. `shortest` finds the decimal that shows a
number in as few digits as tell it from its neighbours.
-/

namespace CertKeeper.Number

structure Double where
  negative : Bool
  /-- The magnitude in units of `2 ^ -1074`. -/
  units : Nat
  deriving DecidableEq, Repr

/-- The decimal `digits * 10 ^ exponent`. -/
structure Decimal where
  digits : Nat
  exponent : Int
  deriving DecidableEq, Repr

namespace Double

/-- The number of a sign and a magnitude, unless that is infinite. -/
def ofMagnitude? (negative : Bool) : Magnitude → Option Double
  | .finite units => some ⟨negative, units⟩
  | .infinite => none

def ofInt? (n : Int) : Option Double := ofMagnitude? (n < 0) (.ofNat n.natAbs)

/-- A multiple of `10 ^ exponent` that reads as the number of `units`, the nearer one of two. -/
def onGrid? (units : Nat) (exponent : Int) : Option Decimal :=
  let step := Nat.pow 2 Magnitude.unitExponent * Nat.pow 10 exponent.toNat
  let scale := Nat.pow 10 (-exponent).toNat
  let reads := fun digits => Magnitude.ofRatio (digits * step) scale = .finite units
  let low := units * scale / step
  let isLowNearer := 2 * (units * scale - low * step) ≤ step
  if reads low ∧ (isLowNearer ∨ ¬ reads (low + 1)) then some ⟨low, exponent⟩
  else if reads (low + 1) then some ⟨low + 1, exponent⟩
  else none

/-- The powers of ten of which multiples are needed, the greatest first. -/
def exponents : List Int := (List.range 633).map fun (i : Nat) => 308 - (i : Int)

/-- The decimal on the coarsest grid that has one that reads as the number. -/
def shortest (x : Double) : Decimal := (exponents.findSome? (onGrid? x.units)).getD ⟨0, 0⟩

end Double
end CertKeeper.Number
