import CertKeeper.Number.Double

/-!
# Numerals

The numbers of JSON as they are written. An integer that 64 bits hold is exact. The others are read
in double precision from their leading digits, and printed in as few digits as tell them apart.
-/

namespace CertKeeper

open Number

structure Numeral where
  negative : Bool
  whole : List Char
  fraction : Option (List Char)
  exponent : Option (Bool × List Char)
  deriving DecidableEq, Repr

namespace Numeral

def digits? (cs : List Char) : Option (List Char × List Char) :=
  let digits := cs.takeWhile Char.isDigit
  if digits.isEmpty then none else some (digits, cs.dropWhile Char.isDigit)

/-- The digits before the point, of which the first one is zero only if it is the only one. -/
def whole? (cs : List Char) : Option (List Char × List Char) := do
  let (digits, rest) ← digits? cs
  if digits.head? = some '0' ∧ digits ≠ ['0'] then none else some (digits, rest)

def fraction? : List Char → Option (Option (List Char) × List Char)
  | '.' :: rest => (digits? rest).map fun d => (some d.1, d.2)
  | rest => some (none, rest)

def exponent? : List Char → Option (Option (Bool × List Char) × List Char)
  | [] => some (none, [])
  | c :: rest =>
    if c ≠ 'e' ∧ c ≠ 'E' then some (none, c :: rest)
    else
      match rest with
      | '+' :: rest => (digits? rest).map fun d => (some (false, d.1), d.2)
      | '-' :: rest => (digits? rest).map fun d => (some (true, d.1), d.2)
      | rest => (digits? rest).map fun d => (some (false, d.1), d.2)

def ofChars? (cs : List Char) : Option Numeral := do
  let (negative, rest) := match cs with
    | '-' :: rest => (true, rest)
    | cs => (false, cs)
  let (whole, rest) ← whole? rest
  let (fraction, rest) ← fraction? rest
  let (exponent, rest) ← exponent? rest
  if rest.isEmpty then some ⟨negative, whole, fraction, exponent⟩ else none

inductive Value where
  | integer (n : Int)
  | real (x : Double)
  | outOfRange
  deriving DecidableEq, Repr

def digitValue (c : Char) : Nat := c.toNat - 48

/-- Appends digits to a number as long as it stays below `2 ^ 64`, and returns those left over. -/
def absorb (n : Nat) : List Char → Nat × List Char
  | [] => (n, [])
  | c :: rest =>
    let next := n * 10 + digitValue c
    if next < UInt64.size then absorb next rest else (n, c :: rest)

def tenTo (n : Nat) : Magnitude := .ofNat (Nat.pow 10 n)

def topPower : Nat := 308

/-- The product of a number and a power of ten, in one multiplication or in one or two divisions. -/
def scaled (significand : Nat) (exponent : Int) : Magnitude :=
  let n := Magnitude.ofNat significand
  if significand = 0 then n
  else if topPower < exponent then .infinite
  else if 0 ≤ exponent then n.mul (tenTo exponent.toNat)
  else
    let places := (-exponent).toNat
    if places ≤ topPower then n.div (tenTo places)
    else if places ≤ 2 * topPower then (n.div (tenTo topPower)).div (tenTo (places - topPower))
    else .finite 0

/-- The exponent as written. Beyond 31 bits all are the same. -/
def writtenExponent (n : Numeral) : Int :=
  match n.exponent with
  | none => 0
  | some (negative, digits) =>
    let e := digits.foldl (fun acc c => min (acc * 10 + digitValue c) (Nat.pow 2 31)) 0
    if negative then -(e : Int) else e

/-- The value in double precision. Leading digits count as long as they fit into 64 bits; of the
others, those before the point count as zeros. -/
def real (n : Numeral) : Value :=
  let (significand, zeros) := absorb 0 n.whole
  let fraction := n.fraction.getD []
  let (significand, ignored) := absorb significand fraction
  let places := fraction.length - ignored.length
  let exponent := n.writtenExponent + (zeros.length : Int) - (places : Int)
  match Double.ofMagnitude? n.negative (scaled significand exponent) with
  | some x => .real x
  | none => .outOfRange

/-- The number itself if it is written as an integer and 64 bits hold it, with a sign if it is
negative. -/
def integer? (n : Numeral) : Option Int :=
  let (value, beyond) := absorb 0 n.whole
  if n.fraction.isSome ∨ n.exponent.isSome ∨ !beyond.isEmpty then none
  else if !n.negative then some value
  else if 0 < value ∧ value ≤ Nat.pow 2 63 then some (-(value : Int))
  else none

def value (n : Numeral) : Value :=
  match n.integer? with
  | some i => .integer i
  | none => n.real

/-- How many digits may stand before the point, and how many zeros after it. -/
def wholeLimit : Int := 16

def zerosLimit : Int := 5

/-- A number with a point, or with a power of ten where that would be too long. -/
def realText (x : Double) : String :=
  let sign := if x.negative then "-" else ""
  if x.units = 0 then sign ++ "0.0"
  else
    let d := x.shortest
    let digits := Nat.toDigits 10 d.digits
    let point := d.exponent + digits.length
    let zeros := fun (n : Int) => List.replicate n.toNat '0'
    let text : List Char :=
      if 0 ≤ d.exponent ∧ point ≤ wholeLimit then digits ++ zeros d.exponent ++ ['.', '0']
      else if 0 < point ∧ point ≤ wholeLimit then
        digits.take point.toNat ++ ['.'] ++ digits.drop point.toNat
      else if -zerosLimit < point ∧ point ≤ 0 then ['0', '.'] ++ zeros (-point) ++ digits
      else
        digits.take 1 ++ (if digits.length = 1 then [] else '.' :: digits.drop 1) ++ ['e']
          ++ (toString (point - 1)).toList
    sign ++ String.ofList text

end Numeral
end CertKeeper
