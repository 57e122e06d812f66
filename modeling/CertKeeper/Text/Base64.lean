import CertKeeper.Bytes

/-!
# Base64

The standard alphabet with padding. Reading is strict: every quantum is complete and the bits that
padding leaves over are zero, so a byte string has one written form. `decodePieces?` also reads
several padded texts written one after the other.
-/

namespace CertKeeper.Text.Base64

def digit (n : Nat) : Char :=
  if n < 26 then Char.ofNat (65 + n)
  else if n < 52 then Char.ofNat (71 + n)
  else if n < 62 then Char.ofNat (n - 4)
  else if n = 62 then '+' else '/'

def value? (c : UInt8) : Option Nat :=
  if 65 ≤ c ∧ c ≤ 90 then some (c.toNat - 65)
  else if 97 ≤ c ∧ c ≤ 122 then some (c.toNat - 71)
  else if 48 ≤ c ∧ c ≤ 57 then some (c.toNat + 4)
  else if c = 43 then some 62
  else if c = 47 then some 63
  else none

def encodeChars : Bytes → List Char
  | [] => []
  | [a] => [digit (a.toNat / 4), digit (a.toNat % 4 * 16), '=', '=']
  | [a, b] =>
    [digit (a.toNat / 4), digit (a.toNat % 4 * 16 + b.toNat / 16), digit (b.toNat % 16 * 4), '=']
  | a :: b :: c :: rest =>
    digit (a.toNat / 4) :: digit (a.toNat % 4 * 16 + b.toNat / 16)
      :: digit (b.toNat % 16 * 4 + c.toNat / 64) :: digit (c.toNat % 64) :: encodeChars rest

def encode (b : Bytes) : String := String.ofList (encodeChars b)

/-- The bytes of one quantum of four characters. Padding stands at its end and leaves zero bits. -/
def quantum? (a b c d : UInt8) : Option Bytes := do
  let x ← value? a
  let y ← value? b
  let first := UInt8.ofNat (x * 4 + y / 16)
  if c = 61 then
    if d = 61 ∧ y % 16 = 0 then some [first] else none
  else
    let z ← value? c
    let second := UInt8.ofNat (y % 16 * 16 + z / 4)
    if d = 61 then
      if z % 4 = 0 then some [first, second] else none
    else
      let w ← value? d
      some [first, second, UInt8.ofNat (z % 4 * 64 + w)]

/-- Reads padded texts written one after the other. -/
def decodePieces? : Bytes → Option Bytes
  | [] => some []
  | a :: b :: c :: d :: rest => do
    let q ← quantum? a b c d
    let r ← decodePieces? rest
    some (q ++ r)
  | _ => none

/-- Reads one padded text: nothing follows a padded quantum. -/
def decode? : Bytes → Option Bytes
  | [] => some []
  | a :: b :: c :: d :: rest => do
    let q ← quantum? a b c d
    if q.length < 3 ∧ !rest.isEmpty then none
    else
      let r ← decode? rest
      some (q ++ r)
  | _ => none

def ofText? (s : String) : Option Bytes := decode? (Bytes.ofString s)

end CertKeeper.Text.Base64
