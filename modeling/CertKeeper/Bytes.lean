/-!
# Byte strings

Byte strings are lists, so that readers recurse on what remains. Text is carried as UTF-8, numbers
in big-endian order.
-/

namespace CertKeeper

abbrev Bytes := List UInt8

namespace Bytes

/-- The UTF-8 encoding of a text. -/
def ofString (s : String) : Bytes := s.toUTF8.data.toList

/-- The text that these bytes encode, if they are well-formed UTF-8. -/
def text? (b : Bytes) : Option String := String.fromUTF8? ⟨b.toArray⟩

/-- The value of the bytes read in base 256, most significant byte first. -/
def toNat (b : Bytes) : Nat := b.foldl (fun acc x => acc * 256 + x.toNat) 0

/-- The `width` low bytes of `n`, most significant byte first. -/
def ofNat : (width : Nat) → (n : Nat) → Bytes
  | 0, _ => []
  | w + 1, n => ofNat w (n / 256) ++ [UInt8.ofNat n]

def trimmed (b : Bytes) : Bytes := b.dropWhile (· == 0)

def splitAt? (n : Nat) (b : Bytes) : Option (Bytes × Bytes) :=
  if b.length < n then none else some (b.take n, b.drop n)

/-- Values of a field that count as present: the empty value stands for absence. -/
def nonEmpty? (b : Bytes) : Option Bytes := if b.isEmpty then none else some b

def hexDigit (n : Nat) : Char := (Nat.digitChar (n % 16))

def hexByte (x : UInt8) : List Char := [hexDigit (x.toNat / 16), hexDigit x.toNat]

def toHex (b : Bytes) : String := String.ofList (b.flatMap hexByte)

@[simp] theorem text?_ofString (s : String) : text? (ofString s) = some s := by
  simp [text?, ofString, String.fromUTF8?, s.isValidUTF8]
  rfl

theorem length_ofNat (w n : Nat) : (ofNat w n).length = w := by
  induction w generalizing n with
  | zero => rfl
  | succ w ih => simp [ofNat, ih]

end Bytes
end CertKeeper
