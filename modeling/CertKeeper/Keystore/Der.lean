import CertKeeper.Bytes
import CertKeeper.Keystore.Error

/-!
# Framing of protected keys

A protected key is framed by elements of a tag, a length and content. Lengths below 128 are one
byte; others are a count of bytes and the length in that many.
-/

namespace CertKeeper.Keystore.Der

def lengthField (n : Nat) : Bytes :=
  if n < 0x80 then [UInt8.ofNat n]
  else
    let digits := (Bytes.ofNat 8 n).trimmed
    UInt8.ofNat (0x80 + digits.length) :: digits

def element (tag : UInt8) (content : Bytes) : Bytes :=
  tag :: (lengthField content.length ++ content)

/-- Reads a length field of up to four bytes after the first, in any form. -/
def readLength : Bytes → Except Error (Nat × Bytes)
  | [] => .error .truncated
  | first :: rest =>
    if first < 0x80 then .ok (first.toNat, rest)
    else
      let width := first.toNat % 0x80
      if width = 0 ∨ 4 < width ∨ rest.length < width then .error .malformedKey
      else .ok (Bytes.toNat (rest.take width), rest.drop width)

def read (input : Bytes) (tag : UInt8) : Except Error (Bytes × Bytes) :=
  match input with
  | [] => .error .truncated
  | actual :: rest =>
    if actual ≠ tag then .error .malformedKey
    else do
      let (n, rest) ← readLength rest
      if rest.length < n then .error .truncated
      else .ok (rest.take n, rest.drop n)

end CertKeeper.Keystore.Der
