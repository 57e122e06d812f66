import CertKeeper.Bytes

/-!
# ASN.1 elements

The elements of the distinguished encoding: an identifier, a length and content. Lengths are
definite but need not be in their shortest form. Readers return what follows the element.
-/

namespace CertKeeper.Asn1

/-- What an element is: the class and the number of its tag, and whether it holds elements. -/
structure Identifier where
  tagClass : Nat
  constructed : Bool
  tag : Nat
  deriving DecidableEq, Repr

/-- The identifier and the length of an element. -/
structure Header extends Identifier where
  length : Nat
  deriving DecidableEq, Repr

namespace Identifier

/-- The number of a tag above 30, in groups of seven bits. At most five bytes are read and the low
32 bits are kept. -/
def readLongTag? : (bytesLeft : Nat) → (acc : Nat) → Bytes → Option (Nat × Bytes)
  | 0, _, _ => none
  | _, _, [] => none
  | n + 1, acc, b :: rest =>
    let acc := (acc * 128 + b.toNat % 128) % UInt32.size
    if b < 0x80 then some (acc, rest) else readLongTag? n acc rest

def read? : Bytes → Option (Identifier × Bytes)
  | [] => none
  | b :: rest => do
    let low := b.toNat % 32
    let (tag, rest) ← if low = 31 then readLongTag? 5 0 rest else some (low, rest)
    some (⟨b.toNat / 64, b.toNat / 32 % 2 = 1, tag⟩, rest)

end Identifier

namespace Header

def readLength? : Bytes → Option (Nat × Bytes)
  | [] => none
  | b :: rest =>
    if b < 0x80 then some (b.toNat, rest)
    else if b = 0x80 ∨ b = 0xFF then none
    else do
      let (digits, rest) ← Bytes.splitAt? (b.toNat % 0x80) rest
      if digits.toNat < UInt64.size then some (digits.toNat, rest) else none

def read? (b : Bytes) : Option (Header × Bytes) := do
  let (id, rest) ← Identifier.read? b
  let (length, rest) ← readLength? rest
  some (⟨id, length⟩, rest)

end Header

structure Element where
  header : Header
  content : Bytes
  deriving DecidableEq, Repr

namespace Element

def tag (e : Element) : Nat := e.header.tag

def read? (b : Bytes) : Option (Element × Bytes) := do
  let (h, rest) ← Header.read? b
  let (content, rest) ← Bytes.splitAt? h.length rest
  some (⟨h, content⟩, rest)

def readTagged? (tag : Nat) (b : Bytes) : Option (Element × Bytes) := do
  let (e, rest) ← read? b
  if e.tag = tag then some (e, rest) else none

def readPrimitive? (tag : Nat) (b : Bytes) : Option (Element × Bytes) := do
  let (e, rest) ← readTagged? tag b
  if e.header.constructed then none else some (e, rest)

end Element

namespace TagClass

def universal : Nat := 0
def contextSpecific : Nat := 2

end TagClass

namespace Tag

def endOfContents : Nat := 0
def boolean : Nat := 1
def integer : Nat := 2
def bitString : Nat := 3
def octetString : Nat := 4
def objectId : Nat := 6
def objectDescriptor : Nat := 7
def enumerated : Nat := 10
def utf8String : Nat := 12
def sequence : Nat := 16
def set : Nat := 17
def numericString : Nat := 18
def printableString : Nat := 19
def t61String : Nat := 20
def videotexString : Nat := 21
def ia5String : Nat := 22
def utcTime : Nat := 23
def generalizedTime : Nat := 24
def graphicString : Nat := 25
def visibleString : Nat := 26
def generalString : Nat := 27
def bmpString : Nat := 30

end Tag

/-- Reads as many items as there are, and returns what follows the last one. -/
def readMany (item : Bytes → Option (α × Bytes)) (b : Bytes) : List α × Bytes :=
  match item b with
  | none => ([], b)
  | some (a, rest) =>
    if rest.length < b.length then
      let (others, rest) := readMany item rest
      (a :: others, rest)
    else ([], b)
termination_by b.length

def readSequence? (b : Bytes) : Option (Bytes × Bytes) :=
  (Element.readTagged? Tag.sequence b).map fun e => (e.1.content, e.2)

/-- A non-negative integer below `2 ^ 32` in its shortest form. -/
def readUInt32? (b : Bytes) : Option (UInt32 × Bytes) := do
  let (e, rest) ← Element.readPrimitive? Tag.integer b
  let n := e.content.toNat
  match e.content with
  | [] => none
  | [x] => if x < 0x80 then some (UInt32.ofNat n, rest) else none
  | x :: y :: _ =>
    if 0x80 ≤ x ∨ (x = 0 ∧ y < 0x80) ∨ UInt32.size ≤ n then none else some (UInt32.ofNat n, rest)

/-- The bytes of a string of bits whose unused bits are zero. -/
def bits? (content : Bytes) : Option Bytes :=
  match content with
  | [] => none
  | unused :: rest =>
    match rest.getLast? with
    | none => if unused = 0 then some [] else none
    | some last => if unused ≤ 8 ∧ last.toNat % Nat.pow 2 unused.toNat = 0 then some rest else none

def readBits? (b : Bytes) : Option (Bytes × Bytes) := do
  let (e, rest) ← Element.readPrimitive? Tag.bitString b
  let data ← bits? e.content
  some (data, rest)

end CertKeeper.Asn1
