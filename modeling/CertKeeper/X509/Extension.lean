import CertKeeper.Asn1.BasicEncoding
import CertKeeper.X509.Name

/-!
# Certificate extensions

The extensions that are described: alternative names, basic constraints and key usage. An extension
whose content cannot be read stays in the certificate but is not described.
-/

namespace CertKeeper.X509

open Asn1

structure Extension where
  id : ObjectId
  critical : Bool
  value : Bytes
  deriving DecidableEq, Repr

namespace Extension

def readCritical (b : Bytes) : Bool × Bytes :=
  match Element.readTagged? Tag.boolean b with
  | some (⟨_, [x]⟩, rest) => (x ≠ 0, rest)
  | _ => (false, b)

def read? (b : Bytes) : Option (Extension × Bytes) := do
  let (content, rest) ← readSequence? b
  let (id, content) ← ObjectId.read? content
  let (critical, content) := readCritical content
  let (value, _) ← Element.readPrimitive? Tag.octetString content
  some (⟨id, critical, value.content⟩, rest)

def subjectAltName : ObjectId := ObjectId.ofArcs [2, 5, 29, 17]
def basicConstraints : ObjectId := ObjectId.ofArcs [2, 5, 29, 19]
def keyUsage : ObjectId := ObjectId.ofArcs [2, 5, 29, 15]

/-- The extension with an identifier, unless there are several. -/
def unique? (id : ObjectId) (extensions : List Extension) : Option Extension :=
  match extensions.filter (·.id = id) with
  | [e] => some e
  | _ => none

end Extension

inductive GeneralName where
  | other (id : ObjectId) (value : Bytes)
  | email (address : String)
  | dns (name : String)
  | directory (name : Name)
  | uri (uri : String)
  | ipAddress (address : Bytes)
  | registeredId (id : ObjectId)
  | x400Address (address : Element)
  | ediPartyName (name : Element)
  deriving DecidableEq, Repr

namespace GeneralName

def read? (b : Bytes) : Option (GeneralName × Bytes) := do
  let (e, rest) ← Element.read? b
  if e.header.tagClass ≠ TagClass.contextSpecific then none
  else
    let name ←
      match e.tag with
      | 0 => (ObjectId.read? e.content).map fun o => other o.1 o.2
      | 1 => e.content.text?.map email
      | 2 => e.content.text?.map dns
      | 3 => some (x400Address e)
      | 4 => do
        let (name, left) ← Name.read? e.content
        if left.isEmpty then some (directory name) else none
      | 5 => some (ediPartyName e)
      | 6 => e.content.text?.map uri
      | 7 => some (ipAddress e.content)
      | 8 => some (registeredId ⟨e.content⟩)
      | _ => none
    some (name, rest)

/-- All names of the extension, each of which has to be readable. -/
def readAll? (value : Bytes) : Option (List GeneralName) := do
  let (content, _) ← readSequence? value
  let (names, left) := readMany read? content
  if left.isEmpty then some names else none

end GeneralName

structure BasicConstraints where
  isCa : Bool
  pathLength : Option UInt32
  deriving DecidableEq, Repr

namespace BasicConstraints

inductive Item where
  | truth (value : Bool)
  | number (value : UInt32)

/-- The value of a string of bits whose first byte says how many of the last ones do not count. -/
def bitsValue : Bytes → Option Nat
  | [] => none
  | unused :: bits => some (Bytes.toNat bits / Nat.pow 2 unused.toNat)

namespace Item

/-- A number below `2 ^ 32`: an integer that is not negative, an enumerated value or bits. -/
def numberOf? (e : Element) : Option Nat :=
  if e.tag = Tag.integer then
    if 0x80 ≤ e.content.headD 0 then none else some e.content.toNat
  else if e.tag = Tag.enumerated then
    if e.header.constructed then none else some e.content.toNat
  else if e.tag = Tag.bitString then bitsValue e.content
  else none

def ofElement? (e : Element) : Option Item :=
  if e.header.tagClass ≠ TagClass.universal then none
  else if e.tag = Tag.boolean then
    match e.content with
    | [x] => some (truth (x ≠ 0))
    | _ => none
  else
    match numberOf? e with
    | some n => if n < UInt32.size then some (number (UInt32.ofNat n)) else none
    | none => none

def read? (b : Bytes) : Option (Item × Bytes) := do
  let (e, rest) ← Element.readBasic? b
  some (← ofElement? e, rest)

end Item

/-- None, one or both of a truth value and a number, in this order and with nothing after them. -/
def ofItems? : List Item → Option BasicConstraints
  | [] => some ⟨false, none⟩
  | [.truth isCa] => some ⟨isCa, none⟩
  | [.number n] => some ⟨false, some n⟩
  | [.truth isCa, .number n] => some ⟨isCa, some n⟩
  | _ => none

def read? (value : Bytes) : Option BasicConstraints := do
  let (e, _) ← Element.readTagged? Tag.sequence value
  let (items, left) := readMany Item.read? e.content
  if e.header.constructed ∧ left.isEmpty then ofItems? items else none

end BasicConstraints

namespace KeyUsage

def labels : List String :=
  ["Digital Signature", "Non Repudiation", "Key Encipherment", "Data Encipherment",
    "Key Agreement", "Certificate Sign", "CRL Sign", "Encipher Only", "Decipher Only"]

/-- Whether bit `i` is set, counted from the most significant bit of the first byte. -/
def hasBit (bits : Bytes) (i : Nat) : Bool := (bits.getD (i / 8) 0).toNat.testBit (7 - i % 8)

/-- The bits of a usage. Those that are declared unused, at most seven, are zero. -/
def bits? : Bytes → Option Bytes
  | [] => none
  | unused :: bits =>
    if unused ≤ 7 ∧ (bits.getLastD 0).toNat % Nat.pow 2 unused.toNat = 0 then some bits else none

def read? (value : Bytes) : Option (List String) := do
  let (e, _) ← Element.readPrimitive? Tag.bitString value
  let bits ← bits? e.content
  some ((labels.zipIdx.filter fun l => hasBit bits l.2).map (·.1))

end KeyUsage
end CertKeeper.X509
