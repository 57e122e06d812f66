import CertKeeper.Asn1.ObjectId

/-!
# Distinguished names

A name is a sequence of sets of attributes. It is shown as the attributes of its sets, unless the
text of one of them cannot be read.
-/

namespace CertKeeper.X509

open Asn1

structure Attribute where
  type : ObjectId
  value : Element
  deriving DecidableEq, Repr

structure Name where
  sets : List (List Attribute)
  deriving DecidableEq, Repr

namespace Attribute

def read? (b : Bytes) : Option (Attribute × Bytes) := do
  let (content, rest) ← readSequence? b
  let (type, content) ← ObjectId.read? content
  let (value, _) ← Element.read? content
  some (⟨type, value⟩, rest)

/-- The tags of texts that are read as UTF-8. -/
def textTags : List Nat :=
  [Tag.numericString, Tag.visibleString, Tag.printableString, Tag.generalString,
    Tag.objectDescriptor, Tag.graphicString, Tag.t61String, Tag.videotexString, Tag.utf8String,
    Tag.ia5String]

def utf16? : Bytes → Option (List Char)
  | [] => some []
  | [_] => none
  | a :: b :: rest =>
    let u := a.toNat * 256 + b.toNat
    if u < 0xD800 ∨ 0xE000 ≤ u then (utf16? rest).map (Char.ofNat u :: ·)
    else if 0xDC00 ≤ u then none
    else
      match rest with
      | c :: d :: rest =>
        let v := c.toNat * 256 + d.toNat
        if 0xDC00 ≤ v ∧ v < 0xE000 then
          (utf16? rest).map (Char.ofNat (0x10000 + (u - 0xD800) * 0x400 + (v - 0xDC00)) :: ·)
        else none
      | _ => none

def upperHex (b : Bytes) : String := String.ofList ((b.flatMap Bytes.hexByte).map Char.toUpper)

/-- The value as text: what it says if it is text, its bytes otherwise. -/
def text? (a : Attribute) : Option String :=
  if textTags.contains a.value.tag then a.value.content.text?
  else if a.value.tag = Tag.bmpString then (utf16? a.value.content).map String.ofList
  else some (upperHex a.value.content)

def display? (a : Attribute) : Option String :=
  a.text?.map fun v => a.type.attributeType ++ "=" ++ v

end Attribute

namespace Name

/-- A set holds at least one attribute; what cannot be read ends it. -/
def readSet? (b : Bytes) : Option (List Attribute × Bytes) := do
  let (e, rest) ← Element.readTagged? Tag.set b
  match (readMany Attribute.read? e.content).1 with
  | [] => none
  | attributes => some (attributes, rest)

/-- What cannot be read ends the name. -/
def read? (b : Bytes) : Option (Name × Bytes) := do
  let (content, rest) ← readSequence? b
  some (⟨(readMany readSet? content).1⟩, rest)

def display? (n : Name) : Option String := do
  let sets ← n.sets.mapM fun s => (s.mapM Attribute.display?).map (" + ".intercalate ·)
  some (", ".intercalate sets)

def display (n : Name) : String := n.display?.getD "<X509Error: Invalid X.509 name>"

end Name
end CertKeeper.X509
