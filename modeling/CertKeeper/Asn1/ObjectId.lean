import CertKeeper.Asn1.Element
import CertKeeper.Asn1.Registry

/-!
# Object identifiers

An object identifier is kept as it is encoded. Well-known ones have names; the others are shown as
their numbers with points between them.
-/

namespace CertKeeper.Asn1

structure ObjectId where
  content : Bytes
  deriving DecidableEq, Repr

namespace ObjectId

def read? (b : Bytes) : Option (ObjectId × Bytes) :=
  (Element.readPrimitive? Tag.objectId b).map fun e => (⟨e.1.content⟩, e.2)

/-- Numbers in groups of seven bits, of which the low 64 bits are kept. The last one may lack its
end. -/
def groups (acc : Nat) (started : Bool) : Bytes → List Nat
  | [] => if started then [acc] else []
  | b :: rest =>
    let n := (acc * 128 + b.toNat % 128) % UInt64.size
    if b < 0x80 then n :: groups 0 false rest else groups n true rest

/-- Whether a number that has its end is made of more groups than 64 bits hold, where `pending`
groups have been read of the first one. -/
def hasWideArc (pending : Nat) : Bytes → Bool
  | [] => false
  | b :: rest =>
    if b < 0x80 then 64 < (pending + 1) * 7 || hasWideArc 0 rest else hasWideArc (pending + 1) rest

/-- The numbers of an identifier. The first byte holds two, unless it is zero and alone. -/
def arcs (o : ObjectId) : List Nat :=
  match o.content with
  | [] => []
  | [b] => if b = 0 then [0] else [b.toNat / 40, b.toNat % 40]
  | b :: rest => [b.toNat / 40, b.toNat % 40] ++ groups 0 false rest

/-- The numbers with points between them, or the bytes if a number is too wide. -/
def dotted (o : ObjectId) : String :=
  if hasWideArc 0 (o.content.drop 1) then
    " ".intercalate (o.content.map fun b => String.ofList (Bytes.hexByte b))
  else ".".intercalate (o.arcs.map toString)

def encodeArc (n : Nat) : Bytes :=
  if n < 128 then [UInt8.ofNat n] else more (n / 128) ++ [UInt8.ofNat (n % 128)]
where
  more (n : Nat) : Bytes :=
    if n < 128 then [UInt8.ofNat (128 + n)] else more (n / 128) ++ [UInt8.ofNat (128 + n % 128)]

def ofArcs : List Nat → ObjectId
  | a :: b :: rest => ⟨UInt8.ofNat (a * 40 + b) :: rest.flatMap encodeArc⟩
  | _ => ⟨[]⟩

def abbreviations : List (List Nat × String) := [
  ([2, 5, 4, 3], "CN"),
  ([2, 5, 4, 6], "C"),
  ([2, 5, 4, 7], "L"),
  ([2, 5, 4, 8], "ST"),
  ([2, 5, 4, 10], "O"),
  ([2, 5, 4, 11], "OU"),
  ([0, 9, 2342, 19200300, 100, 1, 25], "DC"),
  ([1, 2, 840, 113549, 1, 9, 1], "Email")]

def lookup? (names : List (List Nat × String)) (o : ObjectId) : Option String :=
  (names.find? fun n => ofArcs n.1 = o).map (·.2)

def name? (o : ObjectId) : Option String := lookup? Registry.names o

def display (o : ObjectId) : String := o.name?.getD o.dotted

def literal (o : ObjectId) : String := "OID(" ++ o.dotted ++ ")"

def attributeType (o : ObjectId) : String :=
  ((lookup? abbreviations o).or o.name?).getD o.literal

end ObjectId
end CertKeeper.Asn1
