import CertKeeper.Asn1.BasicEncoding
import CertKeeper.X509.Extension
import CertKeeper.X509.Time

/-!
# Certificates

A certificate is read from its distinguished encoding. What stands after it, and after the signature
inside it, is ignored.
-/

namespace CertKeeper.X509

open Asn1

structure Certificate where
  /-- The number in the version field, one less than the version. -/
  version : UInt32
  /-- The bytes of the serial number as encoded. -/
  serial : Bytes
  issuer : Name
  notBefore : Int
  notAfter : Int
  subject : Name
  keyAlgorithm : ObjectId
  extensions : List Extension
  signatureAlgorithm : ObjectId
  deriving DecidableEq, Repr

namespace Certificate

/-- The version field, which may be left out. What follows the number in it is ignored. -/
def readVersion? (b : Bytes) : Option (UInt32 × Bytes) :=
  if b.isEmpty then some (0, b)
  else do
    let (e, rest) ← Element.read? b
    if e.tag ≠ 0 then some (0, b)
    else if e.header.tagClass ≠ TagClass.contextSpecific then none
    else
      let (version, _) ← readUInt32? e.content
      some (version, rest)

/-- The identifier of an algorithm. Its parameters, if there are any, are an element. -/
def readAlgorithm? (b : Bytes) : Option (ObjectId × Bytes) := do
  let (content, rest) ← readSequence? b
  let (id, parameters) ← ObjectId.read? content
  if parameters.isEmpty ∨ (Element.read? parameters).isSome then some (id, rest) else none

def readValidity? (b : Bytes) : Option ((Int × Int) × Bytes) := do
  let (content, rest) ← readSequence? b
  let (notBefore, content) ← Time.read? content
  let (notAfter, _) ← Time.read? content
  some ((notBefore, notAfter), rest)

def readPublicKey? (b : Bytes) : Option (ObjectId × Bytes) := do
  let (content, rest) ← readSequence? b
  let (id, content) ← readAlgorithm? content
  let _ ← readBits? content
  some (id, rest)

def skipUniqueId? (tag : Nat) (b : Bytes) : Option Bytes :=
  match Header.read? b with
  | none => some b
  | some (h, content) =>
    if h.tag ≠ tag then some b
    else if h.tagClass ≠ TagClass.contextSpecific ∨ h.length = 0 then none
    else (Bytes.splitAt? h.length content).map (·.2)

/-- The extensions fill what is left after their header. -/
def readExtensions? (b : Bytes) : Option (List Extension) :=
  if b.isEmpty then some []
  else do
    let (h, rest) ← Header.read? b
    if h.tag ≠ 3 then none
    else
      let (content, left) ← readSequence? rest
      let (extensions, unread) := readMany Extension.read? content
      if left.isEmpty ∧ unread.isEmpty then some extensions else none

def read? (der : Bytes) : Option Certificate := do
  let (content, _) ← readSequence? der
  let (body, content) ← readSequence? content
  let (version, body) ← readVersion? body
  let (serial, body) ← Element.readBasicTagged? Tag.integer body
  let (_, body) ← readAlgorithm? body
  let (issuer, body) ← Name.read? body
  let ((notBefore, notAfter), body) ← readValidity? body
  let (subject, body) ← Name.read? body
  let (keyAlgorithm, body) ← readPublicKey? body
  let body ← skipUniqueId? 1 body
  let body ← skipUniqueId? 2 body
  let extensions ← readExtensions? body
  let (signatureAlgorithm, content) ← readAlgorithm? content
  let _ ← readBits? content
  some {
    version, serial := serial.content, issuer, notBefore, notAfter, subject, keyAlgorithm,
    extensions, signatureAlgorithm }

end Certificate
end CertKeeper.X509
