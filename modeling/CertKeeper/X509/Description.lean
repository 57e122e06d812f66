import CertKeeper.Panic
import CertKeeper.Text.Quoted
import CertKeeper.X509.Certificate

/-!
# Descriptions of certificates

The text that shows a certificate to people. The version of a certificate is one more than the
number in its version field, in arithmetic of 32 bits.
-/

namespace CertKeeper.X509

/-- The indices of the longest run of zeros, the first of those of one length. -/
def longestZeroRun (groups : List Nat) : Nat × Nat :=
  let runs := (List.range groups.length).map fun i =>
    (i, ((groups.drop i).takeWhile (· = 0)).length)
  runs.foldl (fun best run => if best.2 < run.2 then run else best) (0, 0)

def hexGroups (groups : List Nat) : String :=
  ":".intercalate (groups.map fun g => String.ofList (Nat.toDigits 16 g))

def ipv4Text (b : Bytes) : String := ".".intercalate (b.map fun x => toString x.toNat)

def addressGroups : Bytes → List Nat
  | a :: b :: rest => (a.toNat * 256 + b.toNat) :: addressGroups rest
  | _ => []

/-- An address of sixteen bytes: its longest run of two or more zero groups is left out, and a
mapped address ends like one of four bytes. -/
def ipv6Text (b : Bytes) : String :=
  if b.take 12 = [0, 0, 0, 0, 0, 0, 0, 0, 0, 0, 0xFF, 0xFF] then "::ffff:" ++ ipv4Text (b.drop 12)
  else
    let groups := addressGroups b
    let (start, length) := longestZeroRun groups
    if length < 2 then hexGroups groups
    else hexGroups (groups.take start) ++ "::" ++ hexGroups (groups.drop (start + length))

def elementLiteral (e : Asn1.Element) : String :=
  let identifier := e.header.tagClass * 64 + (if e.header.constructed then 32 else 0) + e.tag
  "Any \x7b header: Header \x7b class: ContextSpecific, constructed: "
    ++ toString e.header.constructed ++ ", tag: Tag(" ++ toString e.tag
    ++ "), length: Definite(" ++ toString e.header.length
    ++ "), raw_tag: Some([" ++ toString identifier ++ "]) \x7d, data: ["
    ++ ", ".intercalate (e.content.map fun x => toString x.toNat) ++ "] \x7d"

namespace GeneralName

def display : GeneralName → String
  | dns name => "DNS:" ++ name
  | email address => "email:" ++ address
  | uri u => "URI:" ++ u
  | ipAddress b =>
    if b.length = 4 then "IP Address:" ++ ipv4Text b
    else if b.length = 16 then "IP Address:" ++ ipv6Text b
    else "IP Address:<invalid>"
  | directory name => "DirName:" ++ name.display
  | registeredId id => "othername:RegisteredID(" ++ id.literal ++ ")"
  | x400Address e => "othername:X400Address(" ++ elementLiteral e ++ ")"
  | ediPartyName e => "othername:EDIPartyName(" ++ elementLiteral e ++ ")"
  | other id value =>
    "othername:OtherName(" ++ id.literal ++ ", ["
      ++ ", ".intercalate (value.map fun x => toString x.toNat) ++ "])"

end GeneralName

namespace Certificate

def serialText (b : Bytes) : String :=
  ":".intercalate (b.map fun x => String.ofList (Bytes.hexByte x))

def versionText (field : UInt32) : Except Panic String := do
  let version ← checkedAdd field 1
  .ok (toString version.toNat ++ " (0x" ++ String.ofList (Nat.toDigits 16 field.toNat) ++ ")")

def criticalText (critical : Bool) : String := if critical then " critical" else ""

def extensionLines (title : String) (critical : Bool) (text : String) : List String :=
  ["            X509v3 " ++ title ++ ":" ++ criticalText critical, "                " ++ text]

def altNameLines (c : Certificate) : List String :=
  match Extension.unique? Extension.subjectAltName c.extensions with
  | none => []
  | some e =>
    match GeneralName.readAll? e.value with
    | none => []
    | some names =>
      extensionLines "Subject Alternative Name" e.critical
        (", ".intercalate (names.map GeneralName.display))

def constraintText (b : BasicConstraints) : String :=
  let ca := if b.isCa then "CA:TRUE" else "CA:FALSE"
  match b.pathLength with
  | some n => ca ++ ", pathlen:" ++ toString n.toNat
  | none => ca

def constraintLines (c : Certificate) : List String :=
  match Extension.unique? Extension.basicConstraints c.extensions with
  | none => []
  | some e =>
    match BasicConstraints.read? e.value with
    | none => []
    | some b => extensionLines "Basic Constraints" e.critical (constraintText b)

def usageLines (c : Certificate) : List String :=
  match Extension.unique? Extension.keyUsage c.extensions with
  | none => []
  | some e =>
    match KeyUsage.read? e.value with
    | none => []
    | some labels => extensionLines "Key Usage" e.critical (", ".intercalate labels)

def extensionSection (c : Certificate) : List String :=
  match c.altNameLines ++ c.constraintLines ++ c.usageLines with
  | [] => []
  | lines => "        X509v3 extensions:" :: lines

def lines (c : Certificate) (version : String) : List String :=
  ["Certificate:",
    "    Data:",
    "        Version: " ++ version,
    "        Serial Number: " ++ serialText c.serial,
    "        Signature Algorithm: " ++ c.signatureAlgorithm.display,
    "        Issuer: " ++ c.issuer.display,
    "        Validity",
    "            Not Before: " ++ CertKeeper.Time.render c.notBefore,
    "            Not After : " ++ CertKeeper.Time.render c.notAfter,
    "        Subject: " ++ c.subject.display,
    "        Subject Public Key Info:",
    "            Public Key Algorithm: " ++ c.keyAlgorithm.display]
  ++ c.extensionSection ++ [""]

def describe (c : Certificate) : Except Panic String := do
  let version ← versionText c.version
  .ok (String.join ((c.lines version).map (· ++ "\n")))

end Certificate
end CertKeeper.X509
