import CertKeeper.Keystore.Basic
import CertKeeper.Keystore.Protection

/-!
# The encoded form of keystores

An encoded keystore is a header, its entries in the order of their aliases, and a digest of the
password and all of it. Each private key takes a salt of its own, numbered by the place of its entry.
-/

namespace CertKeeper

namespace Keystore

def magic : Nat := 0xFEEDFEED
def version : Nat := 2
def privateKeyTag : Nat := 1
def trustedCertificateTag : Nat := 2
def certificateType : String := "X.509"

/-- What the password is mixed with in the digest of a store. -/
def whitener : Bytes := Bytes.ofString "Mighty Aphrodite"

def storeDigest (password body : Bytes) : Bytes := Digest.Sha1.digest (password ++ whitener ++ body)

namespace Encoding

def u32 (n : Nat) : Bytes := Bytes.ofNat 4 n

def count (n : Nat) (field : String) : Except Error Bytes :=
  if n < UInt32.size then .ok (u32 n) else .error (.fieldTooLarge field)

def text (s : String) : Except Error Bytes :=
  let b := Bytes.ofString s
  if b.length < UInt16.size then .ok (Bytes.ofNat 2 b.length ++ b) else .error (.fieldTooLarge s)

def field (b : Bytes) : Except Error Bytes := do
  let n ← count b.length "byte field"
  .ok (n ++ b)

def certificate (c : Bytes) : Except Error Bytes := do
  let kind ← text certificateType
  let body ← field c
  .ok (kind ++ body)

def certificates : List Bytes → Except Error Bytes
  | [] => .ok []
  | c :: rest => do
    let first ← certificate c
    let others ← certificates rest
    .ok (first ++ others)

def entry (password : Bytes) (salt : Salt) (name : String) (e : StoredEntry) :
    Except Error Bytes := do
  let encodedName ← text name
  let created := Bytes.ofNat 8 e.created.toUInt64.toNat
  match e.entry with
  | .privateKey key chain =>
    let key ← field (Protection.protect key password salt)
    let n ← count chain.length "chain length"
    let chain ← certificates chain
    .ok (u32 privateKeyTag ++ encodedName ++ created ++ key ++ n ++ chain)
  | .trustedCertificate c =>
    let body ← certificate c
    .ok (u32 trustedCertificateTag ++ encodedName ++ created ++ body)

/-- The entries from number `i` on. -/
def entries (password : Bytes) (salts : Nat → Salt) :
    Nat → List (String × StoredEntry) → Except Error Bytes
  | _, [] => .ok []
  | i, (name, e) :: rest => do
    let first ← entry password (salts i) name e
    let others ← entries password salts (i + 1) rest
    .ok (first ++ others)

end Encoding

namespace Decoding

def take (n : Nat) (b : Bytes) : Except Error (Bytes × Bytes) :=
  if b.length < n then .error .truncated else .ok (b.take n, b.drop n)

def number (width : Nat) (b : Bytes) : Except Error (Nat × Bytes) := do
  let (x, rest) ← take width b
  .ok (x.toNat, rest)

def text (b : Bytes) : Except Error (String × Bytes) := do
  let (n, rest) ← number 2 b
  let (x, rest) ← take n rest
  match x.text? with
  | some s => .ok (s, rest)
  | none => .error .invalidString

def field (b : Bytes) : Except Error (Bytes × Bytes) := do
  let (n, rest) ← number 4 b
  take n rest

def certificate (b : Bytes) : Except Error (Bytes × Bytes) := do
  let (_, rest) ← text b
  field rest

def certificates : Nat → Bytes → Except Error (List Bytes × Bytes)
  | 0, b => .ok ([], b)
  | n + 1, b => do
    let (first, rest) ← certificate b
    let (others, rest) ← certificates n rest
    .ok (first :: others, rest)

/-- The part of an entry that depends on its tag. -/
def body (password : Bytes) (tag : Nat) (b : Bytes) : Except Error (Entry × Bytes) :=
  if tag = privateKeyTag then do
    let (hidden, rest) ← field b
    let key ← Protection.recover hidden password
    let (n, rest) ← number 4 rest
    let (chain, rest) ← certificates n rest
    .ok (.privateKey key chain, rest)
  else if tag = trustedCertificateTag then do
    let (c, rest) ← certificate b
    .ok (.trustedCertificate c, rest)
  else .error (.unknownTag tag)

def entry (password : Bytes) (b : Bytes) : Except Error ((String × StoredEntry) × Bytes) := do
  let (tag, rest) ← number 4 b
  let (name, rest) ← text rest
  let (created, rest) ← number 8 rest
  let (e, rest) ← body password tag rest
  .ok ((name, ⟨(UInt64.ofNat created).toInt64, e⟩), rest)

def entries (password : Bytes) : Nat → Bytes → Except Error (List (String × StoredEntry) × Bytes)
  | 0, b => .ok ([], b)
  | n + 1, b => do
    let (first, rest) ← entry password b
    let (others, rest) ← entries password n rest
    .ok (first :: others, rest)

/-- The entries after a header, and what is left unread. -/
def header (password : Bytes) (b : Bytes) :
    Except Error (List (String × StoredEntry) × Bytes) := do
  let (found, rest) ← number 4 b
  if found ≠ magic then .error (.badMagic found)
  else
    let (found, rest) ← number 4 rest
    if found ≠ version then .error (.unsupportedVersion found)
    else
      let (n, rest) ← number 4 rest
      entries password n rest

end Decoding

end Keystore

namespace KeyStore

open Keystore

def encodeBody (ks : KeyStore) (password : Bytes) (salts : Nat → Salt) : Except Error Bytes := do
  let n ← Encoding.count ks.size "entry count"
  let entries ← Encoding.entries password salts 0 ks.entries.toList
  .ok (Encoding.u32 magic ++ Encoding.u32 version ++ n ++ entries)

def encode (ks : KeyStore) (password : String) (salts : Nat → Salt) : Except Error Bytes := do
  let password := passwordBytes password
  let body ← ks.encodeBody password salts
  .ok (body ++ storeDigest password body)

/-- Of two entries with one alias the later one counts. Bytes between the last entry and the digest
are passed over. -/
def decode (data : Bytes) (password : String) : Except Error KeyStore :=
  let password := passwordBytes password
  if data.length < Digest.Sha1.size then .error .truncated
  else
    let body := data.take (data.length - Digest.Sha1.size)
    if storeDigest password body ≠ data.drop (data.length - Digest.Sha1.size) then
      .error .integrityCheckFailed
    else do
      let (entries, _) ← Decoding.header password body
      .ok ⟨entries.foldl (fun d e => d.insert e.1 e.2) ∅⟩

/-- Whether two encoded keystores hold the same entries. What cannot be decoded is equivalent to
nothing. -/
def equivalent (a b : Bytes) (password : String) : Bool :=
  match decode a password, decode b password with
  | .ok a, .ok b => a.sameContent b
  | _, _ => false

end KeyStore
end CertKeeper
