import CertKeeper.Keystore.Codec

/-!
# What salts do not change

Two encodings of one keystore differ in the salts of its keys and in what depends on them. The other
parts can be compared byte by byte.
-/

namespace CertKeeper.Keystore

/-- The bytes of an encoding that do not depend on salts. -/
inductive Settled where
  /-- There is no private key, so that all bytes are settled. -/
  | all (bytes : Bytes)
  /-- There is one entry, a private key: the bytes before its salt and those between it and the
  digest. -/
  | aroundKey (before after : Bytes)
  /-- Creation times are not known, or several entries hold keys. -/
  | none
  deriving DecidableEq, Repr

structure Stable where
  length : Nat
  entries : List (String × Entry)
  settled : Settled
  deriving DecidableEq, Repr

namespace Stable

def isPrivateKey : Entry → Bool
  | .privateKey .. => true
  | .trustedCertificate _ => false

/-- The offset of the length of the protected key of the first entry. -/
def keyOffset (name : String) : Nat := 12 + 4 + 2 + (Bytes.ofString name).length + 8

/-- The bytes around the protected key of the only entry. -/
def aroundKey (data : Bytes) (name : String) (key : Bytes) : Settled :=
  let start := keyOffset name
  let n := Bytes.toNat ((data.drop start).take 4)
  let sealedLength := 2 * Digest.Sha1.size + key.length
  let tail := data.drop (start + 4 + n)
  .aroundKey (data.take (start + 4 + (n - sealedLength)))
    (tail.take (tail.length - Digest.Sha1.size))

def settledOf (data : Bytes) (entries : List (String × Entry)) : Settled :=
  match entries with
  | [(name, .privateKey key _)] => aroundKey data name key
  | _ => if entries.any fun e => isPrivateKey e.2 then .none else .all data

/-- The stable part of an encoding, if it can be decoded. Unless its creation times are known, it is
no more than the entries. -/
def ofEncoded? (data : Bytes) (password : String) (timesKnown : Bool) : Option Stable :=
  match KeyStore.decode data password with
  | .ok ks =>
    some ⟨data.length, ks.contents, if timesKnown then settledOf data ks.contents else .none⟩
  | .error _ => Option.none

def entryJson : Entry → Json
  | .privateKey key chain =>
    .object [("chain", .array (chain.map Json.ofBytes)), ("key", Json.ofBytes key)]
  | .trustedCertificate c => .object [("cert", Json.ofBytes c)]

def entriesJson (entries : List (String × Entry)) : Json :=
  .object (entries.map fun e => (e.1, entryJson e.2))

def toJson (s : Stable) : Json :=
  let settled : Json.Fields :=
    match s.settled with
    | .all bytes => [("b64", Json.ofBytes bytes)]
    | .aroundKey before after =>
      [("after_key", Json.ofBytes after), ("before_key", .string before.toHex)]
    | .none => []
  Json.sorted (settled ++ [("entries", entriesJson s.entries), ("length", Json.ofNat s.length)])

def reportJson (data : Bytes) (password : String) (timesKnown : Bool) : Json :=
  match ofEncoded? data password timesKnown with
  | some s => s.toJson
  | Option.none => Json.ofBytes data

end Stable
end CertKeeper.Keystore
