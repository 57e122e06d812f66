import CertKeeper.Json
import CertKeeper.Keystore.Error

/-!
# Keystores

A keystore holds private keys with their certificate chains, and trusted certificates, each under an
alias and with the time at which it was put in.
-/

namespace CertKeeper

namespace Keystore

inductive Entry where
  /-- A private key and the certificates that vouch for it. -/
  | privateKey (key : Bytes) (chain : List Bytes)
  | trustedCertificate (certificate : Bytes)
  deriving DecidableEq, Repr

/-- An entry and the milliseconds since 1970 at which it was made. -/
structure StoredEntry where
  created : Int64
  entry : Entry
  deriving DecidableEq, Repr

end Keystore

structure KeyStore where
  entries : Dict Keystore.StoredEntry

namespace KeyStore

open Keystore

def empty : KeyStore := ⟨∅⟩

/-- Puts an entry under an alias, in the place of the one that was there. -/
def insert (ks : KeyStore) (name : String) (created : Int64) (entry : Entry) : KeyStore :=
  ⟨ks.entries.insert name ⟨created, entry⟩⟩

def get? (ks : KeyStore) (name : String) : Option Entry := ks.entries[name]?.map (·.entry)

def size (ks : KeyStore) : Nat := ks.entries.size

def aliases (ks : KeyStore) : List String := ks.entries.keys

def contents (ks : KeyStore) : List (String × Entry) :=
  ks.entries.toList.map fun e => (e.1, e.2.entry)

/-- Whether two keystores hold the same entries under the same aliases, at whatever times they were
made. -/
def sameContent (a b : KeyStore) : Bool := a.contents == b.contents

end KeyStore
end CertKeeper
