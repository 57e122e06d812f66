import CertKeeper.Keystore.Codec
import CertKeeper.Pem

/-!
# Keystores made from PEM bundles
-/

namespace CertKeeper.KeyStore

open Keystore

def occursIn (needle : List Char) : List Char → Bool
  | [] => needle.isEmpty
  | c :: rest => needle.isPrefixOf (c :: rest) || occursIn needle rest

def isKeyLabel (label : String) : Bool := occursIn "PRIVATE KEY".toList label.toList

/-- One private key under `alias`: the first block of `key`, with all blocks of `certificates`. -/
def ofKeyPair (certificates key : Bytes) (created : Int64) : Except Error KeyStore :=
  match Pem.blocks key with
  | [] => .error (.missingPem "private key")
  | block :: _ =>
    if !isKeyLabel block.label then .error (.notAPrivateKey block.label)
    else
      match (Pem.blocks certificates).map (·.contents) with
      | [] => .error (.missingPem "certificate")
      | chain => .ok (empty.insert "alias" created (.privateKey block.contents chain))

/-- The certificate `i` of a bundle has the alias `alias` followed by `i`. -/
def certificateAlias (i : Nat) : String := "alias" ++ toString i

def ofBundle (bundle : Bytes) (created : Int64) : KeyStore :=
  (Pem.blocks bundle).zipIdx.foldl
    (fun ks b => ks.insert (certificateAlias b.2) created (.trustedCertificate b.1.contents)) empty

end CertKeeper.KeyStore
