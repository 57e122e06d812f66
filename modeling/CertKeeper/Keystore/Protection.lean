import CertKeeper.Digest.Sha1
import CertKeeper.Keystore.Der

/-!
# Protected private keys

A private key is kept under a keystream of digests that starts from a salt, beside the salt and a
digest by which a wrong password is noticed.
-/

namespace CertKeeper.Keystore

/-- The random bytes from which the keystream of one key starts. -/
structure Salt where
  bytes : Bytes
  length_eq : bytes.length = Digest.Sha1.size

/-- A password as it enters digests: its UTF-16 units, most significant byte first. -/
def passwordBytes (password : String) : Bytes :=
  password.toList.flatMap fun c =>
    let n := c.toNat
    if n < 0x10000 then Bytes.ofNat 2 n
    else
      let m := n - 0x10000
      Bytes.ofNat 2 (0xD800 + m / 0x400) ++ Bytes.ofNat 2 (0xDC00 + m % 0x400)

namespace Protection

/-- The object identifier 1.3.6.1.4.1.42.2.17.1.1. -/
def algorithm : Bytes := [0x2b, 0x06, 0x01, 0x04, 0x01, 0x2a, 0x02, 0x11, 0x01, 0x01]

def tagSequence : UInt8 := 0x30
def tagObjectId : UInt8 := 0x06
def tagNull : UInt8 := 0x05
def tagOctets : UInt8 := 0x04

/-- The next `n` digests of the keystream after `last`. -/
def digests (password : Bytes) : Nat → Bytes → Bytes
  | 0, _ => []
  | n + 1, last =>
    let next := Digest.Sha1.digest (password ++ last)
    next ++ digests password n next

def keystream (password salt : Bytes) (n : Nat) : Bytes :=
  (digests password ((n + 19) / 20) salt).take n

def xor (a b : Bytes) : Bytes := List.zipWith (· ^^^ ·) a b

def check (password key : Bytes) : Bytes := Digest.Sha1.digest (password ++ key)

/-- The salt, the key under the keystream and the check digest. -/
def conceal (key password : Bytes) (salt : Salt) : Bytes :=
  salt.bytes ++ xor key (keystream password salt.bytes key.length) ++ check password key

def protect (key password : Bytes) (salt : Salt) : Bytes :=
  let identifier := Der.element tagObjectId algorithm ++ [tagNull, 0x00]
  Der.element tagSequence
    (Der.element tagSequence identifier ++ Der.element tagOctets (conceal key password salt))

/-- Opens what `conceal` has closed, unless the password or the bytes are not the right ones. -/
def reveal (sealed password : Bytes) : Except Error Bytes :=
  if sealed.length < 40 then .error .truncated
  else
    let salt := sealed.take 20
    let rest := sealed.drop 20
    let hidden := rest.take (rest.length - 20)
    let key := xor hidden (keystream password salt hidden.length)
    if check password key = rest.drop (rest.length - 20) then .ok key else .error .wrongPassword

def recover (protectedKey password : Bytes) : Except Error Bytes := do
  let (info, _) ← Der.read protectedKey tagSequence
  let (identifier, rest) ← Der.read info tagSequence
  let (oid, _) ← Der.read identifier tagObjectId
  if oid ≠ algorithm then .error .unsupportedProtection
  else
    let (sealed, _) ← Der.read rest tagOctets
    reveal sealed password

end Protection
end CertKeeper.Keystore
