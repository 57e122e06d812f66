import CertKeeper.Text.Quoted

/-!
# What can go wrong with a keystore
-/

namespace CertKeeper.Keystore

/-- Why a keystore could not be read or written. -/
inductive Error where
  | truncated
  | badMagic (found : Nat)
  | unsupportedVersion (found : Nat)
  | unknownTag (found : Nat)
  | integrityCheckFailed
  | unsupportedProtection
  | wrongPassword
  | malformedKey
  | fieldTooLarge (field : String)
  | invalidString
  | missingPem (what : String)
  | notAPrivateKey (label : String)
  deriving DecidableEq, Repr

namespace Error

def kind : Error → String
  | truncated => "Truncated"
  | badMagic _ => "BadMagic"
  | unsupportedVersion _ => "UnsupportedVersion"
  | unknownTag _ => "UnknownTag"
  | integrityCheckFailed => "IntegrityCheckFailed"
  | unsupportedProtection | wrongPassword | malformedKey => "KeyRecovery"
  | fieldTooLarge _ => "FieldTooLarge"
  | invalidString => "InvalidString"
  | missingPem _ => "MissingPem"
  | notAPrivateKey _ => "NotAPrivateKey"

/-- At least eight hexadecimal digits after `0x`. -/
def hex32 (n : Nat) : String :=
  let digits := Nat.toDigits 16 n
  String.ofList (['0', 'x'] ++ List.replicate (8 - digits.length) '0' ++ digits)

def message : Error → String
  | truncated => "keystore data is truncated"
  | badMagic found => "invalid keystore magic " ++ hex32 found
  | unsupportedVersion found => "unsupported keystore version " ++ toString found
  | unknownTag found => "unknown keystore entry tag " ++ toString found
  | integrityCheckFailed => "keystore integrity check failed"
  | unsupportedProtection => "cannot recover private key: unsupported key protection algorithm"
  | wrongPassword => "cannot recover private key: wrong password or corrupt key"
  | malformedKey => "cannot recover private key: malformed key encoding"
  | fieldTooLarge field => "value too large for keystore field: " ++ field
  | invalidString => "keystore string is not valid UTF-8"
  | missingPem what => "no PEM block found in " ++ what
  | notAPrivateKey label => "PEM block " ++ Text.Quoted.quote label ++ " is not a private key"

end Error
end CertKeeper.Keystore
