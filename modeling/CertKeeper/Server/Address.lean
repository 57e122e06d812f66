/-!
# Addresses to listen on

An address is a host, a colon and a port.
-/

namespace CertKeeper.Server

inductive AddressError where
  | noPort
  | unreadablePort
  deriving DecidableEq, Repr

def AddressError.message : AddressError → String
  | noPort => "invalid socket address"
  | unreadablePort => "invalid port value"

def afterLastColon? (cs : List Char) : Option (List Char) :=
  if ':' ∈ cs then some (cs.reverse.takeWhile (· ≠ ':')).reverse else none

/-- Reads a port: decimal digits, perhaps after a plus sign, of a number below `2 ^ 16`. -/
def port? (cs : List Char) : Option Nat :=
  let digits := match cs with
    | '+' :: rest => rest
    | _ => cs
  if digits.isEmpty || !digits.all Char.isDigit then none
  else
    let n := digits.foldl (fun acc c => acc * 10 + (c.toNat - 48)) 0
    if n < UInt16.size then some n else none

def portOf (address : String) : Except AddressError Nat :=
  match afterLastColon? address.toList with
  | none => .error .noPort
  | some cs =>
    match port? cs with
    | some n => .ok n
    | none => .error .unreadablePort

end CertKeeper.Server
