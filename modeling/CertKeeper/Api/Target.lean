/-!
# Targets of requests

A target is a path and perhaps a query. Not every text is one, and of the others only what stands
before a fragment is sent.
-/

namespace CertKeeper.Api.Target

def isPathChar (c : Char) : Bool := 0x20 < c.toNat && c ≠ '<' && c ≠ '>' && c.toNat ≠ 0x60

def isQueryChar (c : Char) : Bool := 0x20 < c.toNat && c ≠ '"' && c ≠ '<' && c ≠ '>'

def maxBytes : Nat := 65534

/-- What is sent of a target, if it is one. -/
def sent? (target : String) : Option String :=
  let cs := target.toList.takeWhile (· ≠ '#')
  let path := cs.takeWhile (· ≠ '?')
  let query := (cs.dropWhile (· ≠ '?')).drop 1
  if target.utf8ByteSize ≤ maxBytes && path.all isPathChar && query.all isQueryChar then
    some (String.ofList cs)
  else none

def path (target : String) : String := String.ofList (target.toList.takeWhile (· ≠ '?'))

end CertKeeper.Api.Target
