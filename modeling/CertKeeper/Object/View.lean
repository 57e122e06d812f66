import CertKeeper.Keystore.Stable
import CertKeeper.Object.Basic

/-!
# Views of objects

A view is the JSON of an object in which keystores are shown by what salts do not change.
-/

namespace CertKeeper.Object

variable {k : Kind}

def storeFields : Kind → List String
  | .secret => [Field.keystore, Field.truststore]
  | .configMap => [Field.truststore]
  | _ => []

/-- Creation times in keystores are those of the object, if it has one. -/
def viewBytes (o : Object k) (name : String) (b : Bytes) : Json :=
  if name ∈ storeFields k then
    Keystore.Stable.reportJson b o.annotations.keystorePassword o.metadata.creationTimestamp.isSome
  else Json.ofBytes b

def view (o : Object k) : Json := o.toJsonWith o.viewBytes

end CertKeeper.Object
