import CertKeeper.Annotation.Keys
import CertKeeper.Json

/-!
# Secrets

A secret holds bytes under names. Those of one type hold a certificate and its key.
-/

namespace CertKeeper.Secret

structure Content where
  type : Option String
  data : Option (Dict Bytes)
  extra : Dict Json

namespace Content

def isTls (c : Content) : Bool := c.type == some Field.tlsSecretType

/-- The bytes under a name, be they empty or not. -/
def field (c : Content) (key : String) : Option Bytes := c.data.bind fun d => d[key]?

/-- The bytes under a name. Empty ones count as absent. -/
def value (c : Content) (key : String) : Option Bytes := (c.field key).bind Bytes.nonEmpty?

/-- Sets the bytes under a name, or removes the name. -/
def set (c : Content) (key : String) (value : Option Bytes) : Content :=
  match value with
  | some b => { c with data := some ((c.data.getD ∅).insert key b) }
  | none => { c with data := c.data.map (·.erase key) }

def material (c : Content) : Dict Bytes := c.data.getD ∅

def ofFields? (fields : Json.Fields) : Option Content := do
  some {
    type := ← fields.optional "type" Json.text?
    data := ← fields.optional "data" (Json.dict? Json.bytes?)
    extra := fields.others ["type", "data"] }

def toFields (write : String → Bytes → Json) (c : Content) : Json.Fields :=
  Json.optionalField "type" (c.type.map .string)
    ++ Json.optionalField "data" (c.data.map (Json.ofDictWith write))
    ++ c.extra.toList

end Content
end CertKeeper.Secret
