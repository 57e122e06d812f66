import CertKeeper.Json

/-!
# Config maps

A config map holds text under names, and bytes under other names.
-/

namespace CertKeeper.ConfigMap

structure Content where
  data : Option (Dict String)
  binaryData : Option (Dict Bytes)
  extra : Dict Json

namespace Content

/-- The text under a name, be it empty or not. -/
def field (c : Content) (key : String) : Option String := c.data.bind fun d => d[key]?

/-- The text under a name. The empty text counts as absent. -/
def value (c : Content) (key : String) : Option String :=
  (c.field key).bind fun s => if s = "" then none else some s

/-- Sets the text under a name, or removes the name. -/
def set (c : Content) (key : String) (value : Option String) : Content :=
  match value with
  | some s => { c with data := some ((c.data.getD ∅).insert key s) }
  | none => { c with data := c.data.map (·.erase key) }

def binaryValue (c : Content) (key : String) : Option Bytes :=
  (c.binaryData.bind fun d => d[key]?).bind Bytes.nonEmpty?

def setBinary (c : Content) (key : String) (value : Option Bytes) : Content :=
  match value with
  | some b => { c with binaryData := some ((c.binaryData.getD ∅).insert key b) }
  | none => { c with binaryData := c.binaryData.map (·.erase key) }

def ofFields? (fields : Json.Fields) : Option Content := do
  some {
    data := ← fields.optional "data" (Json.dict? Json.text?)
    binaryData := ← fields.optional "binaryData" (Json.dict? Json.bytes?)
    extra := fields.others ["data", "binaryData"] }

def toFields (write : String → Bytes → Json) (c : Content) : Json.Fields :=
  Json.optionalField "data" (c.data.map (Json.ofDict .string))
    ++ Json.optionalField "binaryData" (c.binaryData.map (Json.ofDictWith write))
    ++ c.extra.toList

end Content
end CertKeeper.ConfigMap
