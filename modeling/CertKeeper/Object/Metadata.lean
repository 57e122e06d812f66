import CertKeeper.Annotation.Basic
import CertKeeper.Time.Timestamp

/-!
# Metadata of objects

What every object carries beside its content: its identity, its annotations, and the version by
which the API server notices that somebody else has written it.
-/

namespace CertKeeper

/-- The identity of an object among those of its kind. -/
structure ObjectRef where
  ns : Option String
  name : String
  deriving DecidableEq, Repr

structure Metadata where
  name : Option String
  /-- From which the server makes a name when none is given. -/
  generateName : Option String
  ns : Option String
  annotations : Option Annotations
  resourceVersion : Option String
  creationTimestamp : Option Time.Timestamp
  uid : Option String
  extra : Dict Json

namespace Metadata

def empty : Metadata := ⟨none, none, none, none, none, none, none, ∅⟩

def nameOrStem (m : Metadata) : String := (m.name <|> m.generateName).getD ""

def nsOrEmpty (m : Metadata) : String := m.ns.getD ""

def ref (m : Metadata) : ObjectRef := ⟨m.ns, m.nameOrStem⟩

/-- The place of an object in a store, where objects without a namespace have the empty one. -/
def key (m : Metadata) : Reference := ⟨m.nsOrEmpty, m.nameOrStem⟩

def annotationMap (m : Metadata) : Annotations := m.annotations.getD ∅

def known : List String :=
  ["name", "generateName", "namespace", "annotations", "resourceVersion", "creationTimestamp",
    "uid"]

def ofFields? (fields : Json.Fields) : Option Metadata := do
  some {
    name := ← fields.optional "name" Json.text?
    generateName := ← fields.optional "generateName" Json.text?
    ns := ← fields.optional "namespace" Json.text?
    annotations := ← fields.optional "annotations" (Json.dict? Json.text?)
    resourceVersion := ← fields.optional "resourceVersion" Json.text?
    creationTimestamp :=
      ← fields.optional "creationTimestamp" fun j => j.text? >>= Time.Timestamp.parse?
    uid := ← fields.optional "uid" Json.text?
    extra := fields.others known }

def toFields (m : Metadata) : Json.Fields :=
  Json.optionalField "name" (m.name.map .string)
    ++ Json.optionalField "generateName" (m.generateName.map .string)
    ++ Json.optionalField "namespace" (m.ns.map .string)
    ++ Json.optionalField "annotations" (m.annotations.map (Json.ofDict .string))
    ++ Json.optionalField "resourceVersion" (m.resourceVersion.map .string)
    ++ Json.optionalField "creationTimestamp" (m.creationTimestamp.map fun t => .string t.render)
    ++ Json.optionalField "uid" (m.uid.map .string)
    ++ m.extra.toList

end Metadata
end CertKeeper
