import CertKeeper.Json

/-!
# API services

An API service may name the CA by which its server is known.
-/

namespace CertKeeper.ApiService

structure Spec where
  caBundle : Option Bytes
  extra : Dict Json

namespace Spec

def initial : Spec where
  caBundle := none
  extra := Std.ExtTreeMap.ofList
    [("groupPriorityMinimum", Json.ofNat 0), ("versionPriority", Json.ofNat 0)]

def ofJson? (j : Json) : Option Spec := do
  let fields ← j.fields?
  some {
    caBundle := ← fields.optional "caBundle" Json.bytes?
    extra := fields.others ["caBundle"] }

def toJson (s : Spec) : Json :=
  Json.sorted (Json.optionalField "caBundle" (s.caBundle.map Json.ofBytes) ++ s.extra.toList)

end Spec

structure Content where
  spec : Option Spec
  extra : Dict Json

namespace Content

def ofFields? (fields : Json.Fields) : Option Content := do
  some {
    spec := ← fields.optional "spec" Spec.ofJson?
    extra := fields.others ["spec"] }

def toFields (c : Content) : Json.Fields :=
  Json.optionalField "spec" (c.spec.map Spec.toJson) ++ c.extra.toList

end Content
end CertKeeper.ApiService
