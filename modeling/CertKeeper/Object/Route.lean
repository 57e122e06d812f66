import CertKeeper.Object.Layout

/-!
# Routes

A route leads requests for a host to a service. Where it terminates TLS it carries a certificate.
Fields that are not modelled are kept as they are, so that writing a route back loses none of them.
-/

namespace CertKeeper.Route

structure Tls where
  termination : String
  certificate : Option String
  key : Option String
  caCertificate : Option String
  destinationCaCertificate : Option String
  other : Dict Json

namespace Tls

def known : List String :=
  ["termination", "certificate", "key", "caCertificate", "destinationCACertificate"]

/-- The termination may be left out, but is not `null`. -/
def termination? (fields : Json.Fields) : Option String :=
  match fields.get? "termination" with
  | none => some ""
  | some j => j.text?

def ofJson? (j : Json) : Option Tls := do
  let fields ← j.fields?
  some {
    termination := ← termination? fields
    certificate := ← fields.optional "certificate" Json.text?
    key := ← fields.optional "key" Json.text?
    caCertificate := ← fields.optional "caCertificate" Json.text?
    destinationCaCertificate := ← fields.optional "destinationCACertificate" Json.text?
    other := fields.others known }

def toJson (t : Tls) : Json :=
  Json.sorted (("termination", .string t.termination)
    :: (Json.optionalField "certificate" (t.certificate.map .string)
      ++ Json.optionalField "key" (t.key.map .string)
      ++ Json.optionalField "caCertificate" (t.caCertificate.map .string)
      ++ Json.optionalField "destinationCACertificate" (t.destinationCaCertificate.map .string)
      ++ t.other.toList))

end Tls

structure Spec where
  host : Option String
  tls : Option Tls
  other : Dict Json

namespace Spec

def known : List String := ["host", "tls"]

def ofJson? (j : Json) : Option Spec := do
  let fields ← j.fields?
  some {
    host := ← fields.optional "host" Json.text?
    tls := ← fields.optional "tls" Tls.ofJson?
    other := fields.others known }

def toJson (s : Spec) : Json :=
  Json.sorted (Json.optionalField "host" (s.host.map .string)
    ++ Json.optionalField "tls" (s.tls.map Tls.toJson) ++ s.other.toList)

end Spec

structure Content where
  spec : Spec

namespace Content

/-- The specification may not be left out. -/
def ofFields? (fields : Json.Fields) : Option Content := do
  some { spec := ← (← fields.get? "spec") |> Spec.ofJson? }

def toFields (c : Content) : Json.Fields := [("spec", c.spec.toJson)]

/-- Whether TLS ends at the router, so that the route needs a certificate. -/
def isSecure (c : Content) : Bool :=
  c.spec.tls.any fun t => t.termination == "edge" || t.termination == "reencrypt"

end Content

/-- The metadata and the specification of a route as it was sent: an object that names each of them
once, or a list of both. -/
def parts? : Json → Option (Json × Json)
  | .array [metadata, spec] => some (metadata, spec)
  | .object fields => do
    some (← Json.Fields.only? fields "metadata", ← Json.Fields.only? fields "spec")
  | _ => none

/-- Whether a specification names one of its own fields, or one of those for TLS, several times. -/
def repeatsKnown (spec : Json.Fields) : Bool :=
  spec.repeats Spec.known
    || ((spec.get? "tls" >>= Json.fields?).getD []).repeats Tls.known

/-- Reads a route that is nested at most `depth` deep. All fields of the specification are kept. -/
def settle? (depth : Nat) (j : Json) : Option Json :=
  match depth with
  | 0 => none
  | d + 1 => do
    let (metadata, spec) ← parts? j
    let metadata ← Layout.metadata.settle? d metadata
    let spec ← if repeatsKnown (← spec.fields?) then none else spec.settled? d
    some (.object [("metadata", metadata), ("spec", spec)])

end CertKeeper.Route
