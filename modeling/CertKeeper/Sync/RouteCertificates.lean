import CertKeeper.Sync.Basic
import CertKeeper.Text.Utf8

/-!
# Certificates of routes

A route takes its certificate, its key and its CA from one secret of its namespace, and the CA of
its destination from another. A field that the secret does not hold keeps its value; without a
reference to a secret its fields are cleared.
-/

namespace CertKeeper.RouteCertificates

open Watch

structure Fields where
  key : Option String
  certificate : Option String
  caCertificate : Option String
  destinationCa : Option String
  deriving DecidableEq, Repr

structure References where
  certs : Option Reference
  destinationCa : Option Reference

def references (r : Route) : Except SyncError References := do
  let certs ← r.annotations.localReference Key.certsFromSecret r.metadata.nsOrEmpty
  let destinationCa ← r.annotations.localReference Key.destinationCaFromSecret r.metadata.nsOrEmpty
  .ok { certs, destinationCa }

/-- Two references to one secret are one source. -/
def sources (r : Route) : Except SyncError (List Source) := do
  let refs ← references r
  .ok (([refs.certs, refs.destinationCa].filterMap id).map Source.secret).eraseDups

/-- The empty text counts as absent. -/
def present (value : Option String) : Option String :=
  value.bind fun s => if s = "" then none else some s

def current (r : Route) : Fields :=
  match r.content.spec.tls with
  | some t =>
    ⟨present t.key, present t.certificate, present t.caCertificate,
      present t.destinationCaCertificate⟩
  | none => ⟨none, none, none, none⟩

/-- The text of a field of the secret `ref`, or `otherwise` if it is absent there. Without a
reference there is none. -/
def derived (loaded : Sources) (ref : Option Reference) (key : String) (otherwise : Option String) :
    Option String :=
  ref.bind fun r => ((loaded.field (.secret r) key).map Text.Utf8.lossy) <|> otherwise

def desired (loaded : Sources) (r : Route) : Except SyncError Fields := do
  let refs ← references r
  let now := current r
  .ok {
    key := derived loaded refs.certs Field.tlsKey now.key
    certificate := derived loaded refs.certs Field.tlsCert now.certificate
    caCertificate := derived loaded refs.certs Field.caCert now.caCertificate
    destinationCa := derived loaded refs.destinationCa Field.caCert now.destinationCa }

def writeTls (f : Fields) (t : Route.Tls) : Route.Tls :=
  { t with
    key := f.key
    certificate := f.certificate
    caCertificate := f.caCertificate
    destinationCaCertificate := f.destinationCa }

def write (f : Fields) (r : Route) : Route :=
  let spec := { r.content.spec with tls := r.content.spec.tls.map (writeTls f) }
  { r with content := ⟨spec⟩ }

def derivation : Derivation .route Fields where
  current := current
  desired _ := desired
  unchanged _ a b := a = b
  write := write

def kind : SyncKind .route where
  name := "route-certificates"
  localSources := true
  usesSystemCa := false
  applies r := r.content.isSecure
  sources := sources
  revise := derivation.revise
  targetFilter := .secureRoute [Key.certsFromSecret, Key.destinationCaFromSecret]
  sourceFilter := some (.tlsSourceChanged [Field.tlsCert, Field.tlsKey, Field.caCert])

end CertKeeper.RouteCertificates
