import CertKeeper.Expiry.State
import CertKeeper.Metrics.Basic
import CertKeeper.Sync.Basic
import CertKeeper.Watch.Filter

/-!
# Checks of expiry

The scheduler looks at a secret, warns if its certificate is expiring, and says when to look again.
The validity of its certificates is shown by gauges, which also follow every change of a secret.
-/

namespace CertKeeper

structure Warning where
  kind : Kind
  ref : ObjectRef
  reason : String
  note : String
  deriving DecidableEq, Repr

namespace Expiry

open Watch

def controller : String := "secret-expiry-alert"

def reason : String := "CertsSoonToExpire"

def labels (s : Secret) : GaugeLabels := ⟨s.metadata.nameOrStem, s.metadata.nsOrEmpty⟩

/-- When the last certificate of a secret was issued and when the first one expires. -/
def window? (s : Secret) : Option (Int × Int) :=
  if s.content.isTls then do
    let pem ← s.content.value Field.tlsCert
    let issued ← Bundle.latestIssue? pem
    let expires ← Bundle.earliestExpiry? pem
    some (issued, expires)
  else none

/-- Shows the validity of the certificates of a secret. Without any it has no gauges. -/
def observe (m : Metrics) (s : Secret) : Metrics :=
  match window? s with
  | some (issued, expires) => m.observe (labels s) issued expires
  | none => m.forget (labels s)

/-- Follows a change of a secret. -/
def track (m : Metrics) : ObjectEvent Secret → Metrics
  | .deleted s => m.forget (labels s)
  | e => observe m e.object

/-- The changes of secrets that call for a check. -/
def filter : EventFilter .secret :=
  .annotatedTlsSecret Key.generateCertExpiryAlert [Field.tlsCert]

/-- What a check has come to. -/
structure Report where
  outcome : Except SyncError Outcome
  warnings : List Warning
  metrics : Metrics

def warning (s : Secret) (days : Int) : Warning where
  kind := .secret
  ref := s.ref
  reason := reason
  note := "Certificate expiring in " ++ toString days ++ " days"

def reportOn (m : Metrics) (s : Secret) (now : Instant) : Report :=
  let m := observe m s
  match stateAt s now with
  | .noCheck => ⟨.ok .skipped, [], m⟩
  | .normal after => ⟨.ok (.requeueAfter after), [], m⟩
  | .soonToExpire after days => ⟨.ok (.requeueAfter after), [warning s days], m⟩

def check (c : Cluster) (m : Metrics) (r : Reference) (now : Instant) : Report :=
  match c.get .secret r with
  | .error e => ⟨.error (.api e), [], m⟩
  | .ok none => ⟨.ok .missing, [], m⟩
  | .ok (some s) => if s.content.isTls then reportOn m s now else ⟨.ok .skipped, [], m⟩

end Expiry
end CertKeeper
