import CertKeeper.Expiry.Check
import CertKeeper.Sync.Controller

/-!
# Reconciliations

A reconciliation is one run of a controller for one object, with all that is recorded about it: it
counts, a write counts, an error counts, and an error that can be mended on the object is a warning
on it. An error is followed by another run. Of a run that a panic cuts off nothing is recorded but
that it has begun.
-/

namespace CertKeeper

/-- What a reconciliation leaves behind. -/
structure Reconciliation where
  outcome : Except SyncError Outcome
  cluster : Cluster
  metrics : Metrics
  warnings : List Warning

namespace Outcome

/-- After how many nanoseconds a target is looked at again, even if nothing changes. -/
def requeue? : Outcome → Option Nat
  | requeueAfter nanos => some nanos
  | _ => none

def name : Outcome → String
  | missing => "missing"
  | skipped => "skipped"
  | unchanged => "unchanged"
  | updated => "updated"
  | requeueAfter _ => "requeue_after"

end Outcome

namespace Reconciliation

def next? (r : Reconciliation) : Option Nat :=
  match r.outcome with
  | .ok outcome => outcome.requeue?
  | .error e => e.requeueSeconds?.map (· * Duration.second)

/-- Ends a run of a controller. An error counts. -/
def close (r : Reconciliation) (controller : String) : Reconciliation :=
  match r.outcome with
  | .ok _ | .error (.panic _) => r
  | .error _ => { r with metrics := r.metrics.failed controller }

@[simp] theorem outcome_close (r : Reconciliation) (controller : String) :
    (r.close controller).outcome = r.outcome := by
  unfold close
  split <;> rfl

@[simp] theorem cluster_close (r : Reconciliation) (controller : String) :
    (r.close controller).cluster = r.cluster := by
  unfold close
  split <;> rfl

@[simp] theorem warnings_close (r : Reconciliation) (controller : String) :
    (r.close controller).warnings = r.warnings := by
  unfold close
  split <;> rfl

end Reconciliation

/-- The warning of an error that can be mended on an object of the kind `k`. -/
def SyncError.warning? (e : SyncError) (k : Kind) (ref : ObjectRef) : Option Warning :=
  if e.isReportable then some ⟨k, ref, e.reason, e.message?.getD ""⟩ else none

namespace Controller

/-- What is recorded of a run for the object `ref` before it ends. -/
def record (c : Controller) (m : Metrics) (ref : ObjectRef) :
    Except SyncError Outcome × Cluster → Reconciliation
  | (.ok outcome, cluster) =>
    let m := m.reconciled c.name
    ⟨.ok outcome, cluster, if outcome = .updated then m.wrote c.name else m, []⟩
  | (.error e, cluster) =>
    ⟨.error e, cluster, m.reconciled c.name, (e.warning? c.kind ref).toList⟩

/-- One run of a controller for the object `ref`. -/
def reconcile (c : Controller) (cluster : Cluster) (h : Host) (m : Metrics) (ref : ObjectRef) :
    Reconciliation :=
  (c.record m ref (c.sync.sync cluster h ⟨ref.ns.getD "", ref.name⟩)).close c.name

end Controller

namespace Expiry

def reconcile (cluster : Cluster) (h : Host) (m : Metrics) (ref : ObjectRef) : Reconciliation :=
  let now : Instant := ⟨h.now * 1000000⟩
  let r := check cluster (m.reconciled controller) ⟨ref.ns.getD "", ref.name⟩ now
  Reconciliation.close ⟨r.outcome, cluster, r.metrics, r.warnings⟩ controller

end Expiry
end CertKeeper
