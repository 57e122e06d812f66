import CertKeeper.Sync.Reconcile
import CertKeeper.Watch.Resolver

/-!
# Workers

A worker runs for objects of one kind: it is a controller or the scheduler of expiry checks. Changes
of objects make it request runs.
-/

namespace CertKeeper.Operator

open Watch

inductive Worker where
  | controller (controller : Controller)
  | expiry

namespace Worker

def kind : Worker → Kind
  | controller c => c.kind
  | expiry => .secret

/-- Whether a change of a target calls for a run for it. -/
def acceptsTarget {k : Kind} (e : ObjectEvent (Object k)) : Worker → Bool
  | controller c => if h : k = c.kind then c.sync.targetFilter.accepts (e.cast h) else false
  | expiry => if h : k = .secret then Expiry.filter.accepts (e.cast h) else false

/-- The targets of a controller that depend on a secret, if its change is one that matters. -/
def dependents (c : Cluster) (e : ObjectEvent Secret) : Worker → List ObjectRef
  | controller w =>
    match w.sync.sourceFilter with
    | some f => if f.accepts e then w.sync.resolveSource c e.object.key else []
    | none => []
  | expiry => []

/-- The objects for which a change calls for runs. -/
def wanted {k : Kind} (c : Cluster) (e : ObjectEvent (Object k)) (w : Worker) : List ObjectRef :=
  let own := if w.acceptsTarget e then [e.object.ref] else []
  if h : k = .secret then own ++ w.dependents c (e.cast h) else own

def wantedBySystemCa (c : Cluster) : Worker → List ObjectRef
  | controller w => if w.sync.usesSystemCa then w.sync.resolveSystemCa c else []
  | expiry => []

def reconcile (c : Cluster) (h : Host) (m : Metrics) (ref : ObjectRef) : Worker → Reconciliation
  | controller w => w.reconcile c h m ref
  | expiry => Expiry.reconcile c h m ref

end Worker
end CertKeeper.Operator
