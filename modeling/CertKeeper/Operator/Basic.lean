import CertKeeper.Metrics.Exposition
import CertKeeper.Operator.Queue
import CertKeeper.Operator.Worker

/-!
# The operator at work

All workers run over one cluster with a clock of its own. What happens in the cluster is told by the
watches, one for each kind; it makes the workers request runs, and runs that write objects are
themselves seen by the watches. A panic in any run ends the operator.
-/

namespace CertKeeper

open Watch

structure Operator where
  workers : List Operator.Worker
  /-- Nanoseconds since the start. -/
  clock : Nat
  cluster : Cluster
  host : Host
  watches : Family Classifier
  queue : Operator.Queue
  metrics : Metrics
  /-- The warnings since the last report. -/
  warnings : List Warning
  /-- The objects that were written since the last report, one entry a write. -/
  written : List (Kind × Reference)

namespace Operator

def idle (workers : List Worker) (host : Host) : Operator where
  workers := workers
  clock := 0
  cluster := .empty
  host := host
  watches := .ofFn fun _ => .empty
  queue := []
  metrics := .empty
  warnings := []
  written := []

def watchesExpiry (o : Operator) : Bool :=
  o.workers.any fun
    | .expiry => true
    | .controller _ => false

def request (o : Operator) (worker : Nat) (refs : List ObjectRef) : Operator :=
  { o with queue := refs.foldl (fun q ref => q.request ⟨worker, ref, o.clock⟩) o.queue }

def tracked {k : Kind} (o : Operator) (e : ObjectEvent (Object k)) : Metrics :=
  if h : k = .secret then if o.watchesExpiry then Expiry.track o.metrics (e.cast h) else o.metrics
  else o.metrics

def deliver {k : Kind} (o : Operator) (e : ObjectEvent (Object k)) : Operator :=
  let o := { o with metrics := o.tracked e }
  o.workers.zipIdx.foldl (fun o w => o.request w.2 (w.1.wanted o.cluster e)) o

def observe {k : Kind} (o : Operator) (raw : RawEvent k) : Operator :=
  let (changes, watch) := (o.watches.get k).step raw
  changes.foldl deliver { o with watches := o.watches.set k watch }

def sawWrite (o : Operator) (k : Kind) (r : Reference) : Operator :=
  let o := { o with written := o.written ++ [(k, r)] }
  match o.cluster.store.find? k r with
  | some object => o.observe (.applied object)
  | none => o

def settle (o : Operator) (job : Job) (w : Worker) (r : Reconciliation) : Operator :=
  let o := { o with
    cluster := r.cluster, metrics := r.metrics, warnings := o.warnings ++ r.warnings }
  let o := match r.outcome with
    | .ok .updated => o.sawWrite w.kind ⟨job.ref.ns.getD "", job.ref.name⟩
    | _ => o
  match r.next? with
  | some nanos => { o with queue := o.queue.request { job with due := o.clock + nanos } }
  | none => o

/-- Carries out a run, unless the watch does not know the object. -/
def run (o : Operator) (job : Job) : Except Panic Operator :=
  match o.workers[job.worker]? with
  | none => .ok o
  | some w =>
    if (o.watches.get w.kind).known.contains job.ref then
      let r := w.reconcile o.cluster o.host o.metrics job.ref
      match r.outcome with
      | .error (.panic cause) => .error cause
      | _ => .ok (o.settle job w r)
    else .ok o

/-- Carries out the runs that are due before the time `stop`, at most `fuel` of them. -/
def runUntil (stop : Nat) : (fuel : Nat) → Operator → Except Panic Operator
  | 0, o => .ok o
  | fuel + 1, o =>
    match o.queue.next? with
    | none => .ok o
    | some job =>
      if job.due < stop then do
        let o ← run { o with clock := max o.clock job.due, queue := o.queue.remove job } job
        runUntil stop fuel o
      else .ok o

/-- More runs than there are in any stretch of time that is played through. -/
def runLimit : Nat := 10000000

def pass (o : Operator) (seconds : Nat) : Except Panic Operator := do
  let stop := o.clock + seconds * Duration.second
  let o ← runUntil stop runLimit o
  .ok { o with clock := stop }

def relistKind (o : Operator) (k : Kind) : Operator :=
  let objects := o.cluster.store.list k none
  let o := o.observe (.listing : RawEvent k)
  let o := objects.foldl (fun o object => o.observe (.listed object)) o
  o.observe (.listingDone : RawEvent k)

def relist (o : Operator) : Operator := Kind.all.foldl relistKind o

def mapStore (o : Operator) (f : Store → Store) : Operator :=
  { o with cluster := { o.cluster with store := f o.cluster.store } }

def start (workers : List Worker) (host : Host) (objects : List AnyObject) :
    Except Panic Operator :=
  let seeded := objects.foldl (fun o x => o.mapStore fun s => s.seed x.object) (idle workers host)
  seeded.relist.pass 1

/-- What may happen to a cluster. -/
inductive Step where
  /-- An object is created or replaced. -/
  | apply (object : AnyObject)
  | delete (kind : Kind) (ref : Reference)
  /-- An object is deleted and the watches are not told. -/
  | vanish (kind : Kind) (ref : Reference)
  /-- Every watch ends and lists again. -/
  | relist
  /-- The file of the system CA changes. -/
  | systemCa (content : Except String Bytes)
  | refuse (refusals : Refusals)
  | advance (seconds : Nat)

namespace Step

def seconds : Step → Nat
  | relist => 20
  | advance s => s
  | _ => 1

def act (o : Operator) : Step → Operator
  | apply x =>
    let o := o.mapStore fun s => s.seed x.object
    match o.cluster.store.find? x.kind x.object.key with
    | some object => o.observe (.applied object)
    | none => o
  | delete k r =>
    match o.cluster.store.find? k r with
    | some object => (o.mapStore fun s => s.erase k r).observe (.removed object)
    | none => o
  | vanish k r => o.mapStore fun s => s.erase k r
  | relist => o.relist
  | systemCa content =>
    let o := { o with host := { o.host with systemCa := content } }
    o.workers.zipIdx.foldl (fun o w => o.request w.2 (w.1.wantedBySystemCa o.cluster)) o
  | refuse refusals => { o with cluster := { o.cluster with refusals } }
  | advance _ => o

end Step

def step (o : Operator) (s : Step) : Except Panic Operator := (s.act o).pass s.seconds

end Operator
end CertKeeper
