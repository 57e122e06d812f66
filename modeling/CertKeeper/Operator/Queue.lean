import CertKeeper.Object.Metadata

/-!
# Pending runs

Each worker has at most one pending run for an object. Of two requests for one run the earlier time
counts.
-/

namespace CertKeeper.Operator

/-- A run of a worker for an object. -/
structure Job where
  /-- The place of the worker among all workers. -/
  worker : Nat
  ref : ObjectRef
  /-- Nanoseconds since the start. -/
  due : Nat
  deriving DecidableEq, Repr

abbrev Queue := List Job

namespace Queue

/-- Requests a run, unless it is already due earlier. -/
def request (q : Queue) (job : Job) : Queue :=
  match q with
  | [] => [job]
  | j :: rest =>
    if j.worker = job.worker ∧ j.ref = job.ref then { j with due := min j.due job.due } :: rest
    else j :: request rest job

/-- The run that is due first. Of those due at one time it is the one requested first. -/
def next? : Queue → Option Job
  | [] => none
  | j :: rest =>
    match next? rest with
    | none => some j
    | some k => if k.due < j.due then some k else some j

def remove (q : Queue) (job : Job) : Queue :=
  q.filter fun j => !(j.worker == job.worker && j.ref == job.ref)

end Queue
end CertKeeper.Operator
