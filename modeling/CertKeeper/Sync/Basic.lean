import CertKeeper.Sync.Source
import CertKeeper.Watch.Filter

/-!
# Synchronization

Each kind of synchronization derives fields of a target from its sources. A run fetches the target,
reads the sources that its annotations name, and writes the target back only if a field has to
change. `SyncKind.plan` reads and decides, `SyncKind.sync` carries the decision out.
-/

namespace CertKeeper

open Watch

/-- How the derived fields of targets are read, derived, compared and written. -/
structure Derivation (k : Kind) (α : Type) where
  current : Object k → α
  desired : Host → Sources → Object k → Except SyncError α
  /-- Whether the first value can stay in the place of the second. -/
  unchanged : Object k → α → α → Bool
  write : α → Object k → Object k

namespace Derivation

variable {k : Kind} {α : Type}

/-- The target as it should be, or nothing if it already is. -/
def revise (d : Derivation k α) (h : Host) (loaded : Sources) (target : Object k) :
    Except SyncError (Option (Object k)) := do
  let value ← d.desired h loaded target
  .ok (if d.unchanged target (d.current target) value then none else some (d.write value target))

end Derivation

/-- How the fields of targets of one kind are derived. -/
structure SyncKind (k : Kind) where
  /-- The name of the controller. -/
  name : String
  /-- Whether targets only refer to secrets of their own namespace. -/
  localSources : Bool
  usesSystemCa : Bool
  /-- Which objects are targets. -/
  applies : Object k → Bool
  /-- The sources that the annotations of a target name. -/
  sources : Object k → Except SyncError (List Source)
  /-- The target as it should be, or nothing if it already is. -/
  revise : Host → Sources → Object k → Except SyncError (Option (Object k))
  /-- Which changes of targets call for a run. -/
  targetFilter : EventFilter k
  /-- Which changes of secrets call for runs of the targets that refer to them. -/
  sourceFilter : Option (EventFilter .secret)

/-- What is to be done with a target. -/
inductive Plan (k : Kind) where
  | missing
  | skip
  | keep
  | write (target : Object k)

/-- What a run has come to. -/
inductive Outcome where
  | missing
  | skipped
  | unchanged
  | updated
  /-- The target is to be looked at again after so many nanoseconds. -/
  | requeueAfter (nanos : Nat)
  deriving DecidableEq, Repr

namespace SyncKind

variable {k : Kind}

def planFor (s : SyncKind k) (c : Cluster) (h : Host) (target : Object k) :
    Except SyncError (Plan k) :=
  if !s.applies target then .ok .skip
  else do
    let sources ← s.sources target
    let loaded ← Source.readAll c h sources
    match ← s.revise h loaded target with
    | none => .ok .keep
    | some revised => .ok (.write revised)

/-- Reads the target and its sources and decides what is to be done. -/
def plan (s : SyncKind k) (c : Cluster) (h : Host) (r : Reference) : Except SyncError (Plan k) :=
  match c.get k r with
  | .error e => .error (.api e)
  | .ok none => .ok .missing
  | .ok (some target) => s.planFor c h target

def reads (s : SyncKind k) (c : Cluster) (h : Host) (r : Reference) : List (Kind × Reference) :=
  match c.get k r with
  | .ok (some target) =>
    let secrets :=
      if s.applies target then
        match s.sources target with
        | .ok sources => Source.secretsRead c h sources
        | .error _ => []
      else []
    (k, r) :: secrets.map fun ref => (.secret, ref)
  | _ => []

end SyncKind

namespace Plan

variable {k : Kind}

def carryOut (c : Cluster) : Plan k → Except SyncError Outcome × Cluster
  | missing => (.ok .missing, c)
  | skip => (.ok .skipped, c)
  | keep => (.ok .unchanged, c)
  | write target =>
    match c.update target with
    | .ok c' => (.ok .updated, c')
    | .error e => (.error (.api e), c)

end Plan

namespace SyncKind

variable {k : Kind}

/-- One run for the target `r`. -/
def sync (s : SyncKind k) (c : Cluster) (h : Host) (r : Reference) :
    Except SyncError Outcome × Cluster :=
  match s.plan c h r with
  | .error e => (.error e, c)
  | .ok p => p.carryOut c

end SyncKind
end CertKeeper
