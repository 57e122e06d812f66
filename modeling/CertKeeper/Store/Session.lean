import CertKeeper.Object.View
import CertKeeper.Sync.Reconcile

/-!
# Sessions on a store

A session runs single controllers by hand: on a store that may refuse calls, beside a system CA file
that may be missing, and against another writer who gets in between a read and a write.
-/

namespace CertKeeper

inductive FileError where
  | notFound
  | isDirectory
  deriving DecidableEq, Repr

def FileError.message : FileError → String
  | notFound => "No such file or directory (os error 2)"
  | isDirectory => "Is a directory (os error 21)"

structure Session where
  /-- The path of the system CA file of the session. -/
  ownPath : String
  cluster : Cluster
  /-- Objects of this kind are written by somebody else as soon as they have been read. -/
  contested : Option Kind
  /-- The content of that file. -/
  file : Option Bytes
  /-- Another path to read instead of that file. -/
  path : Option String
  metrics : Metrics

namespace Session

def start (ownPath : String) : Session := ⟨ownPath, .empty, none, none, none, .empty⟩

def readFile (s : Session) : Except FileError Bytes :=
  match s.path with
  | some "/" => .error .isDirectory
  | some _ => .error .notFound
  | none =>
    match s.file with
    | some b => .ok b
    | none => .error .notFound

def host (s : Session) (now : Int) (salts : Nat → Keystore.Salt) : Host where
  systemCaFile := s.path.getD s.ownPath
  systemCa := s.readFile.mapError FileError.message
  now := now
  salts := salts

def mapStore (s : Session) (f : Store → Store) : Session :=
  { s with cluster := { s.cluster with store := f s.cluster.store } }

/-- The version that the other writer leaves behind. -/
def contestedVersion : String := "raced"

/-- Somebody else writes the object `r`, if objects of its kind are contested. -/
def interfere (s : Session) (k : Kind) (r : Reference) : Session :=
  if s.contested = some k then
    match s.cluster.store.find? k r with
    | some o => s.mapStore fun st => st.insert (o.withResourceVersion (some contestedVersion))
    | none => s
  else s

def sync (s : Session) (c : Controller) (h : Host) (r : Reference) :
    Except SyncError Outcome × Session :=
  let plan := c.sync.plan s.cluster h r
  let s := (c.sync.reads s.cluster h r).foldl (fun s e => s.interfere e.1 e.2) s
  match plan with
  | .error e => (.error e, s)
  | .ok p =>
    let (outcome, cluster) := p.carryOut s.cluster
    (outcome, { s with cluster })

def check (s : Session) (r : Reference) (now : Expiry.Instant) :
    Except SyncError Outcome × List Warning × Session :=
  let report := Expiry.check s.cluster s.metrics r now
  let s := { s with metrics := report.metrics }
  let s := if s.cluster.refusals.get .secret r = none then s.interfere .secret r else s
  (report.outcome, report.warnings, s)

end Session
end CertKeeper
