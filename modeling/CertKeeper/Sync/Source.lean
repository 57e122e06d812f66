import CertKeeper.Keystore.Protection
import CertKeeper.Store.Cluster

/-!
# Sources

What a target is made from: secrets, and the bundle of CAs that the cluster itself is known by, which
lies in a file.
-/

namespace CertKeeper

inductive Source where
  | secret (ref : Reference)
  | systemCa
  deriving DecidableEq, Repr

abbrev Material := Dict Bytes

abbrev Sources := List (Source × Material)

/-- A field of a source that was read. Empty values count as absent. -/
def Sources.field (loaded : Sources) (source : Source) (key : String) : Option Bytes :=
  ((loaded.lookup source).bind fun m => m[key]?).bind Bytes.nonEmpty?

/-- What comes from outside the cluster: the file of the system CA, the time and random salts. -/
structure Host where
  systemCaFile : String
  /-- The content of the file, or why it cannot be read. -/
  systemCa : Except String Bytes
  /-- Milliseconds since 1970. -/
  now : Int
  salts : Nat → Keystore.Salt

namespace Host

def systemCaMaterial (h : Host) : Except SyncError Material :=
  match h.systemCa with
  | .ok bundle => .ok ((∅ : Material).insert Field.caCert bundle)
  | .error reason => .error (.systemCa h.systemCaFile reason)

end Host

namespace Source

/-- The material of one source. A secret that is missing is an error. -/
def read (c : Cluster) (h : Host) : Source → Except SyncError Material
  | secret ref =>
    match c.get .secret ref with
    | .error e => .error (.api e)
    | .ok none => .error (.missingSource ref.display)
    | .ok (some s) => .ok s.content.material
  | systemCa => h.systemCaMaterial

def readAll (c : Cluster) (h : Host) : List Source → Except SyncError Sources
  | [] => .ok []
  | s :: rest => do
    let material ← s.read c h
    let others ← readAll c h rest
    .ok ((s, material) :: others)

/-- The secrets that are read before the first source that cannot be. -/
def secretsRead (c : Cluster) (h : Host) : List Source → List Reference
  | [] => []
  | secret ref :: rest =>
    match c.get .secret ref with
    | .ok (some _) => ref :: secretsRead c h rest
    | _ => []
  | systemCa :: rest =>
    match h.systemCa with
    | .ok _ => secretsRead c h rest
    | .error _ => []

end Source
end CertKeeper
