import CertKeeper.Sync.Basic

/-!
# Dependents of a source

When a source changes, the targets that name it have to be looked at again.
-/

namespace CertKeeper.SyncKind

variable {k : Kind}

/-- Whether a target names a source. Targets whose annotations cannot be read name none. -/
def dependsOn (s : SyncKind k) (source : Source) (target : Object k) : Bool :=
  s.applies target &&
    match s.sources target with
    | .ok sources => sources.contains source
    | .error _ => false

/-- The targets in one namespace or in all that name a source. If they cannot be listed, there are
none. -/
def resolve (s : SyncKind k) (c : Cluster) (ns : Option String) (source : Source) :
    List ObjectRef :=
  match c.list k ns with
  | .error _ => []
  | .ok candidates => ((candidates.filter (s.dependsOn source)).map Object.ref).eraseDups

/-- The targets that name a secret. Where targets only refer to secrets of their own namespace, no
other is searched. -/
def resolveSource (s : SyncKind k) (c : Cluster) (r : Reference) : List ObjectRef :=
  s.resolve c (if s.localSources then some r.ns else none) (.secret r)

/-- The targets that have opted in to the system CA. -/
def resolveSystemCa (s : SyncKind k) (c : Cluster) : List ObjectRef := s.resolve c none .systemCa

end CertKeeper.SyncKind
