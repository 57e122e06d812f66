import CertKeeper.Store.Basic

/-!
# The cluster as it answers

A cluster may refuse any call. It counts the updates that it has carried out.
-/

namespace CertKeeper

/-- The errors by which calls are refused. -/
structure Refusals where
  get : Kind → Reference → Option ApiError
  list : Kind → Option ApiError
  update : Kind → Reference → Option ApiError

namespace Refusals

def none : Refusals := ⟨fun _ _ => .none, fun _ => .none, fun _ _ => .none⟩

def all (get list update : Bool) : Refusals where
  get _ _ := if get then some (.internal "get failed") else .none
  list _ := if list then some (.internal "list failed") else .none
  update _ _ := if update then some (.internal "update failed") else .none

end Refusals

structure Cluster where
  store : Store
  refusals : Refusals
  /-- The number of updates so far. -/
  writes : Nat

namespace Cluster

def empty : Cluster := ⟨.empty, .none, 0⟩

def ofStore (s : Store) : Cluster := ⟨s, .none, 0⟩

/-- Fetches an object. That there is none is no error. -/
def get (c : Cluster) (k : Kind) (r : Reference) : Except ApiError (Option (Object k)) :=
  match c.refusals.get k r with
  | some e => .error e
  | none => .ok (c.store.find? k r)

def list (c : Cluster) (k : Kind) (ns : Option String) : Except ApiError (List (Object k)) :=
  match c.refusals.list k with
  | some e => .error e
  | none => .ok (c.store.list k ns)

def update {k : Kind} (c : Cluster) (o : Object k) : Except ApiError Cluster :=
  match c.refusals.update k o.key with
  | some e => .error e
  | none =>
    match c.store.replace o with
    | .ok store => .ok { c with store, writes := c.writes + 1 }
    | .error e => .error e

end Cluster
end CertKeeper
