import CertKeeper.Object.Basic

/-!
# Changes of objects

A watch tells which objects there are and how they change. Its raw events are classified by what was
known before: an object that was not known is created, a known one is updated, and after a new
listing the known objects that were not listed are deleted.
-/

namespace CertKeeper

instance : Ord ObjectRef := ⟨compareLex (compareOn ObjectRef.ns) (compareOn ObjectRef.name)⟩

instance : Std.TransOrd ObjectRef :=
  inferInstanceAs (Std.TransCmp (compareLex (compareOn ObjectRef.ns) (compareOn ObjectRef.name)))

instance : Std.LawfulEqOrd ObjectRef where
  eq_of_compare {a b} h := by
    have h : (compare a.ns b.ns).then (compare a.name b.name) = .eq := h
    obtain ⟨hns, hname⟩ := Ordering.then_eq_eq.mp h
    cases a
    cases b
    simp_all

namespace Watch

/-- A change of an object. -/
inductive ObjectEvent (α : Type) where
  | created (object : α)
  | updated (old new : α)
  | deleted (object : α)

/-- The object after the change, or as it was last known. -/
def ObjectEvent.object : ObjectEvent α → α
  | created o | deleted o => o
  | updated _ new => new

/-- A change of an object of a kind that has two names. -/
def ObjectEvent.cast {k k' : Kind} (h : k = k') (e : ObjectEvent (Object k)) :
    ObjectEvent (Object k') := h ▸ e

/-- What a watch tells. -/
inductive RawEvent (k : Kind) where
  /-- A new listing begins. -/
  | listing
  /-- An object of the listing. -/
  | listed (object : Object k)
  /-- The listing is complete. -/
  | listingDone
  | applied (object : Object k)
  | removed (object : Object k)

/-- Why a watch breaks off. -/
inductive Error where
  | noResourceVersion
  deriving DecidableEq, Repr

def Error.message : Error → String
  | noResourceVersion =>
    "no metadata.resourceVersion in watch result (does resource support watch?)"

/-- The objects last seen, and while a listing runs those that were listed. -/
structure Classifier (k : Kind) where
  known : Std.ExtTreeMap ObjectRef (Object k)
  listed : Option (List ObjectRef)

namespace Classifier

variable {k : Kind}

def empty : Classifier k := ⟨∅, none⟩

def change (s : Classifier k) (o : Object k) : ObjectEvent (Object k) :=
  match s.known[o.ref]? with
  | some old => .updated old o
  | none => .created o

def store (s : Classifier k) (o : Object k) : Classifier k :=
  { s with known := s.known.insert o.ref o }

/-- The known objects that a complete listing has left out. -/
def gone (s : Classifier k) : List (ObjectRef × Object k) :=
  s.known.toList.filter fun e => !(s.listed.getD []).contains e.1

/-- The changes that a raw event stands for, and what is known after it. -/
def step (s : Classifier k) : RawEvent k → List (ObjectEvent (Object k)) × Classifier k
  | .listing => ([], { s with listed := some [] })
  | .listed o => ([s.change o], { s.store o with listed := s.listed.map (o.ref :: ·) })
  | .listingDone =>
    (s.gone.map fun e => .deleted e.2,
      ⟨s.gone.foldl (fun known e => known.erase e.1) s.known, none⟩)
  | .applied o => ([s.change o], s.store o)
  | .removed o => ([.deleted o], { s with known := s.known.erase o.ref })

def run (s : Classifier k) : List (RawEvent k) → List (List (ObjectEvent (Object k)))
  | [] => []
  | e :: rest =>
    let (changes, s) := s.step e
    changes :: s.run rest

/-- The changes of a stream of raw events. Errors stay in their place. -/
def stream (s : Classifier k) :
    List (Except Error (RawEvent k)) → List (Except Error (ObjectEvent (Object k)))
  | [] => []
  | .error e :: rest => .error e :: s.stream rest
  | .ok e :: rest =>
    let (changes, s) := s.step e
    changes.map .ok ++ s.stream rest

end Classifier
end Watch
end CertKeeper
