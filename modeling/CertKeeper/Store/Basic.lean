import CertKeeper.Object.Basic
import CertKeeper.Object.Family

/-!
# The store of objects

The objects of a cluster by kind, namespace and name. An object is replaced only by a version that
was made from the stored one.
-/

namespace CertKeeper

instance : Ord Reference := ⟨compareLex (compareOn Reference.ns) (compareOn Reference.name)⟩

instance : Std.TransOrd Reference :=
  inferInstanceAs (Std.TransCmp (compareLex (compareOn Reference.ns) (compareOn Reference.name)))

instance : Std.LawfulEqOrd Reference where
  eq_of_compare {a b} h := by
    have h : (compare a.ns b.ns).then (compare a.name b.name) = .eq := h
    obtain ⟨hns, hname⟩ := Ordering.then_eq_eq.mp h
    cases a
    cases b
    simp_all

/-- The objects of one kind, in the order of their namespaces and names, each under its own. -/
structure Table (k : Kind) where
  objects : Std.ExtTreeMap Reference (Object k)
  key_eq : ∀ (r : Reference) (o : Object k), objects[r]? = some o → o.key = r

namespace Table

variable {k : Kind}

def empty : Table k := ⟨∅, by simp⟩

def find? (t : Table k) (r : Reference) : Option (Object k) := t.objects[r]?

def insert (t : Table k) (o : Object k) : Table k where
  objects := t.objects.insert o.key o
  key_eq r o' h := by
    rw [Std.ExtTreeMap.getElem?_insert] at h
    split at h
    · rename_i hr
      cases h
      exact Std.LawfulEqCmp.eq_of_compare hr
    · exact t.key_eq r o' h

def erase (t : Table k) (r : Reference) : Table k where
  objects := t.objects.erase r
  key_eq r' o h := by
    rw [Std.ExtTreeMap.getElem?_erase] at h
    split at h
    · cases h
    · exact t.key_eq r' o h

@[simp] theorem find?_insert (t : Table k) (o : Object k) : (t.insert o).find? o.key = some o := by
  simp [find?, insert]

theorem find?_insert_of_ne (t : Table k) (o : Object k) {r : Reference} (h : r ≠ o.key) :
    (t.insert o).find? r = t.find? r := by
  have hc : ¬ compare o.key r = .eq := fun hc => h (Std.LawfulEqCmp.eq_of_compare hc).symm
  simp [find?, insert, Std.ExtTreeMap.getElem?_insert, hc]

end Table

structure Store where
  tables : Family Table

namespace Store

def empty : Store := ⟨.ofFn fun _ => .empty⟩

def table (s : Store) (k : Kind) : Table k := s.tables.get k

def setTable (s : Store) (k : Kind) (t : Table k) : Store := ⟨s.tables.set k t⟩

@[simp] theorem table_setTable (s : Store) (k : Kind) (t : Table k) :
    (s.setTable k t).table k = t := Family.get_set ..

theorem table_setTable_of_ne {k k' : Kind} (h : k' ≠ k) (s : Store) (t : Table k) :
    (s.setTable k t).table k' = s.table k' := Family.get_set_of_ne h ..

def find? (s : Store) (k : Kind) (r : Reference) : Option (Object k) := (s.table k).find? r

def insert {k : Kind} (s : Store) (o : Object k) : Store := s.setTable k ((s.table k).insert o)

def erase (s : Store) (k : Kind) (r : Reference) : Store := s.setTable k ((s.table k).erase r)

def list (s : Store) (k : Kind) (ns : Option String) : List (Object k) :=
  ((s.table k).objects.toList.filter fun e => ns.all (· = e.1.ns)).map (·.2)

def toList (s : Store) : List AnyObject :=
  Kind.all.flatMap fun k => (s.list k none).map fun o => ⟨k, o⟩

/-- The number that a version stands for. Other texts than numbers below `2 ^ 64` stand for 0. -/
def versionNumber (version : Option String) : UInt64 :=
  match version with
  | none => 0
  | some v =>
    let digits := match v.toList with
      | '+' :: rest => rest
      | cs => cs
    let n := digits.foldl (fun acc c => acc * 10 + (c.toNat - 48)) 0
    if !digits.isEmpty && digits.all Char.isDigit && n < UInt64.size then UInt64.ofNat n else 0

def nextVersion (version : Option String) : String := toString (versionNumber version + 1).toNat

/-- Puts an object in its place, in the first version unless it names one. -/
def seed {k : Kind} (s : Store) (o : Object k) : Store :=
  s.insert (o.withResourceVersion (some (o.resourceVersion.getD "1")))

/-- Replaces an object by one that carries its version. -/
def replace {k : Kind} (s : Store) (o : Object k) : Except ApiError Store :=
  match s.find? k o.key with
  | none => .error (.notFound o.metadata.nameOrStem)
  | some stored =>
    if stored.resourceVersion ≠ o.resourceVersion then .error .conflict
    else .ok (s.insert (o.withResourceVersion (some (nextVersion stored.resourceVersion))))

end Store
end CertKeeper
