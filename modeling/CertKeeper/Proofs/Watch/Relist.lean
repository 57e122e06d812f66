import CertKeeper.Proofs.Watch.ChangeLog

/-!
# Complete listings

A watch that was broken off lists all objects anew. When such a listing is complete, exactly the
objects that it listed are known, and exactly the others are told to be deleted, also if earlier
listings were given up half way.
-/

namespace CertKeeper.Watch

variable {k : Kind}

/-- Whether a raw event tells of a change, and not of a listing. -/
def RawEvent.isChange : RawEvent k → Bool
  | applied _ | removed _ => true
  | listing | listed _ | listingDone => false

def listingAfter (listed : Option (List (Object k))) : RawEvent k → Option (List (Object k))
  | .listing => some []
  | .listed o => listed.map (· ++ [o])
  | .listingDone => none
  | .applied _ | .removed _ => listed

/-- The objects that were listed since the last listing began, the oldest first, unless that listing
has ended or there was none. -/
def openListing (events : List (RawEvent k)) : Option (List (Object k)) :=
  events.foldl listingAfter none

/-- Whether changes are told only while no listing is open, in a run that begins with the listing
`listed`, if with any. -/
def OrderlyFrom : Option (List (Object k)) → List (RawEvent k) → Prop
  | _, [] => True
  | listed, e :: rest =>
    (e.isChange = true → listed = none) ∧ OrderlyFrom (listingAfter listed e) rest

def Orderly (events : List (RawEvent k)) : Prop := OrderlyFrom none events

def latest (listed : List (Object k)) (ref : ObjectRef) : Option (Object k) :=
  listed.reverse.find? fun o => o.ref = ref

theorem OrderlyFrom.of_append {listed : Option (List (Object k))}
    {events events' : List (RawEvent k)}
    (h : OrderlyFrom listed (events ++ events')) : OrderlyFrom listed events := by
  induction events generalizing listed with
  | nil => trivial
  | cons e events ih => exact ⟨h.1, ih h.2⟩

theorem latest_append (listed : List (Object k)) (o : Object k) (ref : ObjectRef) :
    latest (listed ++ [o]) ref = if o.ref = ref then some o else latest listed ref := by
  rw [latest, List.reverse_append]
  by_cases ho : o.ref = ref <;> simp [latest, ho]

theorem latest_eq_none {listed : List (Object k)} {ref : ObjectRef} :
    latest listed ref = none ↔ ∀ o ∈ listed, o.ref ≠ ref := by
  simp [latest]

namespace Classifier

/-- Whether the classifier has kept up with the open listing: it knows what was listed, in the
version last listed. -/
structure Follows (s : Classifier k) (listed : List (Object k)) : Prop where
  isSome : s.listed.isSome
  mem_listed : ∀ ref, ref ∈ s.listed.getD [] ↔ ∃ o ∈ listed, o.ref = ref
  known : ∀ ref ∈ s.listed.getD [], s.known[ref]? = latest listed ref

theorem follows_listing (s : Classifier k) : (s.step .listing).2.Follows [] where
  isSome := rfl
  mem_listed ref := by simp [step]
  known ref h := by simp [step] at h

theorem Follows.listed {s : Classifier k} {listed : List (Object k)} (hs : s.Follows listed)
    (o : Object k) : (s.step (.listed o)).2.Follows (listed ++ [o]) := by
  obtain ⟨refs, hrefs⟩ := Option.isSome_iff_exists.mp hs.isSome
  have hmem := hs.mem_listed
  have hknown := hs.known
  have hrefs' : (s.step (.listed o)).2.listed = some (o.ref :: refs) := by simp [step, hrefs]
  simp only [hrefs, Option.getD_some] at hmem hknown
  refine ⟨by rw [hrefs']; rfl, fun ref => ?_, fun ref href => ?_⟩
  · rw [hrefs']
    simp [hmem, or_comm, eq_comm]
  · rw [hrefs', Option.getD_some, List.mem_cons] at href
    rw [latest_append]
    simp only [step, store, Std.ExtTreeMap.getElem?_insert, Std.LawfulEqCmp.compare_eq_iff_eq]
    by_cases ho : o.ref = ref
    · rw [if_pos ho, if_pos ho]
    · rw [if_neg ho, if_neg ho]
      exact hknown ref (href.resolve_left fun h => ho h.symm)

theorem follows_step {s : Classifier k} {listed : Option (List (Object k))}
    (hs : ∀ objects, listed = some objects → s.Follows objects) {e : RawEvent k}
    (horderly : e.isChange = true → listed = none) :
    ∀ objects, listingAfter listed e = some objects → (s.step e).2.Follows objects := by
  intro objects hopen
  cases e with
  | listing =>
    cases hopen
    exact follows_listing s
  | listed o =>
    obtain ⟨before, hbefore, rfl⟩ := Option.map_eq_some_iff.mp hopen
    exact (hs before hbefore).listed o
  | listingDone => cases hopen
  | applied o | removed o => cases (horderly rfl).symm.trans hopen

theorem follows_after {s : Classifier k} {listed : Option (List (Object k))}
    (hs : ∀ objects, listed = some objects → s.Follows objects) {events : List (RawEvent k)}
    (horderly : OrderlyFrom listed events) :
    ∀ objects, events.foldl listingAfter listed = some objects →
      (s.after events).Follows objects := by
  induction events generalizing s listed with
  | nil => exact hs
  | cons e events ih => exact ih (follows_step hs horderly.1) horderly.2

/-- Whether the end of a listing leaves exactly the listed objects behind, each in its last listed
version, and tells of nothing but the deletion of each other known object, once and in the version
last known. -/
structure Settles (s : Classifier k) (listed : List (Object k)) : Prop where
  known : ∀ ref, (s.step .listingDone).2.known[ref]? = latest listed ref
  deleted : ∃ gone : List (Object k), (s.step .listingDone).1 = gone.map .deleted ∧
    (gone.map Object.ref).Nodup ∧
      ∀ o, o ∈ gone ↔ s.known[o.ref]? = some o ∧ ∀ o' ∈ listed, o'.ref ≠ o.ref

theorem nodup_gone (s : Classifier k) : (s.gone.map Prod.fst).Nodup := by
  have hkeys : (s.known.toList.map Prod.fst).Nodup := by
    rw [List.Nodup, List.pairwise_map]
    simpa using s.known.distinct_keys_toList
  exact hkeys.sublist (List.filter_sublist.map _)

theorem Named.mem_gone {s : Classifier k} (hs : s.Named) {o : Object k} :
    o ∈ s.gone.map Prod.snd ↔ s.known[o.ref]? = some o ∧ o.ref ∉ s.listed.getD [] := by
  simp only [List.mem_map, Prod.exists, Classifier.mem_gone]
  constructor
  · rintro ⟨ref, o, h, rfl⟩
    cases hs ref o h.1
    exact h
  · intro h
    exact ⟨o.ref, o, h, rfl⟩

theorem Follows.getElem?_known_listingDone {s : Classifier k} {listed : List (Object k)}
    (hs : s.Follows listed) (ref : ObjectRef) :
    (s.step .listingDone).2.known[ref]? = latest listed ref := by
  rw [Classifier.getElem?_known_listingDone]
  by_cases href : ref ∈ s.listed.getD []
  · rw [if_pos href, hs.known ref href]
  · rw [if_neg href, eq_comm, latest_eq_none]
    exact fun o ho hor => href ((hs.mem_listed ref).mpr ⟨o, ho, hor⟩)

theorem Follows.after_listed {s : Classifier k} {listed : List (Object k)} (hs : s.Follows listed)
    (objects : List (Object k)) :
    (s.after (objects.map .listed)).Follows (listed ++ objects) := by
  induction objects generalizing s listed with
  | nil => rwa [List.append_nil]
  | cons o objects ih =>
    rw [List.append_cons]
    exact ih (hs.listed o)

theorem getElem?_known_after_relist (s : Classifier k) (objects : List (Object k))
    (ref : ObjectRef) :
    (s.after (.listing :: (objects.map .listed ++ [.listingDone]))).known[ref]?
      = latest objects ref := by
  rw [after_cons, after_append]
  exact ((follows_listing s).after_listed objects).getElem?_known_listingDone ref

theorem Follows.settles {s : Classifier k} {listed : List (Object k)} (hnamed : s.Named)
    (hs : s.Follows listed) : s.Settles listed where
  known := hs.getElem?_known_listingDone
  deleted := by
    refine ⟨s.gone.map Prod.snd, s.map_deleted_gone, hnamed.map_ref_gone ▸ s.nodup_gone,
      fun o => ?_⟩
    rw [hnamed.mem_gone, hs.mem_listed]
    simp

/-- A listing that is complete settles what is known, from whatever state the run has begun. -/
theorem settles_of_listingDone {before run during rest : List (RawEvent k)}
    {listed : List (Object k)} (horderly : Orderly run)
    (hrun : run = during ++ .listingDone :: rest) (hopen : openListing during = some listed) :
    ((Classifier.empty.after before).after during).Settles listed := by
  subst hrun
  have hnamed := (Named.empty.after before).after during
  -- what was listed before the run does not count, because the run begins with no listing open
  have hstart : ∀ objects, none = some objects → (Classifier.empty.after before).Follows objects :=
    fun _ h => by cases h
  exact (follows_after hstart horderly.of_append listed hopen).settles hnamed

namespace GivenUp

def version (name number : String) : ConfigMap :=
  ⟨{ Metadata.empty with name := some name, ns := some "ns", resourceVersion := some number },
    ⟨none, none, ∅⟩⟩

def during : List (RawEvent .configMap) :=
  [.removed (version "c" "1"), .listing, .listed (version "b" "2"), .listing,
    .listed (version "a" "2"), .listed (version "a" "3")]

end GivenUp

open GivenUp in
/-- The listing that was given up does not keep `b`. -/
theorem settles_of_listingDone_given_up :
    let s := (Classifier.empty.after [.applied (version "a" "1"), .applied (version "b" "1")]).after
      during
    s.Settles [version "a" "2", version "a" "3"] ∧
      (s.step .listingDone).2.known[(version "a" "1").ref]? = some (version "a" "3") ∧
        (s.step .listingDone).2.known[(version "b" "1").ref]? = none := by
  intro s
  have horderly : Orderly (during ++ [.listingDone]) := by
    simp [Orderly, OrderlyFrom, during, listingAfter, RawEvent.isChange]
  have hsettles : s.Settles [version "a" "2", version "a" "3"] :=
    settles_of_listingDone horderly rfl rfl
  exact ⟨hsettles, hsettles.known _, hsettles.known _⟩

end Classifier
end CertKeeper.Watch
