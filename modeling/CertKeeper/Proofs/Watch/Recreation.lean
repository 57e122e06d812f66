import CertKeeper.Proofs.Watch.ChangeLog
import CertKeeper.Watch.Filter

/-!
# Objects that are created again

A watch knows an object by its namespace and its name, and by nothing else. So an object that is
created again is new to the watch if the watch has been told that the old one is gone, by its
deletion or by a complete listing without it. If the watch has missed this, the new object is an
update of the old one, and a filter of annotations compares the two.
-/

namespace CertKeeper.Watch

variable {k : Kind}

/-- Whether raw events tell no state of the object `ref`. -/
def Silent (ref : ObjectRef) (events : List (RawEvent k)) : Prop :=
  ∀ e ∈ events, ∀ o, e.shown? = some o → o.ref ≠ ref

theorem Silent.nil (ref : ObjectRef) : Silent ref ([] : List (RawEvent k)) := by
  intro e he
  cases he

/-- Whether the last that was told of the object `ref` is that it is gone. -/
inductive ToldGone (ref : ObjectRef) : List (RawEvent k) → Prop where
  | removed {before since : List (RawEvent k)} {o : Object k} (ho : o.ref = ref)
      (hsince : Silent ref since) : ToldGone ref (before ++ .removed o :: since)
  | unlisted {before during since : List (RawEvent k)} (hduring : Silent ref during)
      (hsince : Silent ref since) :
      ToldGone ref (before ++ .listing :: (during ++ .listingDone :: since))

namespace Classifier

variable {s : Classifier k} {e : RawEvent k} {events : List (RawEvent k)} {o : Object k}
  {ref : ObjectRef}

theorem getElem?_known_step_of_silent (he : ∀ o, e.shown? = some o → o.ref ≠ ref)
    (hs : s.known[ref]? = none) : (s.step e).2.known[ref]? = none := by
  cases e with
  | listing => exact hs
  | listed o | applied o =>
    simp only [step, store, Std.ExtTreeMap.getElem?_insert, Std.LawfulEqCmp.compare_eq_iff_eq]
    rw [if_neg (he o rfl), hs]
  | listingDone =>
    rw [getElem?_known_listingDone, hs]
    exact ite_self none
  | removed o =>
    simp only [step, Std.ExtTreeMap.getElem?_erase, hs]
    exact ite_self none

theorem getElem?_known_after_of_silent (hevents : Silent ref events) (hs : s.known[ref]? = none) :
    (s.after events).known[ref]? = none := by
  induction events generalizing s with
  | nil => exact hs
  | cons e events ih =>
    refine ih (fun e' he' => hevents e' (List.mem_cons_of_mem _ he')) ?_
    exact getElem?_known_step_of_silent (hevents e List.mem_cons_self) hs

theorem notMem_listed_step_of_silent (he : ∀ o, e.shown? = some o → o.ref ≠ ref)
    (hs : ref ∉ s.listed.getD []) : ref ∉ (s.step e).2.listed.getD [] := by
  cases e with
  | listing | listingDone => simp [step]
  | listed o =>
    cases hlisted : s.listed with
    | none => simp [step, hlisted]
    | some refs =>
      have hne : ref ≠ o.ref := (he o rfl).symm
      simpa [step, hlisted, hne] using hs
  | applied o | removed o => exact hs

theorem notMem_listed_after_of_silent (hevents : Silent ref events)
    (hs : ref ∉ s.listed.getD []) : ref ∉ (s.after events).listed.getD [] := by
  induction events generalizing s with
  | nil => exact hs
  | cons e events ih =>
    refine ih (fun e' he' => hevents e' (List.mem_cons_of_mem _ he')) ?_
    exact notMem_listed_step_of_silent (hevents e List.mem_cons_self) hs

theorem getElem?_known_of_toldGone (h : ToldGone ref events) :
    (s.after events).known[ref]? = none := by
  cases h with
  | removed ho hsince =>
    rw [after_append, after_cons]
    refine getElem?_known_after_of_silent hsince ?_
    simp [step, ho]
  | unlisted hduring hsince =>
    rw [after_append, after_cons, after_append, after_cons]
    refine getElem?_known_after_of_silent hsince ?_
    rw [getElem?_known_listingDone, if_neg]
    exact notMem_listed_after_of_silent hduring (by simp [step])

open EventFilter in
/-- An object that is told under a name that is known is an update of what is known, whatever its uid,
and a filter of annotations passes it on if one of them has another value. If the watch has last been
told that what had this name is gone, the object is new, and is passed on if it is annotated. -/
theorem recreated_object_classified (events : List (RawEvent k)) (o : Object k) (keys : List String)
    (he : e.shown? = some o) :
    (∀ old, (empty.after events).known[o.ref]? = some old →
      ((empty.after events).step e).1 = [.updated old o] ∧
        ((annotatedTarget keys).accepts (.updated old o) = true ↔
          ∃ key ∈ keys, old.annotations[key]? ≠ o.annotations[key]?)) ∧
    (ToldGone o.ref events →
      ((empty.after events).step e).1 = [.created o] ∧
        ((annotatedTarget keys).accepts (.created o) = true ↔
          ∃ key ∈ keys, key ∈ o.annotations)) := by
  rw [step_of_shown he]
  constructor
  · intro old hold
    have hchange : (empty.after events).change o = .updated old o := by
      rw [change, hold]
    exact ⟨by rw [hchange], by simp [accepts, annotatedTarget]⟩
  · intro hgone
    have hchange : (empty.after events).change o = .created o := by
      rw [change, getElem?_known_of_toldGone hgone]
    exact ⟨by rw [hchange], by simp [accepts, annotatedTarget]⟩

namespace CreatedAgain

def version (uid : String) : ConfigMap where
  metadata := { Metadata.empty with
    name := some "cm"
    ns := some "ns"
    uid := some uid
    annotations := some ((∅ : Annotations).insert Key.injectCaFromSecret "ns/ca") }
  content := ⟨none, none, ∅⟩

def accepts (e : ObjectEvent ConfigMap) : Bool :=
  (EventFilter.annotatedTarget [Key.injectCaFromSecret]).accepts e

end CreatedAgain

open CreatedAgain in
/-- The listing leaves out the object that was known. -/
theorem recreated_object_classified_after_listing :
    let events := [.applied (version "1"), .listing, .listingDone]
    ((empty.after events).step (.applied (version "2"))).1 = [.created (version "2")] ∧
      accepts (.created (version "2")) = true := by
  intro events
  have hgone : ToldGone (version "2").ref
      ([.applied (version "1")] ++ .listing :: ([] ++ .listingDone :: [])) :=
    .unlisted (Silent.nil _) (Silent.nil _)
  obtain ⟨hcreated, haccepts⟩ := (recreated_object_classified events (version "2")
    [Key.injectCaFromSecret] (e := .applied (version "2")) rfl).2 hgone
  have hannotated : Key.injectCaFromSecret ∈ (version "2").annotations :=
    Std.ExtTreeMap.mem_insert_self
  exact ⟨hcreated, haccepts.mpr ⟨_, List.mem_cons_self, hannotated⟩⟩

open CreatedAgain in
/-- An object with another uid is listed under the name of the one that was known. It is not new, and
is not passed on although it is annotated. -/
theorem recreated_in_gap_dropped :
    (version "1").metadata.uid ≠ (version "2").metadata.uid ∧
      (empty.run [.applied (version "1"), .listing, .listed (version "2"), .listingDone]).map
        (·.map accepts) = [[true], [], [false], []] := by
  refine ⟨by decide, ?_⟩
  decide +kernel

end Classifier
end CertKeeper.Watch
