import CertKeeper.Watch.Event
import Mathlib.Data.List.Induction

/-!
# The changes of a watch are a log

Whoever replays the changes that a watch is classified into has, after every raw event, the objects
that the classifier knows. Each change says of its object what such a reader knows of it. Errors of
the watch change nothing of this.
-/

namespace CertKeeper.Watch

variable {k : Kind}

/-- The objects that are taken to exist. -/
abbrev Known (k : Kind) := Std.ExtTreeMap ObjectRef (Object k)

theorem Known.getElem?_insert_of_ne (known : Known k) {o : Object k} {ref : ObjectRef}
    (h : ref ≠ o.ref) : (known.insert o.ref o)[ref]? = known[ref]? := by
  rw [Std.ExtTreeMap.getElem?_insert, if_neg (by simpa using h.symm)]

/-- The object whose state a raw event tells, if it tells one. -/
def RawEvent.shown? : RawEvent k → Option (Object k)
  | applied o | listed o => some o
  | listing | listingDone | removed _ => none

namespace ObjectEvent

def replay (known : Known k) : ObjectEvent (Object k) → Known k
  | created o | updated _ o => known.insert o.ref o
  | deleted o => known.erase o.ref

/-- Whether a change starts from what is known of its object. A deletion may be told of an object
that is not known. -/
def Fits (known : Known k) : ObjectEvent (Object k) → Prop
  | created o => known[o.ref]? = none
  | updated old new => known[new.ref]? = some old
  | deleted _ => True

end ObjectEvent

def replay (known : Known k) (changes : List (ObjectEvent (Object k))) : Known k :=
  changes.foldl ObjectEvent.replay known

/-- Whether changes lead from some objects to others, each fitting at its place. -/
structure Leads (known : Known k) (changes : List (ObjectEvent (Object k))) (known' : Known k) :
    Prop where
  replay : replay known changes = known'
  fits : ∀ before e rest, changes = before ++ e :: rest → e.Fits (Watch.replay known before)

namespace Leads

variable {known known' known'' : Known k} {changes changes' : List (ObjectEvent (Object k))}

theorem nil (known : Known k) : Leads known [] known where
  replay := rfl
  fits before e rest h := by simp at h

theorem cons {e : ObjectEvent (Object k)} (he : e.Fits known)
    (h : Leads (e.replay known) changes known') : Leads known (e :: changes) known' where
  replay := h.replay
  fits before e' rest hsplit := by
    cases before with
    | nil =>
      cases hsplit
      exact he
    | cons first before =>
      cases hsplit
      exact h.fits before e' rest rfl

theorem append (h : Leads known changes known') (h' : Leads known' changes' known'') :
    Leads known (changes ++ changes') known'' := by
  induction changes generalizing known with
  | nil =>
    cases h.replay
    exact h'
  | cons e changes ih =>
    have hrest : Leads (e.replay known) changes known' := {
      replay := h.replay
      fits := fun before e' rest hsplit => h.fits (e :: before) e' rest (by rw [hsplit]; rfl) }
    exact cons (h.fits [] e changes rfl) (ih hrest)

theorem of_deletions {objects : List (Object k)} :
    Leads known (objects.map .deleted) (Watch.replay known (objects.map .deleted)) where
  replay := rfl
  fits before e rest hsplit := by
    have he : e ∈ objects.map ObjectEvent.deleted := by
      rw [hsplit]
      exact List.mem_append_right _ List.mem_cons_self
    obtain ⟨o, -, rfl⟩ := List.mem_map.mp he
    trivial

end Leads

namespace Classifier

def after (s : Classifier k) (events : List (RawEvent k)) : Classifier k :=
  events.foldl (fun s e => (s.step e).2) s

theorem after_cons (s : Classifier k) (e : RawEvent k) (events : List (RawEvent k)) :
    s.after (e :: events) = (s.step e).2.after events := rfl

theorem after_append (s : Classifier k) (events events' : List (RawEvent k)) :
    s.after (events ++ events') = (s.after events).after events' :=
  List.foldl_append

theorem take_run (s : Classifier k) (events : List (RawEvent k)) (n : Nat) :
    (s.run events).take n = s.run (events.take n) := by
  induction events generalizing s n with
  | nil => simp [run]
  | cons e events ih =>
    cases n with
    | zero => rfl
    | succ n => exact congrArg (_ :: ·) (ih _ n)

/-- Whether every object stands under its own name. -/
def Named (s : Classifier k) : Prop :=
  ∀ (ref : ObjectRef) (o : Object k), s.known[ref]? = some o → o.ref = ref

theorem Named.empty : (empty : Classifier k).Named := by
  intro ref o h
  simp [Classifier.empty] at h

theorem Named.store {s : Classifier k} (hs : s.Named) (o : Object k) : (s.store o).Named := by
  intro ref o' h
  rw [Classifier.store, Std.ExtTreeMap.getElem?_insert] at h
  split at h
  · rename_i href
    cases h
    exact Std.LawfulEqCmp.eq_of_compare href
  · exact hs ref o' h

theorem mem_gone {s : Classifier k} {ref : ObjectRef} {o : Object k} :
    (ref, o) ∈ s.gone ↔ s.known[ref]? = some o ∧ ref ∉ s.listed.getD [] := by
  simp [gone, Std.ExtTreeMap.mem_toList_iff_getElem?_eq_some]

theorem foldl_erase_eq_replay (known : Known k) (gone : List (ObjectRef × Object k))
    (hgone : ∀ e ∈ gone, e.2.ref = e.1) :
    gone.foldl (fun known e => known.erase e.1) known
      = replay known (gone.map fun e => .deleted e.2) := by
  induction gone generalizing known with
  | nil => rfl
  | cons e gone ih =>
    have he := hgone e List.mem_cons_self
    have hrest := ih (known.erase e.1) fun e' he' => hgone e' (List.mem_cons_of_mem _ he')
    rw [List.foldl_cons, hrest, ← he]
    rfl

theorem getElem?_foldl_erase (known : Known k) (gone : List (ObjectRef × Object k))
    (ref : ObjectRef) :
    (gone.foldl (fun known e => known.erase e.1) known)[ref]?
      = if ref ∈ gone.map Prod.fst then none else known[ref]? := by
  induction gone generalizing known with
  | nil => rfl
  | cons e gone ih =>
    rw [List.foldl_cons, ih, Std.ExtTreeMap.getElem?_erase]
    simp only [List.map_cons, List.mem_cons, Std.LawfulEqCmp.compare_eq_iff_eq]
    by_cases he : e.1 = ref
    · simp [he]
    · have hne : ¬ ref = e.1 := fun h => he h.symm
      simp only [hne, he, false_or, if_false]

/-- A complete listing leaves behind what was listed. -/
theorem getElem?_known_listingDone (s : Classifier k) (ref : ObjectRef) :
    (s.step .listingDone).2.known[ref]?
      = if ref ∈ s.listed.getD [] then s.known[ref]? else none := by
  have hgone : ref ∈ s.gone.map Prod.fst ↔ s.known[ref]?.isSome ∧ ref ∉ s.listed.getD [] := by
    simp only [List.mem_map, Prod.exists, mem_gone, Option.isSome_iff_exists]
    constructor
    · rintro ⟨ref, o, ⟨ho, hlisted⟩, rfl⟩
      exact ⟨⟨o, ho⟩, hlisted⟩
    · rintro ⟨⟨o, ho⟩, hlisted⟩
      exact ⟨ref, o, ⟨ho, hlisted⟩, rfl⟩
  simp only [step]
  rw [getElem?_foldl_erase]
  by_cases hlisted : ref ∈ s.listed.getD []
  · rw [if_neg (fun h => (hgone.mp h).2 hlisted), if_pos hlisted]
  · rw [if_neg hlisted]
    cases hknown : s.known[ref]? with
    | none => exact ite_self none
    | some o => exact if_pos (hgone.mpr ⟨by rw [hknown]; rfl, hlisted⟩)

theorem Named.map_ref_gone {s : Classifier k} (hs : s.Named) :
    (s.gone.map Prod.snd).map Object.ref = s.gone.map Prod.fst := by
  rw [List.map_map]
  exact List.map_congr_left fun e he => hs e.1 e.2 (mem_gone.mp he).1

theorem Named.step {s : Classifier k} (hs : s.Named) (e : RawEvent k) : (s.step e).2.Named := by
  cases e with
  | listing => exact hs
  | listed o => exact hs.store o
  | listingDone =>
    intro ref o h
    rw [getElem?_known_listingDone] at h
    split at h
    · exact hs ref o h
    · cases h
  | applied o => exact hs.store o
  | removed o =>
    intro ref o' h
    simp only [Classifier.step] at h
    rw [Std.ExtTreeMap.getElem?_erase] at h
    split at h
    · cases h
    · exact hs ref o' h

theorem Named.after {s : Classifier k} (hs : s.Named) (events : List (RawEvent k)) :
    (s.after events).Named := by
  induction events generalizing s with
  | nil => exact hs
  | cons e events ih => exact ih (hs.step e)

theorem leads_change (s : Classifier k) (o : Object k) :
    Leads s.known [s.change o] (s.store o).known := by
  have hchange : (s.change o).Fits s.known ∧ (s.change o).replay s.known = (s.store o).known := by
    unfold change
    split
    · rename_i old hold
      exact ⟨hold, rfl⟩
    · rename_i hnone
      exact ⟨hnone, rfl⟩
  exact .cons hchange.1 (hchange.2 ▸ .nil _)

theorem map_deleted_gone (s : Classifier k) :
    s.gone.map (fun e => ObjectEvent.deleted e.2) = (s.gone.map Prod.snd).map .deleted := by
  rw [List.map_map]
  rfl

theorem Named.leads_step {s : Classifier k} (hs : s.Named) (e : RawEvent k) :
    Leads s.known (s.step e).1 (s.step e).2.known := by
  cases e with
  | listing => exact .nil _
  | listed o => exact s.leads_change o
  | listingDone =>
    have hgone : ∀ e ∈ s.gone, e.2.ref = e.1 := fun e he => hs e.1 e.2 (mem_gone.mp he).1
    simp only [Classifier.step]
    rw [foldl_erase_eq_replay s.known s.gone hgone, map_deleted_gone]
    exact .of_deletions
  | applied o => exact s.leads_change o
  | removed o => exact .cons trivial (.nil _)

theorem Named.leads_run {s : Classifier k} (hs : s.Named) (events : List (RawEvent k)) :
    Leads s.known (s.run events).flatten (s.after events).known := by
  induction events generalizing s with
  | nil => exact .nil _
  | cons e events ih => exact (hs.leads_step e).append (ih (hs.step e))

/-- What the changes of one raw event make of the known objects: either one object arrives, or some
depart. -/
inductive Moves (known : Known k) : List (ObjectEvent (Object k)) → Known k → Prop where
  | arrives {e : ObjectEvent (Object k)} {o : Object k}
      (he : e = .created o ∨ ∃ old, e = .updated old o) : Moves known [e] (known.insert o.ref o)
  | departs (gone : List (Object k)) {known' : Known k}
      (h : ∀ ref, known'[ref]? = if ref ∈ gone.map Object.ref then none else known[ref]?) :
      Moves known (gone.map .deleted) known'

theorem object_change (s : Classifier k) (o : Object k) : (s.change o).object = o := by
  unfold change
  split <;> rfl

theorem moves_change (s : Classifier k) (o : Object k) :
    Moves s.known [s.change o] (s.store o).known := by
  refine .arrives ?_
  unfold change
  split
  · exact .inr ⟨_, rfl⟩
  · exact .inl rfl

theorem Named.moves_step {s : Classifier k} (hs : s.Named) (e : RawEvent k) :
    Moves s.known (s.step e).1 (s.step e).2.known := by
  cases e with
  | listing => exact .departs [] fun ref => rfl
  | listed o | applied o => exact s.moves_change o
  | listingDone =>
    simp only [Classifier.step]
    rw [map_deleted_gone]
    refine .departs _ fun ref => ?_
    rw [getElem?_foldl_erase, hs.map_ref_gone]
  | removed o =>
    refine .departs [o] fun ref => ?_
    simp only [Classifier.step, Std.ExtTreeMap.getElem?_erase, Std.LawfulEqCmp.compare_eq_iff_eq,
      List.map_cons, List.map_nil, List.mem_singleton, eq_comm (a := ref)]

theorem Moves.getElem?_of_ne {known known' : Known k} {changes : List (ObjectEvent (Object k))}
    (h : Moves known changes known') {ref : ObjectRef} (href : ∀ e ∈ changes, e.object.ref ≠ ref) :
    known'[ref]? = known[ref]? := by
  cases h with
  | @arrives e o he =>
    have hne : o.ref ≠ ref := by
      obtain rfl | ⟨old, rfl⟩ := he <;> exact href _ List.mem_cons_self
    exact Known.getElem?_insert_of_ne known hne.symm
  | departs gone hknown =>
    rw [hknown, if_neg]
    intro hmem
    obtain ⟨o, ho, hor⟩ := List.mem_map.mp hmem
    exact href (.deleted o) (List.mem_map_of_mem ho) hor

theorem step_of_shown {s : Classifier k} {e : RawEvent k} {o : Object k} (he : e.shown? = some o) :
    (s.step e).1 = [s.change o] := by
  cases e with
  | listed o' | applied o' =>
    cases he
    rfl
  | listing | listingDone | removed o' => cases he

theorem known_or_shown_of_step {s : Classifier k} {e : RawEvent k} {ref : ObjectRef} {o : Object k}
    (h : (s.step e).2.known[ref]? = some o) : s.known[ref]? = some o ∨ e.shown? = some o := by
  cases e with
  | listing => exact .inl h
  | listed o' | applied o' =>
    simp only [step, store, Std.ExtTreeMap.getElem?_insert] at h
    split at h
    · exact .inr h
    · exact .inl h
  | listingDone =>
    rw [getElem?_known_listingDone] at h
    split at h
    · exact .inl h
    · cases h
  | removed o' =>
    simp only [step, Std.ExtTreeMap.getElem?_erase] at h
    split at h
    · cases h
    · exact .inl h

theorem exists_shown_of_known {events : List (RawEvent k)} {ref : ObjectRef} {o : Object k}
    (h : (empty.after events).known[ref]? = some o) : ∃ e ∈ events, e.shown? = some o := by
  induction events using List.reverseRecOn with
  | nil => simp [after, empty] at h
  | append_singleton events e ih =>
    rw [after_append] at h
    obtain hknown | hshown := known_or_shown_of_step h
    · obtain ⟨e', he', ho⟩ := ih hknown
      exact ⟨e', List.mem_append_left _ he', ho⟩
    · exact ⟨e, List.mem_append_right _ List.mem_cons_self, hshown⟩

theorem run_append (s : Classifier k) (events events' : List (RawEvent k)) :
    s.run (events ++ events') = s.run events ++ (s.after events).run events' := by
  induction events generalizing s with
  | nil => rfl
  | cons e events ih => exact congrArg (_ :: ·) (ih _)

def told (items : List (Except Error (RawEvent k))) : List (RawEvent k) :=
  items.filterMap Except.toOption

theorem stream_append (s : Classifier k) (items items' : List (Except Error (RawEvent k))) :
    s.stream (items ++ items') = s.stream items ++ (s.after (told items)).stream items' := by
  induction items generalizing s with
  | nil => rfl
  | cons item items ih =>
    cases item with
    | error e => exact congrArg (_ :: ·) (ih s)
    | ok e =>
      simp only [List.cons_append, stream, ih, List.append_assoc]
      rfl

theorem stream_map_ok (s : Classifier k) (events : List (RawEvent k)) :
    s.stream (events.map .ok) = (s.run events).flatten.map .ok := by
  induction events generalizing s with
  | nil => rfl
  | cons e events ih =>
    simp only [List.map_cons, stream, run, List.flatten_cons, List.map_append, ih]

/-- The changes of a run lead from nothing to what is known, after each raw event. Errors of the
watch stay in their place and leave all other changes as if they were not there. -/
theorem run_leads_to_known (events : List (RawEvent k))
    (items items' : List (Except Error (RawEvent k))) (e : Error) :
    (∀ n, Leads ∅ ((Classifier.empty.run events).take n).flatten
      (Classifier.empty.after (events.take n)).known) ∧
    Classifier.empty.stream (events.map .ok) = (Classifier.empty.run events).flatten.map .ok ∧
    ∃ rest, Classifier.empty.stream (items ++ items') = Classifier.empty.stream items ++ rest ∧
      Classifier.empty.stream (items ++ .error e :: items')
        = Classifier.empty.stream items ++ .error e :: rest := by
  refine ⟨fun n => ?_, stream_map_ok _ _, _, stream_append _ _ _, stream_append _ _ _⟩
  rw [take_run]
  exact Named.empty.leads_run (events.take n)

end Classifier
end CertKeeper.Watch
