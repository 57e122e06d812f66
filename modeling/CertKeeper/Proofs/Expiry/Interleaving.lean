import CertKeeper.Proofs.Expiry.GaugeMirror
import CertKeeper.Proofs.Watch.Relist
import CertKeeper.Proofs.Watch.Resolver

/-!
# Checks beside the watch

The certificate gauges have two writers. The watch on the secrets hands its changes on one after
another, and checks read a secret and observe it later. Whatever happens in between, what is shown of
a secret that is gone is taken away when its deletion is handled. What a check observes after that
stays, as no change of the secret is left.
-/

namespace CertKeeper.Expiry

open Watch

/-- The secret that a check observes, if it is there and of the type that is checked. -/
def read? (c : Cluster) (r : Reference) : Option Secret :=
  match c.get .secret r with
  | .ok (some s) => if s.content.isTls then some s else none
  | .ok none | .error _ => none

theorem metrics_check (c : Cluster) (m : Metrics) (r : Reference) (now : Instant) :
    (check c m r now).metrics = (read? c r).elim m (observe m) := by
  unfold check read?
  cases c.get .secret r with
  | error e => rfl
  | ok found =>
    cases found with
    | none => rfl
    | some s =>
      cases htls : s.content.isTls with
      | false => simp [htls]
      | true =>
        simp only [htls, if_true, Option.elim_some, reportOn]
        cases stateAt s now <;> rfl

def Knows (w : Classifier .secret) (l : GaugeLabels) : Prop :=
  ∃ s : Secret, w.known[s.ref]? = some s ∧ labels s = l

namespace Interleaved

structure State where
  store : Store
  /-- Whether the watch is told of what happens in the store. -/
  watching : Bool
  /-- What the watch has been told and has not handled yet. -/
  pending : List (RawEvent .secret)
  watch : Classifier .secret
  metrics : Metrics
  /-- The secrets that checks have read and not observed yet. -/
  inFlight : List Secret

inductive Action where
  /-- Somebody writes a secret. -/
  | put (s : Secret) (hns : s.metadata.ns.isSome)
  | delete (r : Reference)
  /-- The watch breaks off. Only so many events that were not handled have arrived. -/
  | breakOff (arrived : Nat)
  /-- The watch lists all secrets and goes on from there. -/
  | relist
  /-- The next event is classified and its changes are tracked. -/
  | handle
  /-- A check reads its secret. -/
  | read (r : Reference)
  /-- A check observes what it has read. -/
  | observe (i : Nat)

namespace State

/-- No secrets, and the watch has not begun. -/
def start : State := ⟨.empty, false, [], .empty, .empty, []⟩

/-- What is pending after something has happened in the store. -/
def tell (σ : State) (e : RawEvent .secret) : List (RawEvent .secret) :=
  if σ.watching then σ.pending ++ [e] else σ.pending

def step (σ : State) : Action → State
  | .put s _ => { σ with store := σ.store.insert s, pending := σ.tell (.applied s) }
  | .delete r =>
    match σ.store.find? .secret r with
    | some s => { σ with store := σ.store.erase .secret r, pending := σ.tell (.removed s) }
    | none => σ
  | .breakOff arrived => { σ with watching := false, pending := σ.pending.take arrived }
  | .relist =>
    { σ with
      watching := true
      pending :=
        σ.pending ++ .listing :: ((σ.store.list .secret none).map .listed ++ [.listingDone]) }
  | .handle =>
    match σ.pending with
    | e :: rest =>
      { σ with
        pending := rest
        watch := (σ.watch.step e).2
        metrics := (σ.watch.step e).1.foldl track σ.metrics }
    | [] => σ
  | .read r =>
    match read? (.ofStore σ.store) r with
    | some s => { σ with inFlight := σ.inFlight ++ [s] }
    | none => σ
  | .observe i =>
    match σ.inFlight[i]? with
    | some s => { σ with inFlight := σ.inFlight.eraseIdx i, metrics := Expiry.observe σ.metrics s }
    | none => σ

/-- Without anything in between, the two steps of a check are a check. -/
theorem metrics_read_observe (σ : State) (r : Reference) (now : Instant) :
    ((σ.step (.read r)).step (.observe σ.inFlight.length)).metrics
      = (check (.ofStore σ.store) σ.metrics r now).metrics := by
  rw [metrics_check]
  cases hread : read? (.ofStore σ.store) r <;> simp [step, hread]

/-- Whether the watch is up and every event has been handled. -/
structure Settled (σ : State) : Prop where
  watching : σ.watching = true
  pending : σ.pending = []

/-- Whether an action hands on a change of a secret with these labels. -/
def Tells (σ : State) (l : GaugeLabels) : Action → Prop
  | .handle => ∃ e ∈ σ.pending.head?, ∃ change ∈ (σ.watch.step e).1, labels change.object = l
  | _ => False

end State

def run (actions : List Action) : State := actions.foldl State.step .start

/-- Whether a certificate with these labels was observed when the watch did not know the secret, and
no change of it has been handled since. -/
inductive Belated (l : GaugeLabels) : List Action → Prop where
  | observed {before : List Action} {i : Nat} {s : Secret}
      (hs : (run before).inFlight[i]? = some s) (hl : labels s = l)
      (hcertified : certificates s ≠ []) (hunknown : ¬ Knows (run before).watch l) :
      Belated l (before ++ [.observe i])
  | since {before : List Action} {a : Action} (h : Belated l before)
      (ha : ¬ (run before).Tells l a) : Belated l (before ++ [a])

variable {σ : State} {l : GaugeLabels} {a : Action} {actions : List Action}

theorem run_append (actions : List Action) (a : Action) :
    run (actions ++ [a]) = (run actions).step a := by
  simp [run]

/-- Whether the watch, once it has handled what is pending, knows exactly what is stored. -/
def KeepsUp (σ : State) : Prop :=
  σ.watching = true → ∀ (ref : ObjectRef) (s : Secret),
    (σ.watch.after σ.pending).known[ref]? = some s ↔
      σ.store.find? .secret ref.key = some s ∧ s.ref = ref

def Namespaced (store : Store) : Prop :=
  ∀ (r : Reference) (s : Secret), store.find? .secret r = some s → s.metadata.ns.isSome

theorem ref_eq_of_key_eq {s s' : Secret} (hs : s.metadata.ns.isSome) (hs' : s'.metadata.ns.isSome)
    (h : s.key = s'.key) : s.ref = s'.ref := by
  have hlabels : labels s = labels s' :=
    congrArg (fun r : Reference => (⟨r.name, r.ns⟩ : GaugeLabels)) h
  exact ref_eq_of_labels_eq hs hs' hlabels

theorem namespaced_put {store : Store} (h : Namespaced store) {s : Secret}
    (hs : s.metadata.ns.isSome) : Namespaced (store.insert s) := by
  intro r o ho
  by_cases hr : r = s.key
  · subst hr
    rw [Store.find?_insert] at ho
    cases ho
    exact hs
  · rw [Store.find?_insert_of_ne store s (by simpa using hr)] at ho
    exact h r o ho

theorem namespaced_erase {store : Store} (h : Namespaced store) (r : Reference) :
    Namespaced (store.erase .secret r) := by
  intro r' o ho
  by_cases hr : r' = r
  · rw [hr, Store.find?_erase] at ho
    cases ho
  · rw [Store.find?_erase_of_ne store hr] at ho
    exact h r' o ho

theorem Namespaced.step (h : Namespaced σ.store) (a : Action) : Namespaced (σ.step a).store := by
  cases a with
  | put s hs => exact namespaced_put h hs
  | delete r =>
    simp only [State.step]
    split
    · exact namespaced_erase h r
    · exact h
  | breakOff arrived | relist => exact h
  | handle | read r | observe i =>
    simp only [State.step]
    split <;> exact h

theorem mem_of_latest {listed : List Secret} {ref : ObjectRef} {s : Secret}
    (h : latest listed ref = some s) : s ∈ listed ∧ s.ref = ref :=
  ⟨List.mem_reverse.mp (List.mem_of_find?_eq_some h), by simpa using List.find?_some h⟩

theorem latest_list_eq_some_iff {store : Store} {ref : ObjectRef} {s : Secret} :
    latest (store.list .secret none) ref = some s ↔
      store.find? .secret ref.key = some s ∧ s.ref = ref := by
  constructor
  · intro h
    obtain ⟨hmem, rfl⟩ := mem_of_latest h
    exact ⟨(Store.mem_list_iff.mp hmem).1, rfl⟩
  · rintro ⟨hs, rfl⟩
    have hmem : s ∈ store.list .secret none := Store.mem_list_iff.mpr ⟨hs, rfl⟩
    cases hlatest : latest (store.list .secret none) s.ref with
    | none => exact absurd rfl (latest_eq_none.mp hlatest s hmem)
    | some o =>
      obtain ⟨ho, href⟩ := mem_of_latest hlatest
      have hfound := (Store.mem_list_iff.mp ho).1
      rw [← Object.key_ref, href, hs] at hfound
      exact hfound.symm

theorem keepsUp_put (h : KeepsUp σ) (hns : Namespaced σ.store) {s : Secret}
    (hs : s.metadata.ns.isSome) : KeepsUp (σ.step (.put s hs)) := by
  intro hwatching ref o
  have hwatching : σ.watching = true := hwatching
  simp only [State.step, State.tell, hwatching, if_true]
  rw [Classifier.after_append]
  by_cases href : ref = s.ref
  · subst href
    have hknown : ((σ.watch.after σ.pending).after [.applied s]).known[s.ref]? = some s :=
      Std.ExtTreeMap.getElem?_insert_self
    rw [hknown, Object.key_ref, Store.find?_insert]
    exact ⟨fun ho => ⟨ho, by cases ho; rfl⟩, And.left⟩
  · have hknown : ((σ.watch.after σ.pending).after [.applied s]).known[ref]?
        = (σ.watch.after σ.pending).known[ref]? := Known.getElem?_insert_of_ne _ href
    rw [hknown, h hwatching]
    by_cases hkey : ref.key = s.key
    · -- in one place of the store there are not two names
      rw [hkey, Store.find?_insert]
      constructor
      · rintro ⟨ho, rfl⟩
        have hkey' : o.key = s.key := Store.key_of_find? ho
        exact absurd (ref_eq_of_key_eq (hns _ o ho) hs hkey') href
      · rintro ⟨ho, rfl⟩
        cases ho
        exact absurd rfl href
    · rw [Store.find?_insert_of_ne σ.store s (by simpa using hkey)]

theorem keepsUp_delete (h : KeepsUp σ) (r : Reference) :
    KeepsUp (σ.step (.delete r)) := by
  cases hstored : σ.store.find? .secret r with
  | none => simpa only [State.step, hstored] using h
  | some s =>
    intro hwatching ref o
    simp only [State.step, hstored] at hwatching ⊢
    simp only [State.tell, hwatching, if_true]
    rw [Classifier.after_append]
    have hkey : s.key = r := Store.key_of_find? hstored
    by_cases href : s.ref = ref
    · have hknown : ((σ.watch.after σ.pending).after [.removed s]).known[ref]? = none := by
        simp [Classifier.after, Classifier.step, href]
      rw [hknown, ← href, Object.key_ref, hkey, Store.find?_erase]
      simp
    · have hknown : ((σ.watch.after σ.pending).after [.removed s]).known[ref]?
          = (σ.watch.after σ.pending).known[ref]? := by
        rw [Classifier.after_cons]
        exact Std.ExtTreeMap.getElem?_erase.trans (if_neg (by simpa using href))
      rw [hknown, h hwatching]
      by_cases hr : ref.key = r
      · rw [hr, Store.find?_erase, hstored]
        constructor
        · rintro ⟨ho, hor⟩
          cases ho
          exact absurd hor href
        · rintro ⟨ho, -⟩
          cases ho
      · rw [Store.find?_erase_of_ne σ.store hr]

theorem keepsUp_relist (σ : State) : KeepsUp (σ.step .relist) := by
  intro _ ref o
  simp only [State.step]
  rw [Classifier.after_append, Classifier.getElem?_known_after_relist, latest_list_eq_some_iff]

theorem KeepsUp.step (h : KeepsUp σ) (hns : Namespaced σ.store) (a : Action) :
    KeepsUp (σ.step a) := by
  cases a with
  | put s hs => exact keepsUp_put h hns hs
  | delete r => exact keepsUp_delete h r
  | breakOff arrived =>
    intro hwatching
    cases hwatching
  | relist => exact keepsUp_relist σ
  | handle =>
    cases hpending : σ.pending with
    | nil => simpa only [State.step, hpending] using h
    | cons e rest =>
      intro hwatching ref s
      have hafter := h (by simpa only [State.step, hpending] using hwatching) ref s
      rw [hpending, Classifier.after_cons] at hafter
      simpa only [State.step, hpending] using hafter
  | read r | observe i =>
    simp only [State.step]
    split <;> exact h

theorem names_of_untold {m : Metrics} (hm : m.Coherent) {changes : List (ObjectEvent Secret)}
    (huntold : ∀ e ∈ changes, labels e.object ≠ l) (hl : (changes.foldl track m).Names l) :
    m.Names l := by
  induction changes generalizing m with
  | nil => exact hl
  | cons e changes ih =>
    rw [List.foldl_cons, track_eq] at hl
    have hput := ih (hm.put _ (isSome_told_eq e))
      (fun e' he' => huntold e' (List.mem_cons_of_mem _ he')) hl
    have hnames := hm.names_of_put (isSome_told_eq e) hput
    rwa [if_neg (huntold e List.mem_cons_self).symm] at hnames

theorem known_of_told {m : Metrics} (hm : m.Coherent) {known known' : Known .secret}
    {changes : List (ObjectEvent Secret)} (hmoves : Classifier.Moves known changes known')
    (htold : ∃ e ∈ changes, labels e.object = l) (hl : (changes.foldl track m).Names l) :
    ∃ s : Secret, known'[s.ref]? = some s ∧ labels s = l := by
  obtain ⟨e, he, rfl⟩ := htold
  cases hmoves with
  | @arrives e' o harrives =>
    cases List.mem_singleton.mp he
    refine ⟨o, Std.ExtTreeMap.getElem?_insert_self, ?_⟩
    obtain rfl | ⟨old, rfl⟩ := harrives <;> rfl
  | departs gone hknown =>
    obtain ⟨d, hd, rfl⟩ := List.mem_map.mp he
    have hmem : (labels (ObjectEvent.deleted d).object).key ∈ gone.map fun s => (labels s).key :=
      List.mem_map.mpr ⟨d, hd, rfl⟩
    rw [(coherent_foldl_track hm _).names_iff, foldl_track_eq, Gauge.labels?,
      getElem?_follow_deleted, if_pos hmem] at hl
    cases hl

theorem knows_congr {w w' : Classifier .secret} {changes : List (ObjectEvent Secret)}
    (hmoves : Classifier.Moves w.known changes w'.known)
    (huntold : ∀ e ∈ changes, labels e.object ≠ l) : Knows w' l ↔ Knows w l :=
  exists_known_congr fun _ hs =>
    hmoves.getElem?_of_ne fun e he href => huntold e he ((labels_congr href).trans hs)

/-- What an action does to what the watch knows and to the gauges. -/
inductive Effect (σ : State) : Action → Classifier .secret → Metrics → Prop where
  | nothing {a : Action} (ha : ∀ l, ¬ σ.Tells l a) : Effect σ a σ.watch σ.metrics
  | handled {e : RawEvent .secret} (he : σ.pending.head? = some e) :
      Effect σ .handle (σ.watch.step e).2 ((σ.watch.step e).1.foldl track σ.metrics)
  | observed {i : Nat} {s : Secret} (hs : σ.inFlight[i]? = some s) :
      Effect σ (.observe i) σ.watch (Expiry.observe σ.metrics s)

theorem effect_step (σ : State) (a : Action) : Effect σ a (σ.step a).watch (σ.step a).metrics := by
  cases a with
  | put s hs | breakOff arrived | relist => exact .nothing fun _ => id
  | delete r | read r =>
    simp only [State.step]
    split <;> exact .nothing fun _ => id
  | handle =>
    cases hpending : σ.pending with
    | nil =>
      simp only [State.step, hpending]
      exact .nothing fun _ => by simp [State.Tells, hpending]
    | cons e rest =>
      simp only [State.step, hpending]
      exact .handled (by rw [hpending]; rfl)
  | observe i =>
    cases hs : σ.inFlight[i]? with
    | none =>
      simp only [State.step, hs]
      exact .nothing fun _ => id
    | some s =>
      simp only [State.step, hs]
      exact .observed hs

namespace Effect

variable {w : Classifier .secret} {m : Metrics}

theorem coherent (h : Effect σ a w m) (hσ : σ.metrics.Coherent) : m.Coherent := by
  cases h with
  | nothing ha => exact hσ
  | handled he => exact coherent_foldl_track hσ _
  | observed hs =>
    rw [observe_eq]
    exact hσ.put _ (isSome_issued?_eq _)

theorem named (h : Effect σ a w m) (hσ : σ.watch.Named) : w.Named := by
  cases h with
  | nothing ha => exact hσ
  | handled he => exact hσ.step _
  | observed hs => exact hσ

theorem knows_iff (h : Effect σ a w m) (hσ : σ.watch.Named) (ha : ¬ σ.Tells l a) :
    Knows w l ↔ Knows σ.watch l := by
  cases h with
  | nothing ha => rfl
  | handled he =>
    exact knows_congr (hσ.moves_step _) fun change hchange hl => ha ⟨_, he, change, hchange, hl⟩
  | observed hs => rfl

/-- What is shown was told and is known, or is observed by a check, or was shown before. -/
theorem names (h : Effect σ a w m) (hcoherent : σ.metrics.Coherent) (hnamed : σ.watch.Named)
    (hl : m.Names l) :
    (σ.Tells l a ∧ Knows w l) ∨
    (∃ i s, a = .observe i ∧ σ.inFlight[i]? = some s ∧ labels s = l ∧ certificates s ≠ []) ∨
    (¬ σ.Tells l a ∧ σ.metrics.Names l) := by
  cases h with
  | nothing ha => exact .inr (.inr ⟨ha l, hl⟩)
  | @handled e he =>
    have htells : σ.Tells l .handle ↔ ∃ change ∈ (σ.watch.step e).1, labels change.object = l := by
      simp [State.Tells, he]
    by_cases htold : σ.Tells l .handle
    · exact .inl ⟨htold, known_of_told hcoherent (hnamed.moves_step e) (htells.mp htold) hl⟩
    · have huntold : ∀ change ∈ (σ.watch.step e).1, labels change.object ≠ l :=
        fun change hchange h => htold (htells.mpr ⟨change, hchange, h⟩)
      exact .inr (.inr ⟨htold, names_of_untold hcoherent huntold hl⟩)
  | @observed i s hs =>
    rw [observe_eq] at hl
    have hput := hcoherent.names_of_put (isSome_issued?_eq s) hl
    by_cases hlabels : l = labels s
    · rw [if_pos hlabels] at hput
      exact .inr (.inl ⟨i, s, rfl, hs, hlabels.symm, isSome_issued?_iff.mp hput⟩)
    · rw [if_neg hlabels] at hput
      exact .inr (.inr ⟨id, hput⟩)

end Effect

/-- What holds after any actions. -/
structure Sound (σ : State) : Prop where
  coherent : σ.metrics.Coherent
  named : σ.watch.Named
  namespaced : Namespaced σ.store
  keepsUp : KeepsUp σ

theorem Sound.start : Sound .start where
  coherent := .empty
  named := .empty
  namespaced r s hs := by
    simp [State.start, Store.find?, Store.table, Store.empty, Table.find?, Table.empty] at hs
  keepsUp hwatching := by cases hwatching

theorem Sound.step (h : Sound σ) (a : Action) : Sound (σ.step a) where
  coherent := (effect_step σ a).coherent h.coherent
  named := (effect_step σ a).named h.named
  namespaced := h.namespaced.step a
  keepsUp := h.keepsUp.step h.namespaced a

theorem sound_run (actions : List Action) : Sound (run actions) := by
  induction actions using List.reverseRecOn with
  | nil => exact .start
  | append_singleton actions a ih =>
    rw [run_append]
    exact ih.step a

theorem knows_run_append_iff (ha : ¬ (run actions).Tells l a) :
    Knows (run (actions ++ [a])).watch l ↔ Knows (run actions).watch l := by
  rw [run_append]
  exact (effect_step (run actions) a).knows_iff (sound_run actions).named ha

theorem Belated.not_knows (h : Belated l actions) : ¬ Knows (run actions).watch l := by
  induction h with
  | @observed before i s hs hl hcertified hunknown =>
    rwa [knows_run_append_iff (a := .observe i) id]
  | since h ha ih => rwa [knows_run_append_iff ha]

/-- Whatever is shown is known, unless it was observed too late. -/
theorem belated_or_knows (hl : (run actions).metrics.Names l) :
    Belated l actions ∨ Knows (run actions).watch l := by
  induction actions using List.reverseRecOn with
  | nil =>
    rw [(sound_run []).coherent.names_iff] at hl
    simp [run, State.start, Metrics.empty] at hl
  | append_singleton before a ih =>
    have hsound := sound_run before
    have heffect := effect_step (run before) a
    rw [← run_append] at heffect
    obtain ⟨-, hknows⟩ | ⟨i, s, rfl, hs, hlabels, hcertified⟩ | ⟨huntold, hnames⟩ :=
      heffect.names hsound.coherent hsound.named hl
    · exact .inr hknows
    · by_cases hknows : Knows (run before).watch l
      · exact .inr ((knows_run_append_iff (a := .observe i) id).mpr hknows)
      · exact .inl (.observed hs hlabels hcertified hknows)
    · obtain hbelated | hknows := ih hnames
      · exact .inl (.since hbelated huntold)
      · exact .inr ((knows_run_append_iff huntold).mpr hknows)

theorem knows_iff_stored (h : Sound σ) (hsettled : σ.Settled) :
    Knows σ.watch l ↔ ∃ s, σ.store.find? .secret ⟨l.ns, l.name⟩ = some s := by
  have hknown (ref : ObjectRef) (s : Secret) : σ.watch.known[ref]? = some s ↔
      σ.store.find? .secret ref.key = some s ∧ s.ref = ref := by
    simpa [hsettled.pending, Classifier.after] using h.keepsUp hsettled.watching ref s
  constructor
  · rintro ⟨s, hs, rfl⟩
    exact ⟨s, ((hknown _ _).mp hs).1⟩
  · rintro ⟨s, hs⟩
    have hkey : s.key = ⟨l.ns, l.name⟩ := Store.key_of_find? hs
    refine ⟨s, (hknown _ _).mpr ⟨by rwa [Object.key_ref, hkey], rfl⟩, ?_⟩
    exact congrArg (fun r : Reference => (⟨r.name, r.ns⟩ : GaugeLabels)) hkey

/-- When everything has been handled, also while checks are under way, a secret whose certificate is
shown exists, except if a check observed it when the watch did not know it and no change of it has
been handled since. Then it is gone. -/
theorem shown_secret_stored_iff (actions : List Action) (hsettled : (run actions).Settled)
    (hl : (run actions).metrics.Names l) :
    (∃ s, (run actions).store.find? .secret ⟨l.ns, l.name⟩ = some s) ↔ ¬ Belated l actions := by
  rw [← knows_iff_stored (sound_run actions) hsettled]
  constructor
  · exact fun hknows hbelated => hbelated.not_knows hknows
  · exact (belated_or_knows hl).resolve_left

namespace OneSecret

open Leaf

def tls : Secret := secret "ns" "tls"

def written : List Action := [.relist, .handle, .handle, .put tls rfl]

/-- A check has read the secret, and its deletion is next to be handled. -/
def deleted : List Action :=
  written ++ [.handle, .read ⟨"ns", "tls"⟩, .delete ⟨"ns", "tls"⟩]

theorem isSome_issued?_tls : (issued? tls).isSome := by
  rw [tls, issued?_secret]
  rfl

end OneSecret

open OneSecret in
/-- Without a check, nothing is observed too late. -/
theorem shown_secret_stored_iff_no_check :
    ¬ Belated (labels tls) (written ++ [.handle]) := by
  have hsettled : (run (written ++ [.handle])).Settled := ⟨rfl, rfl⟩
  have hpending : (run written).pending = [.applied tls] := rfl
  have hchanges : ((run written).watch.step (.applied tls)).1 = [.created tls] := rfl
  have hmetrics : (run written).metrics = .empty := rfl
  have htold (s : Secret) : told issued? (.created s) = issued? s := rfl
  have hl : (run (written ++ [.handle])).metrics.Names (labels tls) := by
    rw [run_append]
    simp only [State.step, hpending, hchanges, hmetrics, List.foldl_cons, List.foldl_nil, track_eq]
    exact Metrics.Coherent.empty.names_put (isSome_told_eq _)
      (by rw [htold]; exact isSome_issued?_tls) (Gauge.labels?_empty _)
  exact (shown_secret_stored_iff _ hsettled hl).mp ⟨tls, rfl⟩

open OneSecret in
/-- The check observes the secret after its deletion has been handled. -/
theorem late_check_leaves_gauge :
    let σ := run (deleted ++ [.handle, .observe 0])
    σ.Settled ∧ σ.inFlight = [] ∧ σ.metrics.Names (labels tls) ∧
      σ.store.find? .secret ⟨"ns", "tls"⟩ = none := by
  refine ⟨⟨rfl, rfl⟩, rfl, ?_, rfl⟩
  have hpending : (run deleted).pending = [.removed tls] := rfl
  have hread : (run (deleted ++ [.handle])).inFlight[0]? = some tls := rfl
  have hforgotten :
      (run (deleted ++ [.handle])).metrics.issueTime.labels? (labels tls).key = none := by
    rw [run_append]
    simp only [State.step, hpending, Classifier.step, List.foldl_cons, List.foldl_nil, track_eq]
    have hkey : (labels (ObjectEvent.deleted tls).object).key = (labels tls).key := rfl
    rw [Metrics.put, Gauge.labels?_put, if_pos hkey]
    rfl
  have hobserved : (run (deleted ++ [.handle, .observe 0])).metrics
      = observe (run (deleted ++ [.handle])).metrics tls := by
    rw [List.append_cons, run_append]
    simp only [State.step, hread]
  rw [hobserved, observe_eq]
  exact (sound_run _).coherent.names_put (isSome_issued?_eq tls) isSome_issued?_tls hforgotten

end Interleaved
end CertKeeper.Expiry
