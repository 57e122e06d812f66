import CertKeeper.Proofs.Sync.Frame
import Mathlib.Logic.Function.Basic
import Mathlib.Logic.Relation

/-!
# Runs side by side

A run fetches its target, reads the sources of the target and updates it. Between these calls other
runs, and other writers, may change anything. The server takes an update only if it carries the
version that is stored, and it gives every new state of an object a version that none has had before.
-/

namespace CertKeeper

variable {k : Kind}

namespace Cluster

/-- Replaces an object by one that carries its version. The server assigns the version `next`. -/
def updateAs (next : String) (c : Cluster) (o : Object k) : Except ApiError Cluster :=
  match c.refusals.update k o.key with
  | some e => .error e
  | none =>
    match c.store.find? k o.key with
    | none => .error (.notFound o.metadata.nameOrStem)
    | some stored =>
      if stored.resourceVersion ≠ o.resourceVersion then .error .conflict
      else .ok {
        store := c.store.insert (o.withResourceVersion (some next))
        refusals := c.refusals
        writes := c.writes + 1 }

variable {c c' : Cluster} {o stored : Object k} {next : String}

theorem update_eq_updateAs (hstored : c.store.find? k o.key = some stored) :
    c.update o = c.updateAs (Store.nextVersion stored.resourceVersion) o := by
  simp only [update, updateAs, Store.replace, hstored]
  cases c.refusals.update k o.key with
  | some e => rfl
  | none =>
    by_cases hversion : stored.resourceVersion = o.resourceVersion
    · simp only [hversion, ne_eq, not_true_eq_false, if_false]
    · simp only [hversion, ne_eq, not_false_eq_true, if_true]

theorem updateAs_eq_ok : c.updateAs next o = .ok c' ↔
    c.refusals.update k o.key = none ∧ ∃ stored, c.store.find? k o.key = some stored ∧
      stored.resourceVersion = o.resourceVersion ∧ c' = {
        store := c.store.insert (o.withResourceVersion (some next))
        refusals := c.refusals
        writes := c.writes + 1 } := by
  cases hrefused : c.refusals.update k o.key with
  | some e => simp [updateAs, hrefused]
  | none =>
    cases hstored : c.store.find? k o.key with
    | none => simp [updateAs, hrefused, hstored]
    | some stored =>
      by_cases hversion : stored.resourceVersion = o.resourceVersion
      · simp [updateAs, hrefused, hstored, hversion, eq_comm]
      · simp [updateAs, hrefused, hstored, hversion]

theorem updateAs_eq_conflict (hrefused : c.refusals.update k o.key = none)
    (hstored : c.store.find? k o.key = some stored)
    (hversion : stored.resourceVersion ≠ o.resourceVersion) :
    c.updateAs next o = .error .conflict := by
  simp [updateAs, hrefused, hstored, hversion]

end Cluster

namespace Plan

def carryOutAs (next : String) (c : Cluster) : Plan k → Except SyncError Outcome × Cluster
  | missing => (.ok .missing, c)
  | skip => (.ok .skipped, c)
  | keep => (.ok .unchanged, c)
  | write target =>
    match c.updateAs next target with
    | .ok c' => (.ok .updated, c')
    | .error e => (.error (.api e), c)

variable {p : Plan k} {c : Cluster} {next : String}

theorem carryOutAs_updated (hp : (p.carryOutAs next c).1 = .ok .updated) :
    ∃ revised, p = .write revised ∧
      c.updateAs next revised = .ok (p.carryOutAs next c).2 := by
  cases p with
  | missing | skip | keep => simp [carryOutAs] at hp
  | write revised =>
    rw [carryOutAs] at hp ⊢
    cases hupdate : c.updateAs next revised with
    | error e => simp [hupdate] at hp
    | ok c' => exact ⟨revised, rfl, hupdate⟩

/-- A plan that comes to no update changes nothing, and fails at most by the word of the server. -/
theorem carryOutAs_idle (hp : (p.carryOutAs next c).1 ≠ .ok .updated) :
    (p.carryOutAs next c).2 = c ∧
      ∀ e, (p.carryOutAs next c).1 = .error e → ∃ e', e = .api e' := by
  cases p with
  | missing | skip | keep => simp [carryOutAs]
  | write revised =>
    rw [carryOutAs] at hp ⊢
    cases hupdate : c.updateAs next revised with
    | error e =>
      exact ⟨rfl, fun e' he => ⟨e, (Except.error.inj he).symm⟩⟩
    | ok c' => simp [hupdate] at hp

theorem carryOut_eq_carryOutAs {r : Reference} {stored : Object k}
    (hkey : ∀ o, p = .write o → o.key = r) (hstored : c.store.find? k r = some stored) :
    p.carryOut c = p.carryOutAs (Store.nextVersion stored.resourceVersion) c := by
  cases p with
  | missing | skip | keep => rfl
  | write o =>
    have hupdate := Cluster.update_eq_updateAs (hkey o rfl ▸ hstored)
    cases hresult : c.updateAs (Store.nextVersion stored.resourceVersion) o <;>
      simp only [carryOut, carryOutAs, hupdate, hresult]

end Plan

inductive Progress (k : Kind) where
  | idle
  | fetched (target : Object k)
  | decided (target : Object k) (p : Plan k)
  | done (result : Except SyncError Outcome)

namespace Progress

/-- The state of the target that a run works on. -/
def copy? : Progress k → Option (Object k)
  | fetched target | decided target _ => some target
  | idle | done _ => none

def ofFetch : Except ApiError (Option (Object k)) → Progress k
  | .error e => done (.error (.api e))
  | .ok none => done (.ok .missing)
  | .ok (some target) => fetched target

def ofPlan (target : Object k) : Except SyncError (Plan k) → Progress k
  | .error e => done (.error e)
  | .ok p => decided target p

theorem copy?_ofFetch {found : Except ApiError (Option (Object k))} {o : Object k}
    (h : (ofFetch found).copy? = some o) : found = .ok (some o) := by
  cases found with
  | error e => cases h
  | ok found =>
    cases found with
    | none => cases h
    | some target =>
      cases h
      rfl

theorem copy?_ofPlan {target o : Object k} {p : Except SyncError (Plan k)}
    (h : (ofPlan target p).copy? = some o) : o = target := by
  cases p with
  | error e => cases h
  | ok p =>
    cases h
    rfl

theorem decided_ne_ofFetch {target : Object k} {p : Plan k}
    (found : Except ApiError (Option (Object k))) : decided target p ≠ ofFetch found := by
  rcases found with e | (_ | found) <;> nofun

theorem ofPlan_eq_decided {target o : Object k} {planned : Except SyncError (Plan k)} {p : Plan k} :
    ofPlan target planned = decided o p ↔ target = o ∧ planned = .ok p := by
  cases planned <;> simp [ofPlan]

end Progress

/-- A cluster with any number of runs for one object, and all states that the object has had. -/
structure Contest (k : Kind) where
  cluster : Cluster
  past : List (Object k)
  progress : Nat → Progress k

namespace Contest

/-- What may become of the object in the place `r`, of which there have been the states `past`. A new
state has a version that none of these has had. -/
inductive Change (r : Reference) (past : List (Object k)) (c : Cluster) :
    List (Object k) → Cluster → Prop where
  | keep {c' : Cluster} (hkept : c'.store.find? k r = c.store.find? k r) : Change r past c past c'
  | lose {c' : Cluster} (hlost : c'.store.find? k r = none) : Change r past c past c'
  | gain {c' : Cluster} {o : Object k} (hgained : c'.store.find? k r = some o)
      (hfresh : o.resourceVersion ∉ past.map Object.resourceVersion) :
      Change r past c (o :: past) c'

def moved (σ : Contest k) (i : Nat) (p : Progress k) : Contest k :=
  { σ with progress := Function.update σ.progress i p }

theorem moved_moved (σ : Contest k) (i : Nat) (p q : Progress k) :
    (σ.moved i p).moved i q = σ.moved i q := by
  simp only [moved, Function.update_idem]

@[simp] theorem progress_moved (σ : Contest k) (i : Nat) (p : Progress k) :
    (σ.moved i p).progress i = p :=
  Function.update_self _ _ _

theorem progress_moved_of_ne {i j : Nat} (hij : i ≠ j) (σ : Contest k) (p : Progress k) :
    (σ.moved j p).progress i = σ.progress i :=
  Function.update_of_ne hij _ _

/-- The steps of the runs of `s` for the object in the place `r`, and of other writers. Between two
steps of a run its host may change. Sources are read in one step, as no secret names more than one. -/
inductive Step (s : Nat → SyncKind k) (r : Reference) : Contest k → Contest k → Prop where
  | fetch {σ : Contest k} (i : Nat) (hi : σ.progress i = .idle) :
      Step s r σ (σ.moved i (.ofFetch (σ.cluster.get k r)))
  | decide {σ : Contest k} (i : Nat) (target : Object k) (h : Host)
      (hi : σ.progress i = .fetched target) :
      Step s r σ (σ.moved i (.ofPlan target ((s i).planFor σ.cluster h target)))
  | finish {σ : Contest k} {past : List (Object k)} (i : Nat) (target : Object k) (p : Plan k)
      (next : String) (hi : σ.progress i = .decided target p)
      (hchange : Change r σ.past σ.cluster past (p.carryOutAs next σ.cluster).2) :
      Step s r σ { σ.moved i (.done (p.carryOutAs next σ.cluster).1) with
        cluster := (p.carryOutAs next σ.cluster).2
        past := past }
  | other {σ : Contest k} {past : List (Object k)} {c : Cluster}
      (hchange : Change r σ.past σ.cluster past c) :
      Step s r σ { σ with cluster := c, past := past }

structure Start (r : Reference) (σ : Contest k) : Prop where
  past : σ.past = (σ.cluster.store.find? k r).toList
  idle : ∀ i, σ.progress i = .idle

def Steps (s : Nat → SyncKind k) (r : Reference) : Contest k → Contest k → Prop :=
  Relation.ReflTransGen (Step s r)

def Reachable (s : Nat → SyncKind k) (r : Reference) (σ : Contest k) : Prop :=
  ∃ σ₀, Start r σ₀ ∧ Steps s r σ₀ σ

structure Sound (r : Reference) (σ : Contest k) : Prop where
  stored : ∀ o, σ.cluster.store.find? k r = some o → o ∈ σ.past
  key_eq : ∀ o ∈ σ.past, o.key = r
  nodup_versions : (σ.past.map Object.resourceVersion).Nodup
  copies : ∀ i target, (σ.progress i).copy? = some target → target ∈ σ.past

variable {s : Nat → SyncKind k} {r : Reference} {σ σ' σ₀ : Contest k} {i : Nat}
  {past past' : List (Object k)} {c c' : Cluster} {o target : Object k} {p : Plan k}
  {same : Nat → k.Content → k.Content → Prop}

theorem Change.subset (h : Change r past c past' c') : past ⊆ past' := by
  cases h with
  | keep | lose => exact List.Subset.refl past
  | gain => exact List.subset_cons_self _ past

theorem Change.stored (h : Change r past c past' c')
    (hstored : ∀ o, c.store.find? k r = some o → o ∈ past) :
    ∀ o, c'.store.find? k r = some o → o ∈ past' := by
  intro o ho
  cases h with
  | keep hkept => exact hstored o (hkept ▸ ho)
  | lose hlost => cases hlost.symm.trans ho
  | gain hgained =>
    cases hgained.symm.trans ho
    exact List.mem_cons_self

theorem Change.key_eq (h : Change r past c past' c') (hkey : ∀ o ∈ past, o.key = r) :
    ∀ o ∈ past', o.key = r := by
  cases h with
  | keep | lose => exact hkey
  | gain hgained => exact List.forall_mem_cons.mpr ⟨Store.key_of_find? hgained, hkey⟩

theorem Change.nodup_versions (h : Change r past c past' c')
    (hnodup : (past.map Object.resourceVersion).Nodup) :
    (past'.map Object.resourceVersion).Nodup := by
  cases h with
  | keep | lose => exact hnodup
  | gain _ hfresh => exact List.nodup_cons.mpr ⟨hfresh, hnodup⟩

theorem Change.find?_of_seen (h : Change r past c past' c') (hseen : o ∈ past)
    (ho : c'.store.find? k r = some o) : c.store.find? k r = some o := by
  cases h with
  | keep hkept => rw [← hkept, ho]
  | lose hlost => cases hlost.symm.trans ho
  | gain hgained hfresh =>
    cases hgained.symm.trans ho
    exact absurd (List.mem_map_of_mem hseen) hfresh

theorem Start.sound (h : Start r σ) : Sound r σ := by
  have hpast (o : Object k) : o ∈ σ.past ↔ σ.cluster.store.find? k r = some o := by
    rw [h.past, Option.mem_toList]
  refine ⟨fun o ho => (hpast o).mpr ho, fun o ho => Store.key_of_find? ((hpast o).mp ho), ?_, ?_⟩
  · rw [h.past]
    cases σ.cluster.store.find? k r with
    | none => exact List.nodup_nil
    | some o => exact List.nodup_singleton o.resourceVersion
  · intro i target hi
    rw [h.idle i] at hi
    cases hi

theorem Sound.change (hσ : Sound r σ) (h : Change r σ.past σ.cluster past' c')
    {progress : Nat → Progress k}
    (hcopies : ∀ i target, (progress i).copy? = some target → target ∈ σ.past) :
    Sound r ⟨c', past', progress⟩ where
  stored := h.stored hσ.stored
  key_eq := h.key_eq hσ.key_eq
  nodup_versions := h.nodup_versions hσ.nodup_versions
  copies i target hi := h.subset (hcopies i target hi)

theorem Sound.copies_moved (hσ : Sound r σ) {p : Progress k}
    (hp : ∀ target, p.copy? = some target → target ∈ σ.past) :
    ∀ j target, ((σ.moved i p).progress j).copy? = some target → target ∈ σ.past := by
  intro j target hj
  simp only [moved, Function.update_apply] at hj
  split at hj
  · exact hp target hj
  · exact hσ.copies j target hj

theorem Step.sound (h : Step s r σ σ') (hσ : Sound r σ) : Sound r σ' := by
  cases h with
  | fetch i hi =>
    refine hσ.change (.keep rfl) (hσ.copies_moved fun o ho => ?_)
    exact hσ.stored o (Cluster.get_eq_ok.mp (Progress.copy?_ofFetch ho)).2
  | decide i target host hi =>
    refine hσ.change (.keep rfl) (hσ.copies_moved fun o ho => ?_)
    rw [Progress.copy?_ofPlan ho]
    exact hσ.copies i target (by rw [hi, Progress.copy?])
  | finish i target p next hi hchange =>
    exact hσ.change hchange (hσ.copies_moved fun o ho => by cases ho)
  | other hchange => exact hσ.change hchange hσ.copies

theorem Steps.sound (h : Steps s r σ σ') (hσ : Sound r σ) : Sound r σ' := by
  induction h with
  | refl => exact hσ
  | tail _ hstep ih => exact hstep.sound ih

theorem Reachable.sound (h : Reachable s r σ) : Sound r σ := by
  obtain ⟨σ₀, hstart, hsteps⟩ := h
  exact hsteps.sound hstart.sound

theorem Step.fetched (hi : σ.progress i = .idle) (hget : σ.cluster.get k r = .ok (some target)) :
    Step s r σ (σ.moved i (.fetched target)) := by
  have hstep : Step s r σ (σ.moved i (.ofFetch (σ.cluster.get k r))) := .fetch i hi
  rwa [hget, Progress.ofFetch] at hstep

theorem Step.decided {h : Host} (hi : σ.progress i = .fetched target)
    (hplan : (s i).planFor σ.cluster h target = .ok p) :
    Step s r σ (σ.moved i (.decided target p)) := by
  have hstep : Step s r σ (σ.moved i (.ofPlan target ((s i).planFor σ.cluster h target))) :=
    .decide i target h hi
  rwa [hplan, Progress.ofPlan] at hstep

theorem Change.exists_of_carryOutAs {next : String} (hkey : ∀ o, p = .write o → o.key = r)
    (hfresh : some next ∉ past.map Object.resourceVersion) :
    ∃ past', Change r past c past' (p.carryOutAs next c).2 := by
  by_cases hupdated : (p.carryOutAs next c).1 = .ok .updated
  · obtain ⟨revised, rfl, hupdate⟩ := Plan.carryOutAs_updated hupdated
    obtain ⟨-, -, -, -, hafter⟩ := Cluster.updateAs_eq_ok.mp hupdate
    refine ⟨revised.withResourceVersion (some next) :: past, .gain ?_ hfresh⟩
    rw [hafter, ← hkey revised rfl]
    exact Store.find?_insert _ (revised.withResourceVersion (some next))
  · rw [(Plan.carryOutAs_idle hupdated).1]
    exact ⟨past, .keep rfl⟩

/-- The steps of one run make up the run, if nothing comes in between and the version that follows
the stored one is new. -/
theorem steps_of_sync {kept : k.Content → k.Content → Prop} (hs : (s i).Keeps kept)
    (hidle : σ.progress i = .idle)
    (hfresh : ∀ stored, σ.cluster.store.find? k r = some stored →
      some (Store.nextVersion stored.resourceVersion) ∉ σ.past.map Object.resourceVersion)
    (h : Host) : ∃ past, Steps s r σ { σ.moved i (.done ((s i).sync σ.cluster h r).1) with
      cluster := ((s i).sync σ.cluster h r).2
      past := past } := by
  have hfetch : Step s r σ (σ.moved i (.ofFetch (σ.cluster.get k r))) := .fetch i hidle
  cases hget : σ.cluster.get k r with
  | error e =>
    rw [hget, Progress.ofFetch] at hfetch
    have hsync : (s i).sync σ.cluster h r = (.error (.api e), σ.cluster) := by
      simp only [SyncKind.sync, SyncKind.plan, hget]
    rw [hsync]
    exact ⟨σ.past, .single hfetch⟩
  | ok found =>
    cases found with
    | none =>
      rw [hget, Progress.ofFetch] at hfetch
      have hsync : (s i).sync σ.cluster h r = (.ok .missing, σ.cluster) := by
        simp only [SyncKind.sync, SyncKind.plan, hget, Plan.carryOut]
      rw [hsync]
      exact ⟨σ.past, .single hfetch⟩
    | some target =>
      rw [hget, Progress.ofFetch] at hfetch
      have htarget := (Cluster.get_eq_ok.mp hget).2
      cases hplan : (s i).planFor σ.cluster h target with
      | error e =>
        have hdecide : Step s r (σ.moved i (.fetched target)) ((σ.moved i (.fetched target)).moved i
            (.ofPlan target ((s i).planFor σ.cluster h target))) :=
          .decide i target h (progress_moved σ i _)
        rw [moved_moved, hplan, Progress.ofPlan] at hdecide
        have hsync : (s i).sync σ.cluster h r = (.error e, σ.cluster) := by
          simp only [SyncKind.sync, SyncKind.plan, hget, hplan]
        rw [hsync]
        exact ⟨σ.past, .tail (.single hfetch) hdecide⟩
      | ok p =>
        have hdecide : Step s r (σ.moved i (.fetched target))
            ((σ.moved i (.fetched target)).moved i (.decided target p)) :=
          .decided (progress_moved σ i _) hplan
        have hkey : ∀ o, p = .write o → o.key = r := by
          rintro o rfl
          rw [hs.key_of_planFor hplan, Store.key_of_find? htarget]
        have hsync : (s i).sync σ.cluster h r
            = p.carryOutAs (Store.nextVersion target.resourceVersion) σ.cluster := by
          rw [← Plan.carryOut_eq_carryOutAs hkey htarget]
          simp only [SyncKind.sync, SyncKind.plan, hget, hplan]
        obtain ⟨past, hchange⟩ := Change.exists_of_carryOutAs (c := σ.cluster) hkey
          (hfresh target htarget)
        have hfinish := Step.finish (s := s) i target p _ (progress_moved σ i _) hchange
        rw [moved_moved] at hdecide hfinish
        rw [hsync]
        exact ⟨past, .tail (.tail (.single hfetch) hdecide) hfinish⟩

end Contest
end CertKeeper
