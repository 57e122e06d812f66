import CertKeeper.Proofs.Sync.Contest

/-!
# Runs that contend for one object

What a run works on is a state that the object has had, and no state of an object comes back. So an
update that the server takes replaces exactly the state that it was made from, and a run that comes
too late changes nothing.
-/

namespace CertKeeper

namespace Contest

variable {k : Kind} {s : Nat → SyncKind k} {r : Reference} {σ σ' : Contest k} {i : Nat}
  {c : Cluster} {o target : Object k} {p : Plan k} {same : Nat → k.Content → k.Content → Prop}

theorem Step.change (h : Step s r σ σ') : Change r σ.past σ.cluster σ'.past σ'.cluster := by
  cases h with
  | fetch | decide => exact .keep rfl
  | finish _ _ _ _ _ hchange | other hchange => exact hchange

theorem Steps.subset (h : Steps s r σ σ') : σ.past ⊆ σ'.past := by
  induction h with
  | refl => exact List.Subset.refl _
  | tail _ hstep ih => exact List.Subset.trans ih hstep.change.subset

/-- If a state that the object has had before is there, it has been there all the time. -/
theorem Steps.find?_of_seen (h : Steps s r σ σ') (hseen : o ∈ σ.past)
    (ho : σ'.cluster.store.find? k r = some o) : σ.cluster.store.find? k r = some o := by
  induction h using Relation.ReflTransGen.head_induction_on with
  | refl => exact ho
  | head hstep _ ih =>
    exact hstep.change.find?_of_seen hseen (ih (hstep.change.subset hseen))

/-- What a step can do to one run. -/
theorem Step.progress (h : Step s r σ σ') (i : Nat) :
    σ'.progress i = σ.progress i ∨
      (σ.progress i = .idle ∧ σ' = σ.moved i (.ofFetch (σ.cluster.get k r))) ∨
      (∃ target host, σ.progress i = .fetched target ∧
        σ'.progress i = .ofPlan target ((s i).planFor σ.cluster host target)) ∨
      ∃ result, σ'.progress i = .done result := by
  cases h with
  | fetch j hj =>
    by_cases hij : i = j
    · subst hij
      exact .inr (.inl ⟨hj, rfl⟩)
    · exact .inl (progress_moved_of_ne hij σ _)
  | decide j target host hj =>
    by_cases hij : i = j
    · subst hij
      exact .inr (.inr (.inl ⟨target, host, hj, progress_moved σ i _⟩))
    · exact .inl (progress_moved_of_ne hij σ _)
  | finish j target p next hj =>
    by_cases hij : i = j
    · subst hij
      exact .inr (.inr (.inr ⟨_, progress_moved σ i _⟩))
    · exact .inl (progress_moved_of_ne hij σ _)
  | other => exact .inl rfl

/-- Whether a run decides on `p` between `σ` and `σ'` from the state `target` of the object. -/
def Decides (s : Nat → SyncKind k) (r : Reference) (i : Nat) (target : Object k) (p : Plan k)
    (σ σ' : Contest k) : Prop :=
  ∃ τ host, Steps s r σ τ ∧ Steps s r τ σ' ∧ (s i).planFor τ.cluster host target = .ok p

/-- Whatever a run works on it has fetched some time. -/
theorem Reachable.exists_fetch (h : Reachable s r σ) (hi : (σ.progress i).copy? = some target) :
    ∃ σ₀, Reachable s r σ₀ ∧ σ₀.progress i = .idle ∧
      σ₀.cluster.get k r = .ok (some target) ∧ Steps s r (σ₀.moved i (.fetched target)) σ := by
  obtain ⟨first, hstart, hsteps⟩ := h
  induction hsteps generalizing target with
  | refl =>
    rw [hstart.idle i] at hi
    cases hi
  | @tail τ σ' hsteps hstep ih =>
    rcases hstep.progress i with hsame | ⟨hidle, rfl⟩ | ⟨found, host, hfound, hplan⟩ |
      ⟨result, hdone⟩
    · rw [hsame] at hi
      obtain ⟨σ₀, h₀, hidle, hget, hafter⟩ := ih hi
      exact ⟨σ₀, h₀, hidle, hget, hafter.tail hstep⟩
    · rw [progress_moved] at hi
      have hget := Progress.copy?_ofFetch hi
      refine ⟨τ, ⟨first, hstart, hsteps⟩, hidle, hget, ?_⟩
      rw [hget, Progress.ofFetch]
      exact .refl
    · rw [hplan] at hi
      cases Progress.copy?_ofPlan hi
      obtain ⟨σ₀, h₀, hidle, hget, hafter⟩ := ih (by rw [hfound, Progress.copy?])
      exact ⟨σ₀, h₀, hidle, hget, hafter.tail hstep⟩
    · rw [hdone] at hi
      cases hi

theorem Reachable.exists_decides (h : Reachable s r σ) (hi : σ.progress i = .decided target p) :
    ∃ σ₀, Reachable s r σ₀ ∧ σ₀.progress i = .idle ∧ σ₀.cluster.get k r = .ok (some target) ∧
      Decides s r i target p (σ₀.moved i (.fetched target)) σ := by
  obtain ⟨first, hstart, hsteps⟩ := h
  induction hsteps with
  | refl => cases (hstart.idle i).symm.trans hi
  | @tail τ σ' hsteps hstep ih =>
    rcases hstep.progress i with hsame | ⟨-, rfl⟩ | ⟨found, host, hfound, hplan⟩ | ⟨result, hdone⟩
    · obtain ⟨σ₀, h₀, hidle, hget, τ', host, hbefore, hafter, hplan⟩ := ih (hsame ▸ hi)
      exact ⟨σ₀, h₀, hidle, hget, τ', host, hbefore, hafter.tail hstep, hplan⟩
    · rw [progress_moved] at hi
      exact absurd hi.symm (Progress.decided_ne_ofFetch _)
    · obtain ⟨rfl, hp⟩ := Progress.ofPlan_eq_decided.mp (hplan.symm.trans hi)
      have hτ : Reachable s r τ := ⟨first, hstart, hsteps⟩
      obtain ⟨σ₀, h₀, hidle, hget, hbefore⟩ := hτ.exists_fetch (by rw [hfound, Progress.copy?])
      exact ⟨σ₀, h₀, hidle, hget, τ, host, hbefore, .single hstep, hp⟩
    · cases hdone.symm.trans hi

theorem Sound.eq_of_version (hσ : Sound r σ) (hi : (σ.progress i).copy? = some target)
    (ho : σ.cluster.store.find? k r = some o)
    (hversion : o.resourceVersion = target.resourceVersion) : o = target :=
  List.inj_on_of_nodup_map hσ.nodup_versions (hσ.stored o ho) (hσ.copies i target hi) hversion

theorem Decides.write (hs : (s i).Keeps (same i)) {revised : Object k}
    (h : Decides s r i target (.write revised) σ σ') :
    revised.metadata = target.metadata ∧ same i target.content revised.content := by
  obtain ⟨τ, host, -, -, hplan⟩ := h
  obtain ⟨loaded, hrevise⟩ := SyncKind.exists_revise_of_planFor hplan
  exact hs host loaded target revised hrevise

variable {next : String} {revised stored : Object k}

theorem Sound.of_updated (hσ : Sound r σ) (hi : (σ.progress i).copy? = some target)
    (hmetadata : revised.metadata = target.metadata)
    (hupdate : σ.cluster.updateAs next revised = .ok c) :
    σ.cluster.store.find? k r = some target ∧
      c.store.find? k r = some (revised.withResourceVersion (some next)) := by
  have hkey : revised.key = r :=
    (Object.key_eq_of_metadata hmetadata).trans (hσ.key_eq target (hσ.copies i target hi))
  obtain ⟨-, stored, hstored, hversion, rfl⟩ := Cluster.updateAs_eq_ok.mp hupdate
  have hversion : stored.resourceVersion = target.resourceVersion :=
    hversion.trans (congrArg Metadata.resourceVersion hmetadata)
  subst hkey
  cases hσ.eq_of_version hi hstored hversion
  exact ⟨hstored, Store.find?_insert _ (revised.withResourceVersion (some next))⟩

theorem Sound.conflict (hσ : Sound r σ) (hi : (σ.progress i).copy? = some target)
    (hmetadata : revised.metadata = target.metadata)
    (hrefused : σ.cluster.refusals.update k r = none)
    (hstored : σ.cluster.store.find? k r = some stored) (hne : stored ≠ target) :
    σ.cluster.updateAs next revised = .error .conflict := by
  have hkey : revised.key = r :=
    (Object.key_eq_of_metadata hmetadata).trans (hσ.key_eq target (hσ.copies i target hi))
  subst hkey
  refine Cluster.updateAs_eq_conflict hrefused hstored fun hversion => hne ?_
  exact hσ.eq_of_version hi hstored
    (hversion.trans (congrArg Metadata.resourceVersion hmetadata))

/-- What a run comes to at `σ` that has fetched the state `target` of its object at `σ₀`, if the
server assigns the version `next`. -/
structure Ending (same : k.Content → k.Content → Prop) (s : Nat → SyncKind k) (r : Reference)
    (i : Nat) (target : Object k) (p : Plan k) (next : String) (σ₀ σ : Contest k) : Prop where
  /-- It has decided by what it fetched. -/
  decides : Decides s r i target p (σ₀.moved i (.fetched target)) σ
  /-- An update replaces what was fetched, and nothing has come and gone in between. -/
  replaces : (p.carryOutAs next σ.cluster).1 = .ok .updated →
    (∀ τ, Steps s r (σ₀.moved i (.fetched target)) τ → Steps s r τ σ →
      τ.cluster.store.find? k r = some target) ∧
    ∃ after, (p.carryOutAs next σ.cluster).2.store.find? k r = some after ∧
      after.metadata = { target.metadata with resourceVersion := some next } ∧
        same target.content after.content
  /-- Where anything else is stored there is a conflict. -/
  conflict : ∀ revised stored, p = .write revised → σ.cluster.refusals.update k r = none →
    σ.cluster.store.find? k r = some stored → stored ≠ target →
      (p.carryOutAs next σ.cluster).1 = .error (.api .conflict)
  /-- Without an update nothing changes, and no error is the author's. -/
  idle : (p.carryOutAs next σ.cluster).1 ≠ .ok .updated →
    (p.carryOutAs next σ.cluster).2 = σ.cluster ∧
      ∀ e, (p.carryOutAs next σ.cluster).1 = .error e → e.isReportable = false

theorem Reachable.ending (hs : ∀ i, (s i).Keeps (same i)) (h : Reachable s r σ)
    (hdecided : σ.progress i = .decided target p) (next : String) :
    ∃ σ₀, Reachable s r σ₀ ∧ σ₀.progress i = .idle ∧ σ₀.cluster.get k r = .ok (some target) ∧
      Ending (same i) s r i target p next σ₀ σ := by
  obtain ⟨σ₀, h₀, hidle, hget, hdecides⟩ := h.exists_decides hdecided
  have hcopy : (σ.progress i).copy? = some target := by rw [hdecided, Progress.copy?]
  refine ⟨σ₀, h₀, hidle, hget, hdecides, fun hupdated => ?_, ?_, fun hidle => ?_⟩
  · obtain ⟨revised, rfl, hupdate⟩ := Plan.carryOutAs_updated hupdated
    obtain ⟨hmetadata, hsame⟩ := hdecides.write (hs i)
    obtain ⟨hstored, hafter⟩ := h.sound.of_updated hcopy hmetadata hupdate
    have hseen : target ∈ σ₀.past := h₀.sound.stored target (Cluster.get_eq_ok.mp hget).2
    refine ⟨fun τ hbefore hlater => hlater.find?_of_seen (hbefore.subset hseen) hstored,
      _, hafter, ?_, hsame⟩
    rw [Object.withResourceVersion, hmetadata]
  · rintro revised stored rfl hrefused hstored hne
    obtain ⟨hmetadata, -⟩ := hdecides.write (hs i)
    rw [Plan.carryOutAs, h.sound.conflict hcopy hmetadata hrefused hstored hne]
  · obtain ⟨hcluster, herror⟩ := Plan.carryOutAs_idle hidle
    refine ⟨hcluster, fun e he => ?_⟩
    obtain ⟨e', rfl⟩ := herror e he
    rfl

end Contest

/-- A controller whose targets are secrets, with the fields that it manages. -/
structure SecretWriter where
  sync : SyncKind .secret
  managed : List String

namespace SecretWriter

def all : List SecretWriter :=
  [⟨CaTarget.secret.injection, [Field.caCert]⟩,
    ⟨JavaKeystores.kind, [Field.keystore, Field.truststore]⟩,
    ⟨CertificateInfo.kind, [Field.certInfo, Field.caInfo]⟩]

theorem keeps {w : SecretWriter} (hw : w ∈ all) :
    w.sync.Keeps (Secret.Content.SameBut w.managed) := by
  have hscope : (⟨⟨_, w.sync⟩, Secret.Content.SameBut w.managed⟩ : Scope) ∈ Scope.all := by
    simp only [all, List.mem_cons, List.not_mem_nil, or_false] at hw
    rcases hw with rfl | rfl | rfl <;> simp [Scope.all]
  exact Scope.keeps hscope

end SecretWriter

/-- However the runs of all controllers for one secret and the writes of others come between each
other, a run that updates the secret replaces exactly what it has fetched, which was stored all the
time from then on, and changes no more of it than the fields that it manages. A run that comes too
late is told of the conflict, and changes nothing. Where nothing comes in between, the steps of a
run make up the run. -/
theorem concurrent_syncs_lose_no_update :
    ((SecretWriter.all.map fun w => (⟨_, w.sync⟩ : Controller))
      = Controller.all.filter fun c => c.kind = .secret) ∧
    ∀ w : Nat → SecretWriter, (∀ i, w i ∈ SecretWriter.all) →
      ∀ (r : Reference) (σ : Contest .secret) (i : Nat),
        (Contest.Reachable (fun i => (w i).sync) r σ → ∀ target p,
          σ.progress i = .decided target p → ∀ next,
            ∃ σ₀, Contest.Reachable (fun i => (w i).sync) r σ₀ ∧ σ₀.progress i = .idle ∧
              σ₀.cluster.get .secret r = .ok (some target) ∧
                Contest.Ending (Secret.Content.SameBut (w i).managed) (fun i => (w i).sync) r i
                  target p next σ₀ σ) ∧
        (σ.progress i = .idle →
          (∀ stored, σ.cluster.store.find? .secret r = some stored →
            some (Store.nextVersion stored.resourceVersion) ∉
              σ.past.map Object.resourceVersion) →
          ∀ h, ∃ past, Contest.Steps (fun i => (w i).sync) r σ
            { σ.moved i (.done ((w i).sync.sync σ.cluster h r).1) with
              cluster := ((w i).sync.sync σ.cluster h r).2
              past := past }) := by
  refine ⟨rfl, fun w hw r σ i => ?_⟩
  have hkeeps : ∀ i, (w i).sync.Keeps (Secret.Content.SameBut (w i).managed) :=
    fun i => SecretWriter.keeps (hw i)
  exact ⟨fun hσ _ _ hdecided next => hσ.ending hkeeps hdecided next,
    fun hidle hfresh h => Contest.steps_of_sync (hkeeps i) hidle hfresh h⟩

namespace TwoRuns

open Contest CaTarget.NamedSecret

/-- A secret that holds no bundle yet and names the secret `ns/ca`. -/
def target : Secret :=
  ⟨{ metadata "tls" ((∅ : Annotations).insert Key.injectCaFromSecret "ns/ca") with
      resourceVersion := some "1" },
    { type := some Field.tlsSecretType, data := none, extra := ∅ }⟩

def cluster : Cluster := .ofStore ((Store.empty.seed (source [65])).seed target)

def writer : Nat → SecretWriter := fun _ => ⟨CaTarget.secret.injection, [Field.caCert]⟩

def sync : Nat → SyncKind .secret := fun i => (writer i).sync

def start : Contest .secret := ⟨cluster, [target], fun _ => .idle⟩

theorem find?_cluster : cluster.store.find? .secret target.key = some target :=
  Store.find?_insert _ (target.withResourceVersion (some "1"))

theorem start_start : Start target.key start :=
  ⟨by rw [start, find?_cluster]; rfl, fun _ => rfl⟩

theorem exists_write : ∃ revised, revised.metadata = target.metadata ∧
    (CaTarget.secret.injection).planFor cluster host target = .ok (.write revised) := by
  have hupdated : (CaTarget.secret.injection.sync cluster host target.key).1.toOption
      = some .updated := by
    decide +kernel
  obtain ⟨c', hrun⟩ := SyncKind.exists_sync_eq hupdated
  obtain ⟨found, loaded, revised, hl, hrevise, -⟩ := SyncKind.sync_eq_updated.mp hrun
  cases find?_cluster.symm.trans hl.find?
  have hplan := hl.plan_eq
  rw [SyncKind.plan, hl.get, hrevise] at hplan
  exact ⟨revised, (SecretWriter.keeps (.head _) host loaded target revised hrevise).1, hplan⟩

def decided (p : Plan .secret) : Contest .secret :=
  (((start.moved 0 (.fetched target)).moved 1 (.fetched target)).moved 0
    (.decided target p)).moved 1 (.decided target p)

theorem reachable_decided {p : Plan .secret}
    (hplan : CaTarget.secret.injection.planFor cluster host target = .ok p) :
    Reachable sync target.key (decided p) := by
  have hget : cluster.get .secret target.key = .ok (some target) :=
    Cluster.get_eq_ok.mpr ⟨rfl, find?_cluster⟩
  have hfirst : Step sync target.key start (start.moved 0 (.fetched target)) := .fetched rfl hget
  have hsecond : Step sync target.key (start.moved 0 (.fetched target))
      ((start.moved 0 (.fetched target)).moved 1 (.fetched target)) := .fetched rfl hget
  refine ⟨start, start_start, ?_⟩
  exact .tail (.tail (.tail (.single hfirst) hsecond) (.decided rfl hplan)) (.decided rfl hplan)

theorem updateAs_eq {revised : Secret} (hmetadata : revised.metadata = target.metadata) :
    ∃ c', cluster.updateAs "2" revised = .ok c' := by
  have hkey : revised.key = target.key := Object.key_eq_of_metadata hmetadata
  have hversion : target.resourceVersion = revised.resourceVersion :=
    congrArg Metadata.resourceVersion hmetadata.symm
  exact ⟨_, Cluster.updateAs_eq_ok.mpr ⟨rfl, target, hkey ▸ find?_cluster, hversion, rfl⟩⟩

theorem fresh_start : ∀ stored, start.cluster.store.find? .secret target.key = some stored →
    some (Store.nextVersion stored.resourceVersion) ∉ start.past.map Object.resourceVersion := by
  intro stored hstored
  cases find?_cluster.symm.trans hstored
  decide +kernel

/-- The first of the two runs has ended. -/
def ended (p : Plan .secret) (past : List Secret) : Contest .secret :=
  { (decided p).moved 0 (.done (p.carryOutAs "2" cluster).1) with
    cluster := (p.carryOutAs "2" cluster).2
    past := past }

theorem reachable_ended {p : Plan .secret} (hkey : ∀ o, p = .write o → o.key = target.key)
    (hdecided : Reachable sync target.key (decided p)) :
    ∃ past, Reachable sync target.key (ended p past) := by
  have hfresh : some "2" ∉ [target].map Object.resourceVersion := by decide
  obtain ⟨past, hchange⟩ := Change.exists_of_carryOutAs (c := cluster) hkey hfresh
  obtain ⟨first, hstart, hsteps⟩ := hdecided
  exact ⟨past, first, hstart, hsteps.tail (.finish 0 target p "2" rfl hchange)⟩

end TwoRuns

open TwoRuns Contest in
/-- A run by itself updates the secret. Of two runs that have read the same state one is taken, and
the other is told of the conflict. -/
theorem concurrent_syncs_lose_no_update_two_runs :
    (∃ σ, Steps sync target.key start σ ∧
      σ.progress 0 = .done ((sync 0).sync cluster host target.key).1) ∧
    ∃ σ σ' p, Reachable sync target.key σ ∧ Reachable sync target.key σ' ∧
      σ.progress 0 = .decided target p ∧ σ'.progress 1 = .decided target p ∧
        (p.carryOutAs "2" σ.cluster).1 = .ok .updated ∧
          (p.carryOutAs "2" σ.cluster).2 = σ'.cluster ∧
            (p.carryOutAs "3" σ'.cluster).1 = .error (.api .conflict) := by
  have hw : ∀ i, writer i ∈ SecretWriter.all := fun _ => .head _
  obtain ⟨-, hruns⟩ := concurrent_syncs_lose_no_update
  obtain ⟨past, halone⟩ := (hruns writer hw target.key start 0).2 rfl fresh_start host
  refine ⟨⟨_, halone, progress_moved start 0 _⟩, ?_⟩
  obtain ⟨revised, hmetadata, hplan⟩ := exists_write
  obtain ⟨c', hupdate⟩ := updateAs_eq hmetadata
  let p : Plan .secret := .write revised
  have hkey : ∀ o, p = .write o → o.key = target.key := by
    intro o ho
    obtain rfl := Plan.write.inj ho
    exact Object.key_eq_of_metadata hmetadata
  have hfinished : p.carryOutAs "2" cluster = (.ok .updated, c') := by
    simp only [p, Plan.carryOutAs, hupdate]
  have hσ : Reachable sync target.key (decided p) := reachable_decided hplan
  obtain ⟨past, hσ'⟩ := reachable_ended hkey hσ
  -- What the first run leaves is another state than the one that both have read.
  obtain ⟨_, -, -, -, hending⟩ := (hruns writer hw target.key _ 0).1 hσ target p rfl "2"
  obtain ⟨-, after, hafter, hversion, -⟩ := hending.replaces (congrArg Prod.fst hfinished)
  have hnew : after ≠ target := by
    rintro rfl
    have hversions := congrArg Metadata.resourceVersion hversion
    simp [TwoRuns.target] at hversions
  have hrefused : (ended p past).cluster.refusals.update .secret target.key = none := by
    simp only [ended, hfinished]
    obtain ⟨-, -, -, -, rfl⟩ := Cluster.updateAs_eq_ok.mp hupdate
    rfl
  obtain ⟨_, -, -, -, hending'⟩ := (hruns writer hw target.key _ 1).1 hσ' target p rfl "3"
  have hconflict := hending'.conflict revised after rfl hrefused hafter hnew
  exact ⟨decided p, ended p past, p, hσ, hσ', rfl, rfl, congrArg Prod.fst hfinished, rfl, hconflict⟩

end CertKeeper
