import CertKeeper.Proofs.Except
import CertKeeper.Proofs.Store.Update
import CertKeeper.Sync.Basic

/-!
# How runs end

A run ends in one of nine ways, and how it ends is known from what it reads. One that leaves its
target as it is, or updates it, has fetched the target, has read all of its sources and has derived
the fields of the target from them.
-/

namespace CertKeeper

namespace Source

variable {c : Cluster} {h : Host} {material : Material}

theorem read_secret_eq_ok {ref : Reference} : (secret ref).read c h = .ok material ↔
    ∃ s, c.get .secret ref = .ok (some s) ∧ s.content.material = material := by
  cases hget : c.get .secret ref with
  | error e => simp [read, hget]
  | ok found => cases found <;> simp [read, hget]

theorem read_systemCa_eq_ok : systemCa.read c h = .ok material ↔
    ∃ bundle, h.systemCa = .ok bundle ∧ (∅ : Material).insert Field.caCert bundle = material := by
  cases hca : h.systemCa <;> simp [read, Host.systemCaMaterial, hca]

theorem readAll_singleton_eq_ok {source : Source} {loaded : Sources} :
    readAll c h [source] = .ok loaded ↔
      ∃ material, source.read c h = .ok material ∧ loaded = [(source, material)] := by
  simp only [readAll, bind_eq_ok, ok_bind, Except.ok.injEq, eq_comm (a := loaded)]

theorem read_congr {c' : Cluster} {h' : Host} {source : Source}
    (hget : ∀ ref, source = secret ref → c'.get .secret ref = c.get .secret ref)
    (hca : h'.systemCa = h.systemCa) (hread : source.read c h = .ok material) :
    source.read c' h' = .ok material := by
  cases source with
  | secret ref =>
    rw [read_secret_eq_ok] at hread ⊢
    rwa [hget ref rfl]
  | systemCa =>
    rw [read_systemCa_eq_ok] at hread ⊢
    rwa [hca]

theorem readAll_congr {c' : Cluster} {h' : Host} {sources : List Source} {loaded : Sources}
    (hget : ∀ ref, secret ref ∈ sources → c'.get .secret ref = c.get .secret ref)
    (hca : h'.systemCa = h.systemCa) (hread : readAll c h sources = .ok loaded) :
    readAll c' h' sources = .ok loaded := by
  induction sources generalizing loaded with
  | nil => exact hread
  | cons source rest ih =>
    obtain ⟨material, hmaterial, hread⟩ := bind_eq_ok.mp hread
    obtain ⟨others, hothers, hread⟩ := bind_eq_ok.mp hread
    cases hread
    have hmaterial' : source.read c' h' = .ok material :=
      read_congr (fun ref href => hget ref (href ▸ List.mem_cons_self)) hca hmaterial
    have hothers' := ih (fun ref href => hget ref (List.mem_cons_of_mem _ href)) hothers
    simp only [readAll, hmaterial', hothers', ok_bind]

theorem readAll_congr_read {c' : Cluster} {h' : Host} {sources : List Source}
    (hread : ∀ source ∈ sources, source.read c' h' = source.read c h) :
    readAll c' h' sources = readAll c h sources := by
  induction sources with
  | nil => rfl
  | cons source rest ih =>
    have hrest := ih fun source hsource => hread source (List.mem_cons_of_mem _ hsource)
    rw [readAll, readAll, hread source List.mem_cons_self, hrest]

end Source

theorem Sources.field_singleton (source : Source) (material : Material) (key : String) :
    Sources.field [(source, material)] source key = material[key]?.bind Bytes.nonEmpty? := by
  rw [Sources.field, List.lookup_cons_self, Option.bind_some]

namespace SyncKind

variable {k : Kind} {s : SyncKind k} {c c' : Cluster} {h : Host} {r : Reference}

/-- What a run for `r` has read before it derives anything: its target and the sources of that. -/
structure Loads (s : SyncKind k) (c : Cluster) (h : Host) (r : Reference) (target : Object k)
    (loaded : Sources) : Prop where
  get : c.get k r = .ok (some target)
  applies : s.applies target = true
  readAll : ∃ sources, s.sources target = .ok sources ∧ Source.readAll c h sources = .ok loaded

theorem Loads.find? {target : Object k} {loaded : Sources} (hl : s.Loads c h r target loaded) :
    c.store.find? k r = some target :=
  (Cluster.get_eq_ok.mp hl.get).2

theorem Loads.key_eq {target : Object k} {loaded : Sources} (hl : s.Loads c h r target loaded) :
    target.key = r :=
  Store.key_of_find? hl.find?

theorem exists_sync_eq {outcome : Outcome} (ho : (s.sync c h r).1.toOption = some outcome) :
    ∃ c', s.sync c h r = (.ok outcome, c') := by
  cases hr : s.sync c h r with
  | mk result c' =>
    rw [hr] at ho
    cases result with
    | error e => cases ho
    | ok found =>
      cases ho
      exact ⟨c', rfl⟩

/-- The ways in which a run for `r` ends, each with what has been read by then. -/
inductive Ends (s : SyncKind k) (c : Cluster) (h : Host) (r : Reference) :
    Except SyncError Outcome × Cluster → Prop where
  | unreachable {e : ApiError} (hget : c.get k r = .error e) : Ends s c h r (.error (.api e), c)
  | missing (hget : c.get k r = .ok none) : Ends s c h r (.ok .missing, c)
  | skipped {target : Object k} (hget : c.get k r = .ok (some target))
      (happlies : s.applies target = false) : Ends s c h r (.ok .skipped, c)
  | unresolved {target : Object k} {e : SyncError} (hget : c.get k r = .ok (some target))
      (happlies : s.applies target = true) (hsources : s.sources target = .error e) :
      Ends s c h r (.error e, c)
  | unread {target : Object k} {sources : List Source} {e : SyncError}
      (hget : c.get k r = .ok (some target)) (happlies : s.applies target = true)
      (hsources : s.sources target = .ok sources) (hread : Source.readAll c h sources = .error e) :
      Ends s c h r (.error e, c)
  | underived {target : Object k} {loaded : Sources} {e : SyncError}
      (hl : s.Loads c h r target loaded) (hrevise : s.revise h loaded target = .error e) :
      Ends s c h r (.error e, c)
  | unchanged {target : Object k} {loaded : Sources} (hl : s.Loads c h r target loaded)
      (hrevise : s.revise h loaded target = .ok none) : Ends s c h r (.ok .unchanged, c)
  | refused {target revised : Object k} {loaded : Sources} {e : ApiError}
      (hl : s.Loads c h r target loaded) (hrevise : s.revise h loaded target = .ok (some revised))
      (hupdate : c.update revised = .error e) : Ends s c h r (.error (.api e), c)
  | updated {target revised : Object k} {loaded : Sources} {c' : Cluster}
      (hl : s.Loads c h r target loaded) (hrevise : s.revise h loaded target = .ok (some revised))
      (hupdate : c.update revised = .ok c') : Ends s c h r (.ok .updated, c')

theorem Loads.plan_eq {target : Object k} {loaded : Sources} (hl : s.Loads c h r target loaded) :
    s.plan c h r = (s.revise h loaded target).bind fun revised => .ok <|
      match revised with
      | none => .keep
      | some revised => .write revised := by
  obtain ⟨sources, hsources, hread⟩ := hl.readAll
  simp only [plan, hl.get, planFor, hl.applies, hsources, hread, ok_bind, Bool.not_true,
    Bool.false_eq_true, if_false]
  cases s.revise h loaded target with
  | error e => rfl
  | ok revised => cases revised <;> rfl

theorem Loads.ends_sync {target : Object k} {loaded : Sources}
    (hl : s.Loads c h r target loaded) : s.Ends c h r (s.sync c h r) := by
  rw [sync, hl.plan_eq]
  cases hrevise : s.revise h loaded target with
  | error e => exact .underived hl hrevise
  | ok revised =>
    cases revised with
    | none => exact .unchanged hl hrevise
    | some revised =>
      show s.Ends c h r (Plan.carryOut c (.write revised))
      rw [Plan.carryOut]
      cases hupdate : c.update revised with
      | error e => exact .refused hl hrevise hupdate
      | ok c' => exact .updated hl hrevise hupdate

theorem ends_sync (s : SyncKind k) (c : Cluster) (h : Host) (r : Reference) :
    s.Ends c h r (s.sync c h r) := by
  cases hget : c.get k r with
  | error e =>
    have hsync : s.sync c h r = (.error (.api e), c) := by simp [sync, plan, hget]
    exact hsync ▸ .unreachable hget
  | ok found =>
    cases found with
    | none =>
      have hsync : s.sync c h r = (.ok .missing, c) := by simp [sync, plan, hget, Plan.carryOut]
      exact hsync ▸ .missing hget
    | some target =>
      cases happlies : s.applies target with
      | false =>
        have hsync : s.sync c h r = (.ok .skipped, c) := by
          simp [sync, plan, hget, planFor, happlies, Plan.carryOut]
        exact hsync ▸ .skipped hget happlies
      | true =>
        cases hsources : s.sources target with
        | error e =>
          have hsync : s.sync c h r = (.error e, c) := by
            simp [sync, plan, hget, planFor, happlies, hsources]
          exact hsync ▸ .unresolved hget happlies hsources
        | ok sources =>
          cases hread : Source.readAll c h sources with
          | error e =>
            have hsync : s.sync c h r = (.error e, c) := by
              simp [sync, plan, hget, planFor, happlies, hsources, hread]
            exact hsync ▸ .unread hget happlies hsources hread
          | ok loaded => exact Loads.ends_sync ⟨hget, happlies, sources, hsources, hread⟩

theorem refusals_sync (s : SyncKind k) (c : Cluster) (h : Host) (r : Reference) :
    (s.sync c h r).2.refusals = c.refusals := by
  have hends := ends_sync s c h r
  generalize s.sync c h r = run at hends
  cases hends with
  | updated hl hrevise hupdate => exact Cluster.refusals_update hupdate
  | _ => rfl

theorem sync_eq_unchanged : s.sync c h r = (.ok .unchanged, c') ↔
    c' = c ∧ ∃ target loaded, s.Loads c h r target loaded ∧ s.revise h loaded target = .ok none := by
  constructor
  · intro hrun
    have hends := ends_sync s c h r
    rw [hrun] at hends
    cases hends with
    | unchanged hl hrevise => exact ⟨rfl, _, _, hl, hrevise⟩
  · rintro ⟨rfl, target, loaded, hl, hrevise⟩
    rw [sync, hl.plan_eq, hrevise]
    rfl

theorem sync_eq_updated : s.sync c h r = (.ok .updated, c') ↔
    ∃ target loaded revised, s.Loads c h r target loaded ∧
      s.revise h loaded target = .ok (some revised) ∧ c.update revised = .ok c' := by
  constructor
  · intro hrun
    have hends := ends_sync s c h r
    rw [hrun] at hends
    cases hends with
    | updated hl hrevise hupdate => exact ⟨_, _, _, hl, hrevise, hupdate⟩
  · rintro ⟨target, loaded, revised, hl, hrevise, hupdate⟩
    rw [sync, hl.plan_eq, hrevise]
    show Plan.carryOut c (.write revised) = _
    rw [Plan.carryOut, hupdate]

theorem sync_eq_skipped : s.sync c h r = (.ok .skipped, c') ↔
    c' = c ∧ ∃ target, c.get k r = .ok (some target) ∧ s.applies target = false := by
  constructor
  · intro hrun
    have hends := ends_sync s c h r
    rw [hrun] at hends
    cases hends with
    | skipped hget happlies => exact ⟨rfl, _, hget, happlies⟩
  · rintro ⟨rfl, target, hget, happlies⟩
    simp [sync, plan, hget, planFor, happlies, Plan.carryOut]

theorem snd_sync_eq_of_ne (hr : (s.sync c h r).1 ≠ .ok .updated) : (s.sync c h r).2 = c := by
  have hends := ends_sync s c h r
  cases hsync : s.sync c h r with
  | mk result c' =>
    rw [hsync] at hends hr
    cases hends with
    | updated hl hrevise hupdate => exact absurd rfl hr
    | _ => rfl

theorem Loads.unique {target target' : Object k} {loaded loaded' : Sources}
    (hl : s.Loads c h r target loaded) (hl' : s.Loads c h r target' loaded') :
    target' = target ∧ loaded' = loaded := by
  have htarget : target' = target := by
    have hget := hl'.get
    rw [hl.get] at hget
    cases hget
    rfl
  subst htarget
  obtain ⟨sources, hsources, hread⟩ := hl.readAll
  obtain ⟨sources', hsources', hread'⟩ := hl'.readAll
  cases hsources.symm.trans hsources'
  cases hread.symm.trans hread'
  exact ⟨rfl, rfl⟩

theorem Loads.sync_eq_unchanged_iff {target : Object k} {loaded : Sources}
    (hl : s.Loads c h r target loaded) :
    s.sync c h r = (.ok .unchanged, c) ↔ s.revise h loaded target = .ok none := by
  rw [sync_eq_unchanged]
  constructor
  · rintro ⟨-, target', loaded', hl', hrevise⟩
    obtain ⟨rfl, rfl⟩ := hl.unique hl'
    exact hrevise
  · intro hrevise
    exact ⟨rfl, target, loaded, hl, hrevise⟩

end SyncKind

namespace Derivation

variable {k : Kind} {α : Type} {d : Derivation k α} {h : Host} {loaded : Sources}
  {target : Object k}

theorem revise_eq_none : d.revise h loaded target = .ok none ↔
    ∃ value, d.desired h loaded target = .ok value ∧
      d.unchanged target (d.current target) value = true := by
  simp only [revise, bind_eq_ok, Except.ok.injEq]
  constructor
  · rintro ⟨value, hvalue, hr⟩
    split at hr
    · rename_i hunchanged
      exact ⟨value, hvalue, hunchanged⟩
    · cases hr
  · rintro ⟨value, hvalue, hunchanged⟩
    exact ⟨value, hvalue, if_pos hunchanged⟩

theorem revise_eq_none_iff_of_desired {value : α} (hvalue : d.desired h loaded target = .ok value) :
    d.revise h loaded target = .ok none ↔ d.unchanged target (d.current target) value = true := by
  rw [revise_eq_none]
  constructor
  · rintro ⟨found, hfound, hunchanged⟩
    cases hvalue.symm.trans hfound
    exact hunchanged
  · intro hunchanged
    exact ⟨value, hvalue, hunchanged⟩

theorem revise_eq_some {revised : Object k} : d.revise h loaded target = .ok (some revised) ↔
    ∃ value, d.desired h loaded target = .ok value ∧
      ¬ d.unchanged target (d.current target) value = true ∧ revised = d.write value target := by
  simp only [revise, bind_eq_ok, Except.ok.injEq]
  constructor
  · rintro ⟨value, hvalue, hr⟩
    split at hr
    · cases hr
    · rename_i hchanged
      cases hr
      exact ⟨value, hvalue, hchanged, rfl⟩
  · rintro ⟨value, hvalue, hchanged, rfl⟩
    exact ⟨value, hvalue, if_neg hchanged⟩

end Derivation

namespace SyncKind

variable {k : Kind} {α : Type} {s : SyncKind k} {d : Derivation k α} {c c' : Cluster} {h : Host}
  {r : Reference} {outcome : Outcome}

/-- Whether the targets of a kind are revised by a derivation, which leaves their metadata alone. -/
structure RevisedBy (s : SyncKind k) (d : Derivation k α) : Prop where
  revise : s.revise = d.revise
  metadata : ∀ value target, (d.write value target).metadata = target.metadata

/-- An update leaves behind the target with a new value written to it, under a new version. -/
theorem RevisedBy.of_updated (hs : s.RevisedBy d) (hrun : s.sync c h r = (.ok .updated, c')) :
    ∃ target loaded value version, s.Loads c h r target loaded ∧
      d.desired h loaded target = .ok value ∧
      ¬ d.unchanged target (d.current target) value = true ∧
      c.update (d.write value target) = .ok c' ∧
        c'.get k r = .ok (some ((d.write value target).withResourceVersion version)) := by
  obtain ⟨target, loaded, revised, hl, hrevise, hupdate⟩ := sync_eq_updated.mp hrun
  rw [hs.revise] at hrevise
  obtain ⟨value, hvalue, hchanged, rfl⟩ := Derivation.revise_eq_some.mp hrevise
  have hkey : (d.write value target).key = r := by
    rw [← hl.key_eq, Object.key_eq_of_metadata (hs.metadata value target)]
  subst hkey
  obtain ⟨version, hget⟩ := Cluster.get_update hupdate (Cluster.get_eq_ok.mp hl.get).1
  exact ⟨target, loaded, value, version, hl, hvalue, hchanged, hupdate, hget⟩

/-- A run that is done leaves its target behind: as it was, where the derived value could stay, or
with a new value written to it under a new version. -/
theorem RevisedBy.exists_after (hs : s.RevisedBy d)
    (hrun : s.sync c h r = (.ok outcome, c'))
    (hdone : outcome = .updated ∨ outcome = .unchanged) :
    ∃ target loaded value after, s.Loads c h r target loaded ∧
      d.desired h loaded target = .ok value ∧ c'.get k r = .ok (some after) ∧
        (d.unchanged target (d.current target) value = true ∧ after = target ∧ c' = c ∨
          ∃ version, after = (d.write value target).withResourceVersion version ∧
            c.update (d.write value target) = .ok c') := by
  rcases hdone with rfl | rfl
  · obtain ⟨target, loaded, value, version, hl, hvalue, -, hupdate, hget⟩ := hs.of_updated hrun
    exact ⟨target, loaded, value, _, hl, hvalue, hget, .inr ⟨version, rfl, hupdate⟩⟩
  · obtain ⟨rfl, target, loaded, hl, hrevise⟩ := sync_eq_unchanged.mp hrun
    rw [hs.revise] at hrevise
    obtain ⟨value, hvalue, hunchanged⟩ := Derivation.revise_eq_none.mp hrevise
    exact ⟨target, loaded, value, target, hl, hvalue, hl.get, .inl ⟨hunchanged, rfl, rfl⟩⟩

/-- Whether a kind without sources derives the same, at whatever time and with whatever salts, from
all that it has made of a target. `same` relates a target to what may be made of it. -/
structure Stable (s : SyncKind k) (d : Derivation k α) (same : Object k → Object k → Prop) :
    Prop extends s.RevisedBy d where
  sources : ∀ target, s.sources target = .ok []
  refl : ∀ target, same target target
  write : ∀ value target version,
    same target ((d.write value target).withResourceVersion version)
  applies : ∀ target target', same target target' → s.applies target' = s.applies target
  current_write : ∀ h target value version, d.desired h [] target = .ok value →
    d.current ((d.write value target).withResourceVersion version) = value
  desired_again : ∀ h h' target target' value, same target target' →
    d.desired h [] target = .ok value →
      ∃ value', d.desired h' [] target' = .ok value' ∧ d.unchanged target' value value' = true
  unchanged_trans : ∀ target a b e, d.unchanged target a b = true →
    d.unchanged target b e = true → d.unchanged target a e = true

/-- After a run that is done, a new derivation leaves the target as it is, and so does every further
run. -/
theorem Stable.run {same : Object k → Object k → Prop} (hs : s.Stable d same)
    (hrun : s.sync c h r = (.ok outcome, c'))
    (hdone : outcome = .updated ∨ outcome = .unchanged) :
    ∃ before after, c.store.find? k r = some before ∧ c'.store.find? k r = some after ∧
      same before after ∧ d.revise h [] after = .ok none ∧
        ∀ h', s.sync c' h' r = (.ok .unchanged, c') := by
  obtain ⟨before, loaded, value, after, hl, hvalue, hget, hafter⟩ := hs.exists_after hrun hdone
  obtain ⟨sources, hsources, hloaded⟩ := hl.readAll
  cases (hs.sources before).symm.trans hsources
  cases hloaded
  have hsame : same before after := by
    rcases hafter with ⟨-, rfl, -⟩ | ⟨version, rfl, -⟩
    · exact hs.refl after
    · exact hs.write value before version
  have hrevise (h' : Host) : d.revise h' [] after = .ok none := by
    obtain ⟨value', hvalue', hunchanged⟩ := hs.desired_again h h' before after value hsame hvalue
    refine Derivation.revise_eq_none.mpr ⟨value', hvalue', ?_⟩
    rcases hafter with ⟨hcurrent, rfl, -⟩ | ⟨version, rfl, -⟩
    · exact hs.unchanged_trans _ _ _ _ hcurrent hunchanged
    · rwa [hs.current_write h before value version hvalue]
  have happlies : s.applies after = true := by rw [hs.applies before after hsame, hl.applies]
  refine ⟨before, after, hl.find?, (Cluster.get_eq_ok.mp hget).2, hsame, hrevise h, fun h' => ?_⟩
  have hl' : s.Loads c' h' r after [] := ⟨hget, happlies, [], hs.sources after, rfl⟩
  exact sync_eq_unchanged.mpr ⟨rfl, after, [], hl', by rw [hs.revise, hrevise]⟩

end SyncKind
end CertKeeper
