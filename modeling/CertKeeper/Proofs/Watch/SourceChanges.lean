import CertKeeper.Proofs.Sync.Convergence
import CertKeeper.Proofs.Watch.Dependents

/-!
# Which changes of secrets are passed on

A run reads a secret whatever its type, while the filter of the changes of secrets passes on only
those that hold a certificate. Among these it passes on all that a target can notice, since a run
for a target depends on no other fields of its secrets than the filter compares.
-/

namespace CertKeeper

open Watch

namespace Mirror

/-- Whether the fields that matter decide if a run for a target has anything to do. -/
structure DecidedByFields (m : Mirror) : Prop where
  revise_congr : ∀ {c c' h h' t target loaded loaded' sources ref},
    m.controller.sync.Loads c h t target loaded → m.controller.sync.Loads c' h' t target loaded' →
    m.controller.sync.sources target = .ok sources → .secret ref ∈ sources →
    (∀ ref, .secret ref ∈ sources →
      SameFields m.fields (c.store.find? .secret ref) (c'.store.find? .secret ref)) →
    m.controller.sync.revise h loaded target = .ok none →
      m.controller.sync.revise h' loaded' target = .ok none
  /-- A secret that names itself is left as it is. -/
  revise_self : ∀ {c h t target loaded sources ref},
    m.controller.sync.Loads c h t target loaded →
    m.controller.sync.sources target = .ok sources → .secret ref ∈ sources →
    (Kind.secret, ref) = (m.controller.kind, t) →
      m.controller.sync.revise h loaded target = .ok none

end Mirror

theorem CaTarget.decidedByFields {k : Kind} {t : CaTarget k} (ht : ofKind? k = some t) :
    (⟨⟨k, t.injection⟩, [Field.caCert], t.Holds⟩ : Mirror).DecidedByFields where
  revise_congr := by
    intro c c' h h' r target loaded loaded' sources ref hl hl' hsources href hsame hrevise
    have hasked : t.asked c' h' target = t.asked c h target := by
      rw [asked_of_mem_sources hsources href, asked_of_mem_sources hsources href]
      exact ((hsame ref href).value List.mem_cons_self).symm
    have hbundles := (revise_eq_none_iff hl).mp hrevise
    rw [← hasked] at hbundles
    exact (revise_eq_none_iff hl').mpr hbundles
  revise_self := by
    intro c h r target loaded sources ref hl hsources href hself
    refine (revise_eq_none_iff hl).mpr (by_contra fun hchanged => ?_)
    exact ne_of_changed ht hl hchanged hsources href hself

namespace RouteCertificates

theorem revise_eq_none_iff {c : Cluster} {h : Host} {r : Reference} {route : Route}
    {loaded : Sources} {refs : References} (hl : kind.Loads c h r route loaded)
    (hrefs : references route = .ok refs) : derivation.revise h loaded route = .ok none ↔
      current route = wanted (c.store.find? .secret) refs (current route) := by
  have hdesired : derivation.desired h loaded route
      = .ok (wanted (c.store.find? .secret) refs (current route)) := desired_eq_wanted hl hrefs
  rw [Derivation.revise_eq_none_iff_of_desired hdesired]
  exact decide_eq_true_iff

theorem decidedByFields : (⟨⟨_, kind⟩, [Field.tlsCert, Field.tlsKey, Field.caCert], Holds⟩ :
    Mirror).DecidedByFields where
  revise_congr := by
    intro c c' h h' r route loaded loaded' sources ref hl hl' hsources href hsame hrevise
    obtain ⟨refs, hrefs, hmem⟩ := exists_references hsources
    have hcurrent := (revise_eq_none_iff hl hrefs).mp hrevise
    rw [wanted_congr (fun ref href => hsame ref ((hmem ref).mpr href))] at hcurrent
    exact (revise_eq_none_iff hl' hrefs).mpr hcurrent
  revise_self := by
    intro c h r route loaded sources ref hl hsources href hself
    cases hself

end RouteCertificates

theorem Mirror.decidedByFields {m : Mirror} (hm : m ∈ all) : m.DecidedByFields := by
  simp only [all, List.mem_cons, List.not_mem_nil, or_false] at hm
  rcases hm with rfl | rfl | rfl | rfl | rfl | rfl | rfl
  · exact CaTarget.decidedByFields rfl
  · exact CaTarget.decidedByFields rfl
  · exact CaTarget.decidedByFields rfl
  · exact CaTarget.decidedByFields rfl
  · exact CaTarget.decidedByFields rfl
  · exact CaTarget.decidedByFields rfl
  · exact RouteCertificates.decidedByFields

variable {m : Mirror} {c c' : Cluster} {h h' : Host} {t r : Reference} {old new : Secret}

theorem Mirror.DecidedByFields.fieldsDiffer (hm : m.DecidedByFields) (hc : c.SameButSecret r c')
    (hold : c.store.find? .secret r = some old) (hnew : c'.store.find? .secret r = some new)
    (hnames : m.Names c' t r)
    (hunchanged : (m.controller.sync.sync c h t).1 = .ok .unchanged)
    (hupdated : (m.controller.sync.sync c' h' t).1 = .ok .updated) :
    EventFilter.fieldsDiffer m.fields old new = true := by
  obtain ⟨_, hrun⟩ := SyncKind.exists_sync_eq (congrArg Except.toOption hunchanged)
  obtain ⟨_, hrun'⟩ := SyncKind.exists_sync_eq (congrArg Except.toOption hupdated)
  obtain ⟨-, target, loaded, hl, hrevise⟩ := SyncKind.sync_eq_unchanged.mp hrun
  obtain ⟨target', loaded', revised, hl', hrevise', -⟩ := SyncKind.sync_eq_updated.mp hrun'
  obtain ⟨named, sources, hnamed, hsources, hmem⟩ := hnames
  cases hnamed.symm.trans hl'.find?
  by_contra hdiffer
  have hsame := Mirror.fieldsDiffer_eq_false.mp (Bool.eq_false_iff.mpr hdiffer)
  have hkept : m.controller.sync.revise h' loaded' target' = .ok none := by
    by_cases hself : (Kind.secret, r) = (m.controller.kind, t)
    · exact hm.revise_self hl' hsources hmem hself
    · have htarget : target' = target := by
        have hfind := hc.find? m.controller.kind t (Ne.symm hself)
        rw [hl'.find?, hl.find?] at hfind
        exact Option.some.inj hfind
      subst htarget
      refine hm.revise_congr hl hl' hsources hmem (fun ref _ => ?_) hrevise
      by_cases href : ref = r
      · rw [href, hold, hnew]
        exact hsame
      · rw [hc.find? .secret ref (by simpa using href)]
        exact fun _ _ => rfl
  rw [hkept] at hrevise'
  cases hrevise'

/-- If a change of a secret that a target names gives the target something to do, the filter passes it
on exactly if the secret holds a certificate now. -/
theorem noticed_change_accepted_iff_tls (hm : m ∈ Mirror.all) (hc : c.SameButSecret r c')
    (hold : c.store.find? .secret r = some old) (hnew : c'.store.find? .secret r = some new)
    (hnames : m.Names c' t r)
    (hunchanged : (m.controller.sync.sync c h t).1 = .ok .unchanged)
    (hupdated : (m.controller.sync.sync c' h' t).1 = .ok .updated) :
    ∃ f, m.controller.sync.sourceFilter = some f ∧
      (f.accepts (.updated old new) = true ↔ new.content.type = some Field.tlsSecretType) := by
  refine ⟨_, (Mirror.lawful hm).sourceFilter, ?_⟩
  have hdiffer := (Mirror.decidedByFields hm).fieldsDiffer hc hold hnew hnames hunchanged hupdated
  simp only [EventFilter.accepts, EventFilter.tlsSourceChanged, hdiffer, Bool.and_true,
    Secret.Content.isTls, beq_iff_eq]

namespace SourceTypes

open CaTarget.NamedSecret

def secret (type : String) (version : String) (bundle : Bytes) : Secret :=
  let s := (source bundle).withResourceVersion (some version)
  { s with content := { s.content with type := some type } }

def cluster (s : Secret) : Cluster := .ofStore ((Store.empty.seed RenewedSecret.target).seed s)

def run (s : Secret) : Except SyncError Outcome × Cluster :=
  CaTarget.configMap.injection.sync (cluster s) host RenewedSecret.target.key

def accepts (type : String) : Option Bool :=
  CaTarget.configMap.injection.sourceFilter.map fun f =>
    f.accepts (.updated (secret type "1" [65]) (secret type "2" [66]))

theorem sameButSecret (type : String) :
    (cluster (secret type "1" [65])).SameButSecret ⟨"ns", "ca"⟩ (cluster (secret type "2" [66])) := by
  refine ⟨rfl, fun k r hne => ?_⟩
  have hseed (s : Secret) (hs : s.key = ⟨"ns", "ca"⟩) : (cluster s).store.find? k r
      = (Store.empty.seed RenewedSecret.target).find? k r :=
    Store.find?_insert_of_ne _ _ (hs ▸ hne)
  rw [hseed _ rfl, hseed _ rfl]

theorem names (type : String) :
    (⟨⟨_, CaTarget.configMap.injection⟩, [Field.caCert], CaTarget.configMap.Holds⟩ : Mirror).Names
      (cluster (secret type "2" [66])) RenewedSecret.target.key ⟨"ns", "ca"⟩ := by
  refine ⟨RenewedSecret.target, [.secret ⟨"ns", "ca"⟩], ?_, rfl, List.mem_cons_self⟩
  exact (Store.find?_insert_of_ne _ _ (by simp)).trans (Store.find?_insert _ _)

end SourceTypes

open SourceTypes in
theorem noticed_change_accepted_iff_tls_renewed : accepts Field.tlsSecretType = some true := by
  let m : Mirror := ⟨⟨_, CaTarget.configMap.injection⟩, [Field.caCert], CaTarget.configMap.Holds⟩
  have hm : m ∈ Mirror.all := .head _
  have hold : (cluster (secret Field.tlsSecretType "1" [65])).store.find? .secret ⟨"ns", "ca"⟩
      = some (secret Field.tlsSecretType "1" [65]) := Store.find?_insert _ _
  have hnew : (cluster (secret Field.tlsSecretType "2" [66])).store.find? .secret ⟨"ns", "ca"⟩
      = some (secret Field.tlsSecretType "2" [66]) := Store.find?_insert _ _
  have hunchanged : (run (secret Field.tlsSecretType "1" [65])).1.toOption = some .unchanged := by
    decide +kernel
  have hupdated : (run (secret Field.tlsSecretType "2" [66])).1.toOption = some .updated := by
    decide +kernel
  obtain ⟨_, hunchanged⟩ := SyncKind.exists_sync_eq hunchanged
  obtain ⟨_, hupdated⟩ := SyncKind.exists_sync_eq hupdated
  obtain ⟨f, hf, haccepts⟩ := noticed_change_accepted_iff_tls hm (sameButSecret _) hold hnew
    (names _) (congrArg Prod.fst hunchanged) (congrArg Prod.fst hupdated)
  have hf : CaTarget.configMap.injection.sourceFilter = some f := hf
  rw [accepts, hf, Option.map_some, haccepts.mpr rfl]

open SourceTypes in
/-- A secret of another type is read, yet its changes are not passed on. -/
theorem noticed_change_of_other_type_dropped :
    CaTarget.configMap.sources RenewedSecret.target = .ok [.secret ⟨"ns", "ca"⟩] ∧
    (run (secret "Opaque" "1" [65])).1.toOption = some .unchanged ∧
    (run (secret "Opaque" "2" [66])).1.toOption = some .updated ∧
    accepts "Opaque" = some false := by
  refine ⟨rfl, ?_, ?_, rfl⟩
  · decide +kernel
  · decide +kernel

end CertKeeper
