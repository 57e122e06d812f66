import CertKeeper.Proofs.Sync.Sequence

/-!
# Only dependents depend

The targets that name a secret are found by a search through the cluster, and what a target becomes
is known from the target and from what it names. So the search for the dependents of a secret misses
none: the run for any other target ends alike whatever becomes of the secret. The same holds of the
file of the system CA.
-/

namespace CertKeeper

namespace Cluster

variable {k : Kind} {c c' : Cluster} {r r' : Reference}

/-- Whether two clusters differ at most in one secret. -/
structure SameButSecret (r : Reference) (c c' : Cluster) : Prop where
  refusals : c'.refusals = c.refusals
  find? : ∀ k r', (k, r') ≠ (.secret, r) → c'.store.find? k r' = c.store.find? k r'

theorem SameButSecret.alikeAt (hc : c.SameButSecret r c') (hne : (k, r') ≠ (.secret, r)) :
    AlikeAt k r' c c' :=
  ⟨hc.find? k r' hne, by rw [hc.refusals], by rw [hc.refusals]⟩

end Cluster

theorem Plan.carryOut_congr {k : Kind} {c c' : Cluster} {r : Reference} {p : Plan k}
    (hkey : ∀ o, p = .write o → o.key = r) (hc : Cluster.AlikeAt k r c c') :
    (p.carryOut c').1 = (p.carryOut c).1 ∧
      (p.carryOut c').2.store.find? k r = (p.carryOut c).2.store.find? k r := by
  cases p with
  | missing | skip | keep => exact ⟨rfl, hc.find?⟩
  | write o =>
    cases hkey o rfl
    have hupdate := hc.map_update
    rw [carryOut, carryOut]
    cases hafter : c.update o <;> cases hafter' : c'.update o <;>
      simp only [hafter, hafter', Except.map, reduceCtorEq, Except.error.injEq, Except.ok.injEq]
        at hupdate
    · exact ⟨by rw [hupdate], hc.find?⟩
    · exact ⟨rfl, hupdate⟩

namespace SyncKind

variable {k : Kind} {s : SyncKind k} {c c' : Cluster} {h h' : Host} {r : Reference}
  {target : Object k} {same : k.Content → k.Content → Prop}

/-- A plan is known from what is read from the sources of the target. -/
theorem planFor_congr (hrevise : s.revise h' = s.revise h)
    (hread : s.applies target = true → ∀ sources, s.sources target = .ok sources →
      ∀ source ∈ sources, source.read c' h' = source.read c h) :
    s.planFor c' h' target = s.planFor c h target := by
  unfold planFor
  cases happlies : s.applies target with
  | false => rfl
  | true =>
    cases hsources : s.sources target with
    | error e => rfl
    | ok sources =>
      simp only [ok_bind, Source.readAll_congr_read (hread happlies sources hsources), hrevise]

theorem Keeps.sync_congr (hs : s.Keeps same) (hc : Cluster.AlikeAt k r c c')
    (hplan : ∀ target, c.store.find? k r = some target →
      s.planFor c' h' target = s.planFor c h target) :
    (s.sync c' h' r).1 = (s.sync c h r).1 ∧
      (s.sync c' h' r).2.store.find? k r = (s.sync c h r).2.store.find? k r := by
  unfold sync plan
  rw [hc.get]
  cases hget : c.get k r with
  | error e => exact ⟨rfl, hc.find?⟩
  | ok found =>
    cases found with
    | none => exact ⟨rfl, hc.find?⟩
    | some target =>
      have htarget := (Cluster.get_eq_ok.mp hget).2
      simp only [hplan target htarget]
      cases hp : s.planFor c h target with
      | error e => exact ⟨rfl, hc.find?⟩
      | ok p =>
        refine Plan.carryOut_congr (fun o ho => ?_) hc
        rw [hs.key_of_planFor (ho ▸ hp), Store.key_of_find? htarget]

/-- Whether all that a run depends on besides its target is named by the target, so that a search
finds the targets that name it. -/
structure Traceable (s : SyncKind k) : Prop where
  keeps : s.Keeps fun _ _ => True
  staysLocal : s.StaysLocal
  /-- The file of the system CA matters as a source only. -/
  revise_systemCa : ∀ h file bundle,
    s.revise { h with systemCaFile := file, systemCa := bundle } = s.revise h
  /-- A secret goes before the system CA. -/
  dependsOn_systemCa : ∀ target : Object k, s.dependsOn .systemCa target = true ↔
    s.usesSystemCa = true ∧ target.annotations[Key.injectCaFromServiceCa]? = some "true" ∧
      target.annotations[Key.injectCaFromSecret]? = none

theorem Traceable.of_sources_nil {α : Type} {d : Derivation k α} (hs : s.RevisedBy d)
    (hsources : ∀ target, s.sources target = .ok []) (hlocal : s.localSources = false)
    (hca : s.usesSystemCa = false)
    (hrevise : ∀ h file bundle,
      s.revise { h with systemCaFile := file, systemCa := bundle } = s.revise h) :
    s.Traceable where
  keeps := hs.keeps fun _ _ => trivial
  staysLocal h := by
    rw [hlocal] at h
    cases h
  revise_systemCa := hrevise
  dependsOn_systemCa target := by simp [dependsOn, hsources, hca]

theorem mem_resolveSystemCa (hlist : c.refusals.list k = none) {ref : ObjectRef} :
    ref ∈ s.resolveSystemCa c ↔ ∃ target, c.store.find? k target.key = some target ∧
      s.dependsOn .systemCa target = true ∧ target.ref = ref := by
  rw [resolveSystemCa, mem_resolve hlist]
  simp only [Option.all_none, true_and]

theorem notMem_sources {source : Source} {found : List ObjectRef}
    (hfound : ∀ ref, ref ∈ found ↔ ∃ target, c.store.find? k target.key = some target ∧
      s.dependsOn source target = true ∧ target.ref = ref)
    (hr : r ∉ found.map ObjectRef.key) (htarget : c.store.find? k r = some target)
    (happlies : s.applies target = true) {sources : List Source}
    (hsources : s.sources target = .ok sources) : source ∉ sources := by
  intro hsource
  obtain rfl := Store.key_of_find? htarget
  have hdepends := dependsOn_iff.mpr ⟨happlies, sources, hsources, hsource⟩
  exact hr (List.mem_map.mpr ⟨target.ref, (hfound _).mpr ⟨target, htarget, hdepends, rfl⟩, rfl⟩)

/-- The run for a target that does not name a secret ends alike whatever becomes of the secret. -/
theorem Traceable.sync_of_notMem_resolveSource (hs : s.Traceable)
    (hlist : c.refusals.list k = none) {t : Reference} (hc : c.SameButSecret r c')
    (hne : (k, t) ≠ (.secret, r)) (ht : t ∉ (s.resolveSource c r).map ObjectRef.key) :
    (s.sync c' h t).1 = (s.sync c h t).1 ∧
      (s.sync c' h t).2.store.find? k t = (s.sync c h t).2.store.find? k t := by
  refine hs.keeps.sync_congr (hc.alikeAt hne) fun target htarget => ?_
  refine planFor_congr rfl fun happlies sources hsources source hsource => ?_
  cases source with
  | systemCa => rfl
  | secret ref =>
    have hr := notMem_sources (fun ref => mem_resolveSource hs.staysLocal hlist) ht htarget
      happlies hsources
    have href : ref ≠ r := fun href => hr (href ▸ hsource)
    rw [Source.read, Source.read, (hc.alikeAt (by simpa using href)).get]

theorem Traceable.sync_of_notMem_resolveSystemCa (hs : s.Traceable)
    (hlist : c.refusals.list k = none) (ht : r ∉ (s.resolveSystemCa c).map ObjectRef.key)
    (file : String) (bundle : Except String Bytes) :
    s.sync c { h with systemCaFile := file, systemCa := bundle } r = s.sync c h r := by
  unfold sync plan
  cases hget : c.get k r with
  | error e => rfl
  | ok found =>
    cases found with
    | none => rfl
    | some target =>
      have hplan : s.planFor c { h with systemCaFile := file, systemCa := bundle } target
          = s.planFor c h target := by
        refine planFor_congr (hs.revise_systemCa h file bundle) ?_
        intro happlies sources hsources source hsource
        cases source with
        | secret ref => rfl
        | systemCa =>
          have hca := notMem_sources (fun ref => mem_resolveSystemCa hlist) ht
            (Cluster.get_eq_ok.mp hget).2 happlies hsources
          exact absurd hsource hca
      simp only [hplan]

end SyncKind

namespace CaTarget

variable {k : Kind} {t : CaTarget k} {o : Object k}

theorem eligible_of_takesSystemCa (ht : ofKind? k = some t) (htakes : t.takesSystemCa = true) :
    t.eligible o = true := by
  cases k <;> cases ht
  case apiService | customResourceDefinition | mutatingWebhookConfiguration |
    validatingWebhookConfiguration => rfl
  case configMap | secret => cases htakes

theorem sources_eq_systemCa (htakes : t.takesSystemCa = true)
    (hca : o.annotations[Key.injectCaFromServiceCa]? = some "true")
    (hnone : o.annotations[Key.injectCaFromSecret]? = none) : t.sources o = .ok [.systemCa] := by
  simp [sources, Annotations.qualifiedReference, Annotations.isEnabled, hnone, hca, htakes]

theorem traceable (ht : ofKind? k = some t) : t.injection.Traceable where
  keeps := (lawful_of_ofKind? ht).keeps fun _ _ => trivial
  staysLocal hlocal := by cases hlocal
  revise_systemCa _ _ _ := rfl
  dependsOn_systemCa o := by
    rw [SyncKind.dependsOn_iff]
    constructor
    · rintro ⟨-, sources, hsources, hmem⟩
      rcases sources_eq_ok hsources with ⟨raw, ref, -, -, rfl⟩ | ⟨hnone, ⟨htakes, hca⟩, rfl⟩ |
        ⟨-, -, rfl⟩
      · cases List.mem_singleton.mp hmem
      · exact ⟨htakes, hca, hnone⟩
      · cases hmem
    · rintro ⟨htakes, hca, hnone⟩
      exact ⟨eligible_of_takesSystemCa ht htakes, _, sources_eq_systemCa htakes hca hnone,
        List.mem_cons_self⟩

end CaTarget

namespace RouteCertificates

theorem systemCa_notMem_sources {route : Route} {sources : List Source}
    (hsources : RouteCertificates.sources route = .ok sources) : .systemCa ∉ sources := by
  obtain ⟨refs, -, hsources⟩ := bind_eq_ok.mp hsources
  cases hsources
  simp

theorem traceable : kind.Traceable where
  keeps := revisedBy.keeps fun _ _ => trivial
  staysLocal _ _ _ _ hsources hmem := ns_of_mem_sources hsources hmem
  revise_systemCa _ _ _ := rfl
  dependsOn_systemCa route := by
    rw [SyncKind.dependsOn_iff]
    constructor
    · rintro ⟨-, sources, hsources, hmem⟩
      exact absurd hmem (systemCa_notMem_sources hsources)
    · rintro ⟨hca, -⟩
      cases hca

end RouteCertificates

theorem Controller.traceable {w : Controller} (hw : w ∈ all) : w.sync.Traceable := by
  simp only [all, List.mem_cons, List.not_mem_nil, or_false] at hw
  rcases hw with rfl | rfl | rfl | rfl | rfl | rfl | rfl | rfl | rfl | rfl
  · exact CaTarget.traceable rfl
  · exact CaTarget.traceable rfl
  · exact CaTarget.traceable rfl
  · exact CaTarget.traceable rfl
  · exact CaTarget.traceable rfl
  · exact CaTarget.traceable rfl
  · exact .of_sources_nil JavaKeystores.stable.toRevisedBy (fun _ => rfl) rfl rfl fun _ _ _ => rfl
  · exact .of_sources_nil Truststore.stable.toRevisedBy (fun _ => rfl) rfl rfl fun _ _ _ => rfl
  · exact .of_sources_nil CertificateInfo.revisedBy (fun _ => rfl) rfl rfl fun _ _ _ => rfl
  · exact RouteCertificates.traceable

/-- The search for the dependents of a secret finds each target that names the secret once, wherever
it is, and nothing else, and the run for any other target ends alike whatever becomes of the secret.
The search for those of the system CA finds each target once that has opted in to it and names no
secret, and the run for any other target is the same whatever the file holds. -/
theorem search_finds_dependents {w : Controller} (hw : w ∈ Controller.all) {c : Cluster}
    (hlist : c.refusals.list w.kind = none) :
    (∀ r, ((w.sync.resolveSource c r).map ObjectRef.key).Nodup ∧
      (∀ ref, ref ∈ w.sync.resolveSource c r ↔ ∃ target,
        c.store.find? w.kind target.key = some target ∧ w.sync.applies target = true ∧
          (∃ sources, w.sync.sources target = .ok sources ∧ .secret r ∈ sources) ∧
            target.ref = ref) ∧
      ∀ c' h t, c.SameButSecret r c' → (w.kind, t) ≠ (.secret, r) →
        t ∉ (w.sync.resolveSource c r).map ObjectRef.key →
          (w.sync.sync c' h t).1 = (w.sync.sync c h t).1 ∧
            (w.sync.sync c' h t).2.store.find? w.kind t
              = (w.sync.sync c h t).2.store.find? w.kind t) ∧
    ((w.sync.resolveSystemCa c).map ObjectRef.key).Nodup ∧
      (∀ ref, ref ∈ w.sync.resolveSystemCa c ↔ w.sync.usesSystemCa = true ∧ ∃ target,
        c.store.find? w.kind target.key = some target ∧
          target.annotations[Key.injectCaFromServiceCa]? = some "true" ∧
            target.annotations[Key.injectCaFromSecret]? = none ∧ target.ref = ref) ∧
      ∀ h file bundle t, t ∉ (w.sync.resolveSystemCa c).map ObjectRef.key →
        w.sync.sync c { h with systemCaFile := file, systemCa := bundle } t
          = w.sync.sync c h t := by
  have hs := Controller.traceable hw
  refine ⟨fun r => ⟨SyncKind.nodup_keys_resolve hlist, fun ref => ?_, fun c' h t hc hne ht => ?_⟩,
    SyncKind.nodup_keys_resolve hlist, fun ref => ?_, fun h file bundle t ht => ?_⟩
  · simp only [SyncKind.mem_resolveSource hs.staysLocal hlist, SyncKind.dependsOn_iff, and_assoc]
  · exact hs.sync_of_notMem_resolveSource hlist hc hne ht
  · rw [SyncKind.mem_resolveSystemCa hlist]
    simp only [hs.dependsOn_systemCa]
    constructor
    · rintro ⟨target, htarget, ⟨huses, hca, hnone⟩, href⟩
      exact ⟨huses, target, htarget, hca, hnone, href⟩
    · rintro ⟨huses, target, htarget, hca, hnone, href⟩
      exact ⟨target, htarget, ⟨huses, hca, hnone⟩, href⟩
  · exact hs.sync_of_notMem_resolveSystemCa hlist ht file bundle

namespace TwoServices

open CaTarget.NamedSecret

def optedIn : Object .apiService :=
  ⟨{ Metadata.empty with
      name := some "v2.example"
      annotations := some ((∅ : Annotations).insert Key.injectCaFromServiceCa "true") },
    ⟨none, ∅⟩⟩

def cluster : Cluster :=
  .ofStore (((Store.empty.seed (source [65])).seed MissingSpec.service).seed optedIn)

def renewed : Cluster := { cluster with store := cluster.store.insert (source [66]) }

def sync (c : Cluster) (h : Host) (o : Object .apiService) : Except SyncError Outcome × Cluster :=
  CaTarget.apiService.injection.sync c h o.key

end TwoServices

open TwoServices CaTarget.NamedSecret in
/-- One service follows the secret only and the other the file only. -/
theorem search_finds_dependents_two_services :
    CaTarget.apiService.injection.resolveSource cluster ⟨"ns", "ca"⟩ = [MissingSpec.service.ref] ∧
    CaTarget.apiService.injection.resolveSystemCa cluster = [optedIn.ref] ∧
    (sync renewed host optedIn).1 = (sync cluster host optedIn).1 ∧
    sync cluster { host with systemCa := .ok [65] } MissingSpec.service
      = sync cluster host MissingSpec.service := by
  have hw : (⟨_, CaTarget.apiService.injection⟩ : Controller) ∈ Controller.all :=
    .tail _ (.tail _ (.head _))
  have hsource : CaTarget.apiService.injection.resolveSource cluster ⟨"ns", "ca"⟩
      = [MissingSpec.service.ref] := by
    decide +kernel
  have hca : CaTarget.apiService.injection.resolveSystemCa cluster = [optedIn.ref] := by
    decide +kernel
  have hrenewed : cluster.SameButSecret ⟨"ns", "ca"⟩ renewed :=
    ⟨rfl, fun _ _ hne => Store.find?_insert_of_ne _ _ hne⟩
  obtain ⟨hdependents, -, -, hfile⟩ := search_finds_dependents hw (c := cluster) rfl
  refine ⟨hsource, hca, ?_, ?_⟩
  · refine ((hdependents ⟨"ns", "ca"⟩).2.2 renewed host optedIn.key hrenewed (by simp) ?_).1
    rw [hsource]
    decide
  · refine hfile host host.systemCaFile (.ok [65]) MissingSpec.service.key ?_
    rw [hca]
    decide

end CertKeeper
