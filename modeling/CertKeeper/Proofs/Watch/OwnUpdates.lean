import CertKeeper.Proofs.Sync.Convergence

/-!
# No update calls for another

A controller watches the objects that it writes. It never writes what its filter of targets looks
at: annotations, and fields that it does not manage. A secret that is both target and source is not
found among the dependents of its own update, as a secret that names itself is never written.
-/

namespace CertKeeper

open Watch

namespace Watch.EventFilter

variable {k : Kind} {f : EventFilter k} {same : k.Content → k.Content → Prop}

/-- Whether a filter passes over all changes of contents within a relation. -/
def Ignores (f : EventFilter k) (same : k.Content → k.Content → Prop) : Prop :=
  ∀ old new : Object k, new.annotations = old.annotations → same old.content new.content →
    f.onUpdate old new = false

theorem ignores_annotatedTarget (keys : List String) (same : k.Content → k.Content → Prop) :
    (annotatedTarget keys).Ignores same := by
  intro old new ha _
  simp [annotatedTarget, ha]

theorem Ignores.restrict (hf : f.Ignores same) (p : Object k → Bool) :
    (f.restrict p).Ignores same := by
  intro old new ha hsame
  show (p new && f.onUpdate old new) = false
  rw [hf old new ha hsame, Bool.and_false]

theorem ignores_annotatedTlsSecret (key : String) {fields keys : List String}
    (hdisjoint : ∀ field ∈ fields, field ∉ keys) :
    (annotatedTlsSecret key fields).Ignores (Secret.Content.SameBut keys) := by
  intro old new ha hsame
  have hfields : fieldsDiffer fields old new = false := by
    refine Mirror.fieldsDiffer_eq_false.mpr fun field hfield => ?_
    exact (hsame.data.other field (hdisjoint field hfield)).symm
  simp [annotatedTlsSecret, ha, hfields]

theorem ignores_truststoreConfigMap (key : String) (binaryKeys : List String) :
    (truststoreConfigMap key).Ignores (ConfigMap.Content.SameBut [] binaryKeys) := by
  intro old new ha hsame
  have hsource : truststoreSource new = truststoreSource old := by
    rw [truststoreSource, truststoreSource, ha]
    exact hsame.data.other _ List.not_mem_nil
  simp [truststoreConfigMap, ha, hsource]

end Watch.EventFilter

theorem Scope.exists_of_mem {w : Controller} (hw : w ∈ Controller.all) :
    ∃ scope ∈ Scope.all, scope.controller = w := by
  have hall : Scope.all.map Scope.controller = Controller.all := rfl
  rw [← hall] at hw
  exact List.mem_map.mp hw

/-- No controller looks out for what it manages. -/
theorem Scope.ignores {scope : Scope} (hscope : scope ∈ Scope.all) :
    scope.controller.sync.targetFilter.Ignores scope.same := by
  simp only [Scope.all, List.mem_cons, List.not_mem_nil, or_false] at hscope
  rcases hscope with rfl | rfl | rfl | rfl | rfl | rfl | rfl | rfl | rfl | rfl
  · exact EventFilter.ignores_annotatedTarget _ _
  · exact (EventFilter.ignores_annotatedTarget _ _).restrict _
  · exact EventFilter.ignores_annotatedTarget _ _
  · exact EventFilter.ignores_annotatedTarget _ _
  · exact EventFilter.ignores_annotatedTarget _ _
  · exact EventFilter.ignores_annotatedTarget _ _
  · exact EventFilter.ignores_annotatedTlsSecret _ (by decide)
  · exact EventFilter.ignores_truststoreConfigMap _ _
  · exact EventFilter.ignores_annotatedTlsSecret _ (by decide)
  · exact (EventFilter.ignores_annotatedTarget _ _).restrict _

namespace SyncKind

variable {k : Kind} {s : SyncKind k} {c : Cluster} {ns : Option String} {source : Source}
  {r : Reference} {o : Object k}

theorem exists_of_mem_keys_resolve (hr : r ∈ (s.resolve c ns source).map ObjectRef.key) :
    ∃ o, c.store.find? k r = some o ∧ s.dependsOn source o = true := by
  obtain ⟨ref, href, rfl⟩ := List.mem_map.mp hr
  cases hlist : c.refusals.list k with
  | some e => simp [resolve, Cluster.list, hlist] at href
  | none =>
    obtain ⟨o, ho, -, hdepends, rfl⟩ := (mem_resolve hlist).mp href
    exact ⟨o, ho, hdepends⟩

theorem resolveSource_of_sources_nil (hsources : ∀ o, s.sources o = .ok []) {r' : Reference} :
    r' ∉ (s.resolveSource c r).map ObjectRef.key := by
  intro hr
  obtain ⟨o, -, hdepends⟩ := exists_of_mem_keys_resolve hr
  obtain ⟨-, sources, hok, hmem⟩ := dependsOn_iff.mp hdepends
  cases (hsources o).symm.trans hok
  cases hmem

end SyncKind

namespace CaTarget

variable {c c' later : Cluster} {h : Host} {r : Reference} {old o : Secret}

/-- A secret that was given a bundle does not name itself. -/
theorem notMem_resolveSource_of_updated
    (hrun : secret.injection.sync c h r = (.ok .updated, c'))
    (hold : c.store.find? .secret r = some old) (ho : later.store.find? .secret r = some o)
    (ha : o.annotations = old.annotations) :
    r ∉ (secret.injection.resolveSource later r).map ObjectRef.key := by
  intro hr
  obtain ⟨o', ho', hdepends⟩ := SyncKind.exists_of_mem_keys_resolve hr
  cases ho.symm.trans ho'
  obtain ⟨-, sources, hsources, hmem⟩ := SyncKind.dependsOn_iff.mp hdepends
  have hsources : secret.sources old = .ok sources := (sources_congr ha.symm).trans hsources
  obtain ⟨before, after, loaded, hi⟩ := exists_injected rfl hrun
  cases hold.symm.trans hi.loads.find?
  exact ne_of_changed rfl hi.loads hi.changed hsources hmem rfl

theorem snd_sync_of_own_name (hold : c.store.find? .secret r = some old)
    (hname : old.annotations.qualifiedReference Key.injectCaFromSecret = .ok (some r)) :
    (secret.injection.sync c h r).2 = c := by
  have hsources : secret.sources old = .ok [.secret r] := by
    simp only [sources, hname, ok_bind]
  exact snd_sync_of_names_self rfl rfl hold hsources List.mem_cons_self

end CaTarget

theorem Controller.notMem_resolveSource_of_updated {w : Controller} (hw : w ∈ all)
    (hkind : w.kind = .secret) {c c' later : Cluster} {h : Host} {r : Reference}
    (hrun : w.sync.sync c h r = (.ok .updated, c')) {old o : Object w.kind}
    (hold : c.store.find? w.kind r = some old) (ho : later.store.find? w.kind r = some o)
    (ha : o.annotations = old.annotations) :
    r ∉ (w.sync.resolveSource later r).map ObjectRef.key := by
  simp only [all, List.mem_cons, List.not_mem_nil, or_false] at hw
  rcases hw with rfl | rfl | rfl | rfl | rfl | rfl | rfl | rfl | rfl | rfl
  · cases hkind
  · exact CaTarget.notMem_resolveSource_of_updated hrun hold ho ha
  · cases hkind
  · cases hkind
  · cases hkind
  · cases hkind
  · exact SyncKind.resolveSource_of_sources_nil fun _ => rfl
  · cases hkind
  · exact SyncKind.resolveSource_of_sources_nil fun _ => rfl
  · cases hkind

/-- The objects for which a controller is to run after a change that its filter of targets passes
over are dependents of a secret. -/
theorem Operator.Worker.mem_dependents_of_rejected {w : Controller} {old new : Object w.kind}
    (he : w.sync.targetFilter.accepts (.updated old new) = false) {c : Cluster} {ref : ObjectRef}
    (href : ref ∈ (Operator.Worker.controller w).wanted c (.updated old new)) :
    w.kind = .secret ∧ ref ∈ w.sync.resolveSource c new.key := by
  obtain ⟨k, s⟩ := w
  have hown : (Operator.Worker.controller ⟨k, s⟩).acceptsTarget (.updated old new) = false := by
    simp only [Operator.Worker.acceptsTarget, dif_pos]
    exact he
  simp only [Operator.Worker.wanted, hown, Bool.false_eq_true, if_false, List.nil_append] at href
  split at href
  · rename_i hkind
    subst hkind
    refine ⟨rfl, ?_⟩
    simp only [Operator.Worker.dependents] at href
    split at href
    · split at href
      · exact href
      · cases href
    · cases href
  · cases href

/-- A controller does not call itself back to an object that it has just changed. Its filter of
targets passes over the update, and as long as the annotations of the object stay, the object is not
found among the dependents of the update. A secret that names itself is not written at all. -/
theorem own_update_calls_for_no_run {w : Controller} (hw : w ∈ Controller.all) :
    (∀ c c' h r, w.sync.sync c h r = (.ok .updated, c') → ∃ old new,
      c.store.find? w.kind r = some old ∧ c'.store.find? w.kind r = some new ∧
      w.sync.targetFilter.accepts (.updated old new) = false ∧
      ∀ (later : Cluster) o, later.store.find? w.kind r = some o →
        o.annotations = new.annotations →
          (w.kind = .secret → r ∉ (w.sync.resolveSource later r).map ObjectRef.key) ∧
          r ∉ ((Operator.Worker.controller w).wanted later (.updated old new)).map
            ObjectRef.key) ∧
    ∀ (c : Cluster) h r (s : Secret), c.store.find? .secret r = some s →
      s.annotations.qualifiedReference Key.injectCaFromSecret = .ok (some r) →
        (CaTarget.secret.injection.sync c h r).2 = c := by
  refine ⟨fun c c' h r hrun => ?_, fun c h r s hs hname => CaTarget.snd_sync_of_own_name hs hname⟩
  obtain ⟨scope, hscope, rfl⟩ := Scope.exists_of_mem hw
  have hframed := (Scope.keeps hscope).framed c.refusals c h r
  rw [SyncKind.syncUnder_refusals, hrun] at hframed
  obtain ⟨-, -, old, new, version, hold, hnew, hmetadata, hsame⟩ := hframed.write rfl
  have ha : new.annotations = old.annotations :=
    Object.annotations_eq_of_metadata ⟨version, hmetadata⟩
  have hrejected : scope.controller.sync.targetFilter.accepts (.updated old new) = false :=
    Scope.ignores hscope old new ha hsame
  refine ⟨old, new, hold, hnew, hrejected, fun later o ho hao => ?_⟩
  have hself (hkind : scope.controller.kind = .secret) :=
    Controller.notMem_resolveSource_of_updated hw hkind hrun hold ho (hao.trans ha)
  refine ⟨hself, fun hmem => ?_⟩
  obtain ⟨ref, href, hkey⟩ := List.mem_map.mp hmem
  obtain ⟨hkind, hdependent⟩ := Operator.Worker.mem_dependents_of_rejected hrejected href
  rw [Store.key_of_find? hnew] at hdependent
  exact hself hkind (List.mem_map.mpr ⟨ref, hdependent, hkey⟩)

namespace NamingSecrets

open CaTarget.NamedSecret

def naming (name named : String) : Secret :=
  ⟨metadata name ((∅ : Annotations).insert Key.injectCaFromSecret named),
    { type := some Field.tlsSecretType, data := none, extra := ∅ }⟩

def cluster : Cluster :=
  .ofStore (((Store.empty.seed (source [65])).seed (naming "tls" "ns/ca")).seed
    (naming "own" "ns/own"))

def run (name : String) : Except SyncError Outcome × Cluster :=
  CaTarget.secret.injection.sync cluster host ⟨"ns", name⟩

end NamingSecrets

open NamingSecrets in
/-- The bundle is injected into the one secret, which is not looked at again, and not into the
other. -/
theorem own_update_calls_for_no_run_naming :
    (∃ c' old new, run "tls" = (.ok .updated, c') ∧ old.key = ⟨"ns", "tls"⟩ ∧
      CaTarget.secret.injection.targetFilter.accepts (.updated old new) = false ∧
      (⟨"ns", "tls"⟩ : Reference) ∉
        (CaTarget.secret.injection.resolveSource c' ⟨"ns", "tls"⟩).map ObjectRef.key) ∧
    (run "own").2 = cluster := by
  have hw : (⟨_, CaTarget.secret.injection⟩ : Controller) ∈ Controller.all := .tail _ (.head _)
  have hupdated : (run "tls").1.toOption = some .updated := by
    decide +kernel
  have hown : (cluster.store.find? .secret ⟨"ns", "own"⟩).map (fun s =>
      (s.annotations.qualifiedReference Key.injectCaFromSecret).toOption)
        = some (some (some ⟨"ns", "own"⟩)) := by
    decide +kernel
  obtain ⟨hcalls, hself⟩ := own_update_calls_for_no_run hw
  constructor
  · obtain ⟨c', hrun⟩ := SyncKind.exists_sync_eq hupdated
    obtain ⟨old, new, hold, hnew, hrejected, hlater⟩ :=
      hcalls cluster c' CaTarget.NamedSecret.host _ hrun
    exact ⟨c', old, new, hrun, Store.key_of_find? hold, hrejected, (hlater c' new hnew rfl).1 rfl⟩
  · obtain ⟨s, hs, hname⟩ := Option.map_eq_some_iff.mp hown
    refine hself cluster CaTarget.NamedSecret.host _ s hs ?_
    cases hq : s.annotations.qualifiedReference Key.injectCaFromSecret with
    | error e =>
      rw [hq] at hname
      cases hname
    | ok found =>
      rw [hq] at hname
      exact congrArg Except.ok (Option.some.inj hname)

end CertKeeper
