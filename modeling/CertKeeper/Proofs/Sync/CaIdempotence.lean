import CertKeeper.Proofs.Sync.CaInjection

/-!
# When a second injection has nothing to do

A second run compares what the slots hold with the bundle that was written. They are the same unless
a config map holds a bundle that is no text: then each run writes the bundle anew.
-/

namespace CertKeeper.CaTarget

variable {k : Kind} {t : CaTarget k} {c c' : Cluster} {h h' : Host} {r : Reference}
  {o o' : Object k} {loaded : Sources} {version : Option String}

theorem sources_congr (ha : o'.annotations = o.annotations) : t.sources o' = t.sources o := by
  rw [sources, sources, ha]

theorem bundle_congr (ha : o'.annotations = o.annotations) :
    t.bundle loaded o' = t.bundle loaded o := by
  rw [bundle, bundle, sources_congr ha]

/-- A secret that names itself holds what it asks for. -/
theorem ne_of_changed (ht : ofKind? k = some t) (hl : t.injection.Loads c h r o loaded)
    (hchanged : ¬ t.bundles o = (t.bundles o).map fun _ => t.asked c h o) {sources : List Source}
    (hsources : t.sources o = .ok sources) {ref : Reference} (href : .secret ref ∈ sources) :
    (Kind.secret, ref) ≠ (k, r) := by
  intro heq
  obtain ⟨rfl, rfl⟩ := Prod.mk.inj heq
  cases ht
  have hasked : secret.asked c h o = o.content.value Field.caCert := by
    rcases sources_eq_ok hsources with ⟨raw, ref', hraw, hparsed, rfl⟩ | ⟨-, -, rfl⟩ | ⟨-, -, rfl⟩
    · cases List.mem_singleton.mp href
      exact asked_of_secret hraw hparsed hl.find?
    · cases List.mem_singleton.mp href
    · cases href
  rw [hasked] at hchanged
  exact hchanged rfl

theorem Lawful.key_write (ht : t.Lawful) (o : Object k) (slots : List (Option Bytes)) :
    (t.write slots o).key = o.key :=
  Object.key_eq_of_metadata (ht.metadata_setBundles o _)

theorem Lawful.bundles_write (ht : t.Lawful) {bundle : Option Bytes}
    (hb : bundle.bind Bytes.nonEmpty? = bundle) :
    t.bundles ((t.write ((t.bundles o).map fun _ => bundle) o).withResourceVersion version)
      = (t.bundles o).map fun _ => bundle.map (held k) := by
  have hheld : (bundle.map (held k)).bind Bytes.nonEmpty? = bundle.map (held k) := by
    cases bundle with
    | none => rfl
    | some b =>
      have hne : b ≠ [] := (Bytes.nonEmpty?_eq_some.mp hb).1
      exact Bytes.nonEmpty?_of_ne_nil (held_ne_nil hne)
  rw [ht.bundles_eq, Object.content_withResourceVersion, ht.slots_write o hb, List.map_map,
    ht.bundles_eq, List.map_map]
  refine List.map_congr_left fun slot _ => ?_
  exact hheld

theorem map_held_eq_iff {bundle : Option Bytes} : bundle.map (held k) = bundle ↔
    (k = .configMap → ∀ b, bundle = some b → b.text?.isSome) := by
  cases bundle with
  | none => simp
  | some b =>
    by_cases hk : k = .configMap
    · subst hk
      simp [held, Text.Utf8.ofString_lossy_iff]
    · simp [held_of_ne hk, hk]

theorem revise_eq_none_iff (hl : t.injection.Loads c h r o loaded) :
    t.derivation.revise h loaded o = .ok none ↔
      t.bundles o = (t.bundles o).map fun _ => t.asked c h o := by
  have hdesired : t.derivation.desired h loaded o = .ok ((t.bundles o).map fun _ => t.asked c h o) :=
    desired_eq hl
  rw [Derivation.revise_eq_none_iff_of_desired hdesired]
  exact decide_eq_true_iff

/-- What an injection that has changed something leaves behind. -/
structure Injected (t : CaTarget k) (c c' : Cluster) (h : Host) (r : Reference)
    (before after : Object k) (loaded : Sources) : Prop where
  loads : t.injection.Loads c h r before loaded
  changed : ¬ t.bundles before = (t.bundles before).map fun _ => t.asked c h before
  get : c'.get k r = .ok (some after)
  update : ∃ slots version, c.update (t.write slots before) = .ok c' ∧
    after = (t.write slots before).withResourceVersion version
  bundles : t.bundles after = (t.bundles before).map fun _ => (t.asked c h before).map (held k)

variable {before after : Object k}

theorem exists_injected (ht : ofKind? k = some t)
    (hrun : t.injection.sync c h r = (.ok .updated, c')) :
    ∃ before after loaded, Injected t c c' h r before after loaded := by
  have hlawful := lawful_of_ofKind? ht
  obtain ⟨before, loaded, value, version, hl, hvalue, hchanged, hupdate, hget⟩ :=
    (revisedBy hlawful).of_updated hrun
  have hvalue : (t.bundles before).map (fun _ => t.asked c h before) = value :=
    Except.ok.inj ((desired_eq hl).symm.trans hvalue)
  subst hvalue
  exact ⟨before, _, loaded, {
    loads := hl
    changed := fun hb => hchanged (decide_eq_true hb)
    get := hget
    update := ⟨_, version, hupdate, rfl⟩
    bundles := hlawful.bundles_write (asked_bind_nonEmpty? t c h before) }⟩

theorem Injected.annotations_after (ht : t.Lawful)
    (hi : Injected t c c' h r before after loaded) : after.annotations = before.annotations := by
  obtain ⟨slots, version, -, rfl⟩ := hi.update
  refine Object.annotations_eq_of_metadata ⟨version, ?_⟩
  rw [Object.withResourceVersion, Object.withResourceVersion, write, ht.metadata_setBundles]

theorem Injected.loads_after (ht : ofKind? k = some t)
    (hi : Injected t c c' h r before after loaded) (hca : h'.systemCa = h.systemCa) :
    t.injection.Loads c' h' r after loaded := by
  have hlawful := lawful_of_ofKind? ht
  obtain ⟨sources, hsources, hread⟩ := hi.loads.readAll
  have hsources' := (sources_congr (hi.annotations_after hlawful)).trans hsources
  obtain ⟨slots, version, hupdate, rfl⟩ := hi.update
  have happlies : t.eligible ((t.write slots before).withResourceVersion version) = true :=
    (hlawful.eligible_setBundles before _ version).trans hi.loads.applies
  have hkey := (hlawful.key_write before slots).trans hi.loads.key_eq
  refine ⟨hi.get, happlies, sources, hsources', ?_⟩
  refine Source.readAll_congr (fun ref href => ?_) hca hread
  have hne := ne_of_changed ht hi.loads hi.changed hsources href
  exact Cluster.get_update_of_ne hupdate (hkey ▸ hne)

theorem Injected.update_again (ht : t.Lawful)
    (hi : Injected t c c' h r before after loaded) {revised : Object k}
    (hmetadata : revised.metadata = after.metadata) : ∃ c'', c'.update revised = .ok c'' := by
  obtain ⟨slots, version, hupdate, rfl⟩ := hi.update
  have hkey := (ht.key_write before slots).trans hi.loads.key_eq
  have hstored := (Cluster.get_eq_ok.mp hi.get).2
  rw [← hkey] at hstored
  exact Cluster.update_again hupdate hstored hmetadata

theorem Injected.asked_after (ht : ofKind? k = some t)
    (hi : Injected t c c' h r before after loaded) (hca : h'.systemCa = h.systemCa) :
    t.asked c' h' after = t.asked c h before := by
  have hafter := bundle_eq_asked (hi.loads_after ht hca)
  rw [bundle_congr (hi.annotations_after (lawful_of_ofKind? ht)), bundle_eq_asked hi.loads]
    at hafter
  exact (Except.ok.inj hafter).symm

theorem map_const_inj {α β : Type} {l : List α} (hl : l ≠ []) {x y : β} :
    ((l.map fun _ => x) = l.map fun _ => y) ↔ x = y := by
  cases l with
  | nil => exact absurd rfl hl
  | cons a l =>
    constructor
    · intro hxy
      exact (List.cons.inj hxy).1
    · rintro rfl
      rfl

theorem Injected.bundles_ne_nil (hi : Injected t c c' h r before after loaded) :
    t.bundles before ≠ [] := by
  intro hnil
  have hchanged := hi.changed
  rw [hnil] at hchanged
  exact hchanged rfl

/-- A second run compares the bundle as it is held with the bundle itself. -/
theorem Injected.sync_unchanged_iff (ht : ofKind? k = some t)
    (hi : Injected t c c' h r before after loaded) (hca : h'.systemCa = h.systemCa) :
    t.injection.sync c' h' r = (.ok .unchanged, c') ↔
      (t.asked c h before).map (held k) = t.asked c h before := by
  have hl := hi.loads_after ht hca
  rw [hl.sync_eq_unchanged_iff]
  show t.derivation.revise h' loaded after = .ok none ↔ _
  rw [revise_eq_none_iff hl, hi.asked_after ht hca, hi.bundles, List.map_map]
  exact map_const_inj hi.bundles_ne_nil

theorem Injected.exists_sync_updated (ht : ofKind? k = some t)
    (hi : Injected t c c' h r before after loaded) (hca : h'.systemCa = h.systemCa)
    (hne : (t.asked c h before).map (held k) ≠ t.asked c h before) :
    ∃ c'', t.injection.sync c' h' r = (.ok .updated, c'') := by
  have hlawful := lawful_of_ofKind? ht
  have hl := hi.loads_after ht hca
  have hchanged : ¬ t.bundles after = (t.bundles after).map fun _ => t.asked c' h' after := by
    intro hbundles
    have hrevise := (revise_eq_none_iff hl).mpr hbundles
    exact hne ((hi.sync_unchanged_iff ht hca).mp (hl.sync_eq_unchanged_iff.mpr hrevise))
  let revised := t.write ((t.bundles after).map fun _ => t.asked c' h' after) after
  have hrevise : t.derivation.revise h' loaded after = .ok (some revised) :=
    Derivation.revise_eq_some.mpr ⟨_, desired_eq hl, fun hu => hchanged (of_decide_eq_true hu), rfl⟩
  obtain ⟨c'', hupdate⟩ := hi.update_again hlawful (hlawful.metadata_setBundles after _)
  exact ⟨c'', SyncKind.sync_eq_updated.mpr ⟨after, loaded, revised, hl, hrevise, hupdate⟩⟩

/-- After a run that has injected a bundle, a second run has nothing to do, except that it writes a
bundle to a config map anew if that bundle is no text. -/
theorem second_sync_unchanged_iff (ht : ofKind? k = some t)
    (hrun : t.injection.sync c h r = (.ok .updated, c')) (hca : h'.systemCa = h.systemCa) :
    ∃ before, c.store.find? k r = some before ∧
      (t.injection.sync c' h' r = (.ok .unchanged, c') ↔
        (k = .configMap → ∀ b, t.asked c h before = some b → b.text?.isSome)) ∧
      (t.injection.sync c' h' r ≠ (.ok .unchanged, c') →
        ∃ c'', t.injection.sync c' h' r = (.ok .updated, c'')) := by
  obtain ⟨before, after, loaded, hi⟩ := exists_injected ht hrun
  have hunchanged : t.injection.sync c' h' r = (.ok .unchanged, c') ↔
      (t.asked c h before).map (held k) = t.asked c h before := hi.sync_unchanged_iff ht hca
  refine ⟨before, hi.loads.find?, hunchanged.trans map_held_eq_iff, fun hne => ?_⟩
  exact hi.exists_sync_updated ht hca fun hheld => hne (hunchanged.mpr hheld)

namespace NamedSecret

def metadata (name : String) (annotations : Annotations) : Metadata :=
  { Metadata.empty with name := some name, ns := some "ns", annotations := some annotations }

def source (bundle : Bytes) : Secret :=
  ⟨metadata "ca" ∅, {
    type := some Field.tlsSecretType
    data := some ((∅ : Dict Bytes).insert Field.caCert bundle)
    extra := ∅ }⟩

def target : ConfigMap :=
  ⟨metadata "cm" ((∅ : Annotations).insert Key.injectCaFromSecret "ns/ca"), ⟨none, none, ∅⟩⟩

def cluster (bundle : Bytes) : Cluster := .ofStore ((Store.empty.seed (source bundle)).seed target)

def host : Host := hostWith (.error "absent")

def run (c : Cluster) : Except SyncError Outcome × Cluster :=
  configMap.injection.sync c host ⟨"ns", "cm"⟩

end NamedSecret

open NamedSecret in
/-- The byte 255 is no text. -/
theorem second_sync_writes_bytes_anew :
    (run (cluster [255])).1.toOption = some .updated ∧
      (run (run (cluster [255])).2).1.toOption ≠ some .unchanged ∧
        (run (run (cluster [255])).2).2.writes ≠ (run (cluster [255])).2.writes := by
  decide +kernel

open NamedSecret in
/-- The byte 65 is the text `A`. -/
theorem second_sync_unchanged_iff_text : ∃ c', run (cluster [65]) = (.ok .updated, c') ∧
    run c' = (.ok .unchanged, c') := by
  have hupdated : (run (cluster [65])).1.toOption = some .updated := by
    decide +kernel
  have hasked : ((cluster [65]).store.find? .configMap ⟨"ns", "cm"⟩).map
      (configMap.asked (cluster [65]) host) = some (some [65]) := by
    decide +kernel
  have htext : (Bytes.text? [65]).isSome := by
    decide +kernel
  obtain ⟨c', hrun⟩ := SyncKind.exists_sync_eq hupdated
  have hca : host.systemCa = host.systemCa := rfl
  obtain ⟨before, hbefore, hunchanged, -⟩ := second_sync_unchanged_iff rfl hrun hca
  refine ⟨c', hrun, hunchanged.mpr fun _ b hb => ?_⟩
  rw [hbefore, Option.map_some, hb] at hasked
  cases hasked
  exact htext

/-- Whether a run for a config map injects a bundle that is no text. -/
def Restless (c : Cluster) (h : Host) (r : Reference) : Prop :=
  ∃ before c' bundle, c.store.find? .configMap r = some before ∧
    configMap.asked c h before = some bundle ∧ bundle.text? = none ∧
      configMap.injection.sync c h r = (.ok .updated, c')

theorem Restless.sync (hc : Restless c h r) : Restless (configMap.injection.sync c h r).2 h r := by
  obtain ⟨before, c', bundle, hbefore, hasked, htext, hrun⟩ := hc
  obtain ⟨before', after, loaded, hi⟩ := exists_injected rfl hrun
  cases hbefore.symm.trans hi.loads.find?
  have hne : (configMap.asked c h before).map (held .configMap) ≠ configMap.asked c h before := by
    intro hheld
    have hsome := map_held_eq_iff.mp hheld rfl bundle hasked
    rw [htext] at hsome
    cases hsome
  obtain ⟨c'', hagain⟩ := hi.exists_sync_updated rfl rfl hne
  have hasked' : configMap.asked c' h after = some bundle := by
    rw [hi.asked_after rfl rfl, hasked]
  rw [hrun]
  exact ⟨after, c'', bundle, (Cluster.get_eq_ok.mp hi.get).2, hasked', htext, hagain⟩

def afterRuns (h : Host) (r : Reference) : Nat → Cluster → Cluster
  | 0, c => c
  | n + 1, c => afterRuns h r n (configMap.injection.sync c h r).2

/-- A bundle that is no text is written by every run, however many there have been. -/
theorem Restless.afterRuns (hc : Restless c h r) (n : Nat) :
    (configMap.injection.sync (CaTarget.afterRuns h r n c) h r).1 = .ok .updated := by
  induction n generalizing c with
  | zero =>
    obtain ⟨_, c', _, -, -, -, hrun⟩ := hc
    exact congrArg Prod.fst hrun
  | succ n ih => exact ih hc.sync

end CertKeeper.CaTarget
