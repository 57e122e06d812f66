import CertKeeper.Proofs.Object.Content
import CertKeeper.Proofs.Sync.Run
import CertKeeper.Proofs.Text.Utf8
import CertKeeper.Sync.CaInjection

/-!
# Every slot holds the bundle that was asked for

What an object asks for is read off its annotations, the secrets and the file of the system CA alone.
A run that is done leaves this in every slot of the object, whatever the slots held before, and it
clears the slots of an object that asks for nothing.
-/

namespace CertKeeper

namespace WebhookConfiguration.Content

/-- What the webhooks of a configuration hold as bundles, be it empty or not. -/
def slots (c : Content) : List (Option Bytes) :=
  (c.webhooks.getD []).map (·.clientConfig.caBundle)

def bareWebhooks (c : Content) : Option (List Webhook) :=
  c.webhooks.map fun ws =>
    ws.map fun w => { w with clientConfig := { w.clientConfig with caBundle := none } }

variable (c : Content) (bundle : Option Bytes)

theorem bundles_eq_slots : c.bundles = c.slots.map (·.bind Bytes.nonEmpty?) := by
  rw [bundles, slots, List.map_map]
  rfl

theorem slots_setBundles :
    (c.setBundles bundle).slots = c.slots.map fun _ => bundle.bind Bytes.nonEmpty? := by
  cases hc : c.webhooks <;> simp [slots, setBundles, hc, ClientConfig.withBundle]

theorem bareWebhooks_setBundles : (c.setBundles bundle).bareWebhooks = c.bareWebhooks := by
  cases hc : c.webhooks <;> simp [bareWebhooks, setBundles, hc, ClientConfig.withBundle]

end WebhookConfiguration.Content

namespace CaTarget

variable {k : Kind}

def ofKind? : (k : Kind) → Option (CaTarget k)
  | .apiService => some apiService
  | .configMap => some configMap
  | .customResourceDefinition => some resourceDefinition
  | .mutatingWebhookConfiguration => some mutatingWebhooks
  | .route => none
  | .secret => some secret
  | .validatingWebhookConfiguration => some validatingWebhooks

/-- What stands in the slots for bundles, be it empty or not. Text stands for its bytes. -/
def slots : (k : Kind) → k.Content → List (Option Bytes)
  | .apiService, c => [ApiService.Content.spec c |>.bind (·.caBundle)]
  | .configMap, c => [(ConfigMap.Content.field c Field.caCert).map Bytes.ofString]
  | .customResourceDefinition, c =>
    match ResourceDefinition.Content.webhook c with
    | some w => [w.clientConfig.bind (·.caBundle)]
    | none => []
  | .mutatingWebhookConfiguration, c | .validatingWebhookConfiguration, c =>
    WebhookConfiguration.Content.slots c
  | .route, _ => []
  | .secret, c => [Secret.Content.field c Field.caCert]

/-- How a bundle is held. Config maps hold the text that it is read as. -/
def held (k : Kind) (bundle : Bytes) : Bytes :=
  if k = .configMap then Bytes.ofString (Text.Utf8.lossy bundle) else bundle

/-- Whether a slot holds a bundle, or nothing if there is none. -/
def Filled (k : Kind) (bundle slot : Option Bytes) : Prop :=
  match bundle with
  | some b => slot = some (held k b)
  | none => slot = none ∨ slot = some []

/-- The webhooks of a configuration without their bundles. Other kinds have none. -/
def bareWebhooks : (k : Kind) → k.Content → Option (List Webhook)
  | .mutatingWebhookConfiguration, c | .validatingWebhookConfiguration, c =>
    WebhookConfiguration.Content.bareWebhooks c
  | _, _ => none

/-- The bundle that an object asks for: that of the secret it names, or the system CA if it takes
that and has opted in to it. -/
def asked (t : CaTarget k) (c : Cluster) (h : Host) (o : Object k) : Option Bytes :=
  match o.annotations[Key.injectCaFromSecret]? with
  | some raw => do
    let ref ← Reference.parseQualified? raw
    let s ← c.store.find? .secret ref
    s.content.value Field.caCert
  | none =>
    if t.takesSystemCa ∧ o.annotations[Key.injectCaFromServiceCa]? = some "true" then
      h.systemCa.toOption.bind Bytes.nonEmpty?
    else none

theorem held_ne_nil {bundle : Bytes} (h : bundle ≠ []) : held k bundle ≠ [] := by
  unfold held
  split
  · exact Bytes.ofString_ne_nil (Text.Utf8.lossy_ne_empty h)
  · exact h

/-- What slots are to the functions of a target: they are read with empty content as absent, and
all of them are set at once, while nothing else is. -/
structure Lawful (t : CaTarget k) : Prop where
  bundles_eq : ∀ o, t.bundles o = (slots k o.content).map (·.bind Bytes.nonEmpty?)
  slots_setBundles : ∀ o bundle, slots k (t.setBundles o bundle).content =
    (slots k o.content).map fun _ => (bundle.bind Bytes.nonEmpty?).map (held k)
  metadata_setBundles : ∀ o bundle, (t.setBundles o bundle).metadata = o.metadata
  bareWebhooks_setBundles : ∀ o bundle,
    bareWebhooks k (t.setBundles o bundle).content = bareWebhooks k o.content
  eligible_setBundles : ∀ o bundle version,
    t.eligible ((t.setBundles o bundle).withResourceVersion version) = t.eligible o

theorem lawful_configMap : configMap.Lawful where
  bundles_eq o := by
    have hvalue (s : String) : (if s = "" then none else some s).map Bytes.ofString
        = Bytes.nonEmpty? (Bytes.ofString s) := by
      by_cases hs : s = ""
      · subst hs
        rfl
      · rw [if_neg hs, Bytes.nonEmpty?_of_ne_nil (Bytes.ofString_ne_nil hs)]
        rfl
    simp only [configMap, slots, ConfigMap.Content.value, List.map_cons, List.map_nil]
    cases ConfigMap.Content.field o.content Field.caCert with
    | none => rfl
    | some s => exact congrArg (fun b => [b]) (hvalue s)
  slots_setBundles o bundle := by
    simp only [configMap, slots, ConfigMap.Content.field_set, List.map_cons, List.map_nil,
      Option.map_map]
    rfl
  metadata_setBundles _ _ := rfl
  bareWebhooks_setBundles _ _ := rfl
  eligible_setBundles _ _ _ := rfl

theorem held_of_ne (h : k ≠ .configMap) : held k = id := by
  funext bundle
  rw [held, if_neg h]
  rfl

theorem lawful_secret : secret.Lawful where
  bundles_eq _ := rfl
  slots_setBundles o bundle := by
    rw [held_of_ne (by decide), Option.map_id]
    simp [secret, slots]
  metadata_setBundles _ _ := rfl
  bareWebhooks_setBundles _ _ := rfl
  eligible_setBundles o bundle version := Secret.Content.isTls_set ..

theorem lawful_apiService : apiService.Lawful where
  bundles_eq _ := rfl
  slots_setBundles o bundle := by
    rw [held_of_ne (by decide), Option.map_id]
    rfl
  metadata_setBundles _ _ := rfl
  bareWebhooks_setBundles _ _ := rfl
  eligible_setBundles _ _ _ := rfl

theorem lawful_mutatingWebhooks : mutatingWebhooks.Lawful where
  bundles_eq o := WebhookConfiguration.Content.bundles_eq_slots o.content
  slots_setBundles o bundle := by
    rw [held_of_ne (by decide), Option.map_id]
    exact WebhookConfiguration.Content.slots_setBundles o.content bundle
  metadata_setBundles _ _ := rfl
  bareWebhooks_setBundles o := WebhookConfiguration.Content.bareWebhooks_setBundles o.content
  eligible_setBundles _ _ _ := rfl

theorem lawful_validatingWebhooks : validatingWebhooks.Lawful where
  bundles_eq o := WebhookConfiguration.Content.bundles_eq_slots o.content
  slots_setBundles o bundle := by
    rw [held_of_ne (by decide), Option.map_id]
    exact WebhookConfiguration.Content.slots_setBundles o.content bundle
  metadata_setBundles _ _ := rfl
  bareWebhooks_setBundles o := WebhookConfiguration.Content.bareWebhooks_setBundles o.content
  eligible_setBundles _ _ _ := rfl

theorem webhook_mapWebhook (c : ResourceDefinition.Content)
    (f : ResourceDefinition.ConversionWebhook → ResourceDefinition.ConversionWebhook) :
    (c.mapWebhook f).webhook = c.webhook.map f := by
  unfold ResourceDefinition.Content.mapWebhook ResourceDefinition.Content.webhook
  cases c.spec.conversion <;> rfl

theorem lawful_resourceDefinition : resourceDefinition.Lawful where
  bundles_eq o := by
    simp only [resourceDefinition, slots]
    cases ResourceDefinition.Content.webhook o.content with
    | none => rfl
    | some w => cases hw : w.clientConfig <;> simp [hw, ClientConfig.bundle]
  slots_setBundles o bundle := by
    rw [held_of_ne (by decide), Option.map_id]
    simp only [resourceDefinition, slots, webhook_mapWebhook]
    cases ResourceDefinition.Content.webhook o.content with
    | none => rfl
    | some w => rfl
  metadata_setBundles _ _ := rfl
  bareWebhooks_setBundles _ _ := rfl
  eligible_setBundles _ _ _ := rfl

theorem lawful_of_ofKind? {t : CaTarget k} (ht : ofKind? k = some t) : t.Lawful := by
  cases k <;> cases ht
  case apiService => exact lawful_apiService
  case configMap => exact lawful_configMap
  case customResourceDefinition => exact lawful_resourceDefinition
  case mutatingWebhookConfiguration => exact lawful_mutatingWebhooks
  case secret => exact lawful_secret
  case validatingWebhookConfiguration => exact lawful_validatingWebhooks

variable {t : CaTarget k} {c c' : Cluster} {h : Host} {r : Reference} {o : Object k}

theorem sources_eq_ok {sources : List Source} (hs : t.sources o = .ok sources) :
    (∃ raw ref, o.annotations[Key.injectCaFromSecret]? = some raw ∧
      Reference.parseQualified? raw = some ref ∧ sources = [.secret ref]) ∨
    (o.annotations[Key.injectCaFromSecret]? = none ∧ (t.takesSystemCa = true ∧
      o.annotations[Key.injectCaFromServiceCa]? = some "true") ∧ sources = [.systemCa]) ∨
    (o.annotations[Key.injectCaFromSecret]? = none ∧ ¬ (t.takesSystemCa = true ∧
      o.annotations[Key.injectCaFromServiceCa]? = some "true") ∧ sources = []) := by
  obtain ⟨named, hnamed, hs⟩ := bind_eq_ok.mp hs
  unfold Annotations.qualifiedReference at hnamed
  split at hnamed
  · rename_i hnone
    cases hnamed
    simp only [Bool.and_eq_true, Annotations.isEnabled, beq_iff_eq] at hs
    split at hs
    · rename_i htakes
      cases hs
      exact .inr (.inl ⟨hnone, htakes, rfl⟩)
    · rename_i htakes
      cases hs
      exact .inr (.inr ⟨hnone, htakes, rfl⟩)
  · rename_i raw hraw
    split at hnamed
    · rename_i ref href
      cases hnamed
      cases hs
      exact .inl ⟨raw, ref, hraw, href, rfl⟩
    · cases hnamed

theorem asked_of_secret {raw : String} {ref : Reference} {s : Secret}
    (hraw : o.annotations[Key.injectCaFromSecret]? = some raw)
    (href : Reference.parseQualified? raw = some ref) (hs : c.store.find? .secret ref = some s) :
    t.asked c h o = s.content.value Field.caCert := by
  simp [asked, hraw, href, hs]

/-- A run finds the bundle that its target asks for. -/
theorem bundle_eq_asked {loaded : Sources} (hl : t.injection.Loads c h r o loaded) :
    t.bundle loaded o = .ok (t.asked c h o) := by
  obtain ⟨sources, hsources, hread⟩ := hl.readAll
  have hbundle : t.bundle loaded o
      = .ok (sources.head?.bind fun s => loaded.field s Field.caCert) := by
    rw [bundle, show t.sources o = .ok sources from hsources, ok_bind]
  rw [hbundle]
  rcases sources_eq_ok hsources with ⟨raw, ref, hraw, href, rfl⟩ | ⟨hnone, htakes, rfl⟩ |
    ⟨hnone, htakes, rfl⟩
  · obtain ⟨material, hmaterial, rfl⟩ := Source.readAll_singleton_eq_ok.mp hread
    obtain ⟨s, hget, rfl⟩ := Source.read_secret_eq_ok.mp hmaterial
    rw [asked_of_secret hraw href (Cluster.get_eq_ok.mp hget).2]
    simp only [List.head?_cons, Option.bind_some, Sources.field_singleton]
    rw [Secret.Content.material, Secret.Content.value, Secret.Content.field]
    cases s.content.data <;> simp
  · obtain ⟨material, hmaterial, rfl⟩ := Source.readAll_singleton_eq_ok.mp hread
    obtain ⟨bundle, hca, rfl⟩ := Source.read_systemCa_eq_ok.mp hmaterial
    simp only [List.head?_cons, Option.bind_some, Sources.field_singleton]
    simp [asked, hnone, htakes, hca, Except.toOption]
  · simp [asked, hnone, htakes]

theorem asked_bind_nonEmpty? (t : CaTarget k) (c : Cluster) (h : Host) (o : Object k) :
    (t.asked c h o).bind Bytes.nonEmpty? = t.asked c h o := by
  unfold asked
  split
  · rename_i raw hraw
    cases Reference.parseQualified? raw with
    | none => rfl
    | some ref =>
      cases hs : c.store.find? .secret ref with
      | none => simp [hs]
      | some s => simp [hs, Secret.Content.value]
  · split
    · exact Bytes.bind_nonEmpty?_bind _
    · rfl

theorem desired_eq {loaded : Sources} (hl : t.injection.Loads c h r o loaded) :
    t.desired loaded o = .ok ((t.bundles o).map fun _ => t.asked c h o) := by
  rw [desired, bundle_eq_asked hl, ok_bind]

theorem revisedBy (ht : t.Lawful) : t.injection.RevisedBy t.derivation where
  revise := rfl
  metadata _ o := ht.metadata_setBundles o _

theorem findSome?_map_const {α : Type} {l : List α} (hl : l ≠ []) (bundle : Option Bytes) :
    (l.map fun _ => bundle).findSome? id = bundle := by
  cases l with
  | nil => exact absurd rfl hl
  | cons a l =>
    cases bundle with
    | some b => rfl
    | none => simp

theorem Lawful.slots_write (ht : t.Lawful) (o : Object k) {bundle : Option Bytes}
    (hb : bundle.bind Bytes.nonEmpty? = bundle) :
    slots k (t.write ((t.bundles o).map fun _ => bundle) o).content
      = (slots k o.content).map fun _ => bundle.map (held k) := by
  rw [write, ht.slots_setBundles]
  by_cases hs : slots k o.content = []
  · rw [hs]
    rfl
  · have hbundles : t.bundles o ≠ [] := by
      rw [ht.bundles_eq]
      simpa using hs
    rw [findSome?_map_const hbundles, hb]

theorem held_of_mem_slots {content : k.Content} {b : Bytes} (hb : some b ∈ slots k content) :
    held k b = b := by
  by_cases hk : k = .configMap
  · subst hk
    simp only [slots, List.mem_singleton] at hb
    obtain ⟨s, -, rfl⟩ := Option.map_eq_some_iff.mp hb.symm
    rw [held, if_pos rfl, Text.Utf8.lossy_ofString]
  · rw [held_of_ne hk]
    rfl

theorem filled_of_mem_slots {content : k.Content} {slot bundle : Option Bytes}
    (hmem : slot ∈ slots k content) (hslot : slot.bind Bytes.nonEmpty? = bundle) :
    Filled k bundle slot := by
  subst hslot
  cases slot with
  | none => exact .inl rfl
  | some b =>
    cases b with
    | nil => exact .inr rfl
    | cons x b => exact congrArg some (held_of_mem_slots hmem).symm

theorem filled_map_held (bundle : Option Bytes) : Filled k bundle (bundle.map (held k)) := by
  cases bundle with
  | none => exact .inl rfl
  | some b => rfl

theorem Lawful.filled_of_bundles_eq (ht : t.Lawful) {bundle : Option Bytes}
    (hcurrent : t.bundles o = (t.bundles o).map fun _ => bundle) :
    ∀ slot ∈ slots k o.content, Filled k bundle slot := by
  intro slot hslot
  refine filled_of_mem_slots hslot ?_
  have hmem : slot.bind Bytes.nonEmpty? ∈ t.bundles o := by
    rw [ht.bundles_eq]
    exact List.mem_map_of_mem hslot
  rw [hcurrent] at hmem
  obtain ⟨-, -, hbundle⟩ := List.mem_map.mp hmem
  exact hbundle.symm

theorem Lawful.filled_write (ht : t.Lawful) {bundle : Option Bytes}
    (hb : bundle.bind Bytes.nonEmpty? = bundle) :
    ∀ slot ∈ slots k (t.write ((t.bundles o).map fun _ => bundle) o).content,
      Filled k bundle slot := by
  intro slot hslot
  rw [ht.slots_write o hb] at hslot
  obtain ⟨-, -, rfl⟩ := List.mem_map.mp hslot
  exact filled_map_held bundle

theorem asked_eq_none (hsecret : o.annotations[Key.injectCaFromSecret]? = none)
    (hsystem : ¬ (t.takesSystemCa = true ∧
      o.annotations[Key.injectCaFromServiceCa]? = some "true")) : t.asked c h o = none := by
  simp [asked, hsecret, hsystem]

/-- After a run that is done, every slot of the target holds the bundle that is asked for, or nothing
if none is. There are as many slots as before, in webhooks that are otherwise the same in the same
order. So the slots of an object that has lost its annotation are cleared. -/
theorem slots_filled_after_sync (ht : ofKind? k = some t) {outcome : Outcome}
    (hrun : t.injection.sync c h r = (.ok outcome, c'))
    (hdone : outcome = .updated ∨ outcome = .unchanged) :
    ∃ before after, c.store.find? k r = some before ∧ c'.store.find? k r = some after ∧
      (∀ slot ∈ slots k after.content, Filled k (t.asked c h before) slot) ∧
      (slots k after.content).length = (slots k before.content).length ∧
      bareWebhooks k after.content = bareWebhooks k before.content ∧
      (before.annotations[Key.injectCaFromSecret]? = none →
        ¬ (t.takesSystemCa = true ∧
          before.annotations[Key.injectCaFromServiceCa]? = some "true") →
            ∀ slot ∈ slots k after.content, slot = none ∨ slot = some []) := by
  have hlawful := lawful_of_ofKind? ht
  obtain ⟨before, loaded, value, after, hl, hvalue, hget, hafter⟩ :=
    (revisedBy hlawful).exists_after hrun hdone
  have hasked := asked_bind_nonEmpty? t c h before
  have hvalue : (t.bundles before).map (fun _ => t.asked c h before) = value :=
    Except.ok.inj ((desired_eq hl).symm.trans hvalue)
  subst hvalue
  have hslots : ∀ slot ∈ slots k after.content, Filled k (t.asked c h before) slot := by
    rcases hafter with ⟨hunchanged, rfl, -⟩ | ⟨version, rfl, -⟩
    · exact hlawful.filled_of_bundles_eq (of_decide_eq_true hunchanged)
    · exact hlawful.filled_write hasked
  have hlength : (slots k after.content).length = (slots k before.content).length := by
    rcases hafter with ⟨-, rfl, -⟩ | ⟨version, rfl, -⟩
    · rfl
    · have h := congrArg List.length (hlawful.slots_write before hasked)
      rwa [List.length_map] at h
  have hbare : bareWebhooks k after.content = bareWebhooks k before.content := by
    rcases hafter with ⟨-, rfl, -⟩ | ⟨version, rfl, -⟩
    · rfl
    · exact hlawful.bareWebhooks_setBundles before _
  refine ⟨before, after, hl.find?, (Cluster.get_eq_ok.mp hget).2, hslots, hlength, hbare, ?_⟩
  intro hsecret hsystem slot hslot
  have hfilled := hslots slot hslot
  rwa [asked_eq_none hsecret hsystem] at hfilled

def hostWith (systemCa : Except String Bytes) : Host :=
  ⟨"service-ca.crt", systemCa, 0, fun _ => ⟨List.replicate 20 0, rfl⟩⟩

namespace TwoWebhooks

/-- Two webhooks, one of which holds another bundle, that are to receive the system CA. -/
def configuration : Object .mutatingWebhookConfiguration where
  metadata := { Metadata.empty with
    name := some "hooks"
    annotations := some ((∅ : Annotations).insert Key.injectCaFromServiceCa "true") }
  content := { webhooks := some [⟨⟨none, ∅⟩, ∅⟩, ⟨⟨some [9], ∅⟩, ∅⟩], extra := ∅ }

def cluster : Cluster := .ofStore (Store.empty.seed configuration)

def host : Host := hostWith (.ok [1, 2])

end TwoWebhooks

open TwoWebhooks in
theorem slots_filled_after_sync_two_webhooks :
    ∃ c' after, mutatingWebhooks.injection.sync cluster host ⟨"", "hooks"⟩ = (.ok .updated, c') ∧
      c'.store.find? .mutatingWebhookConfiguration ⟨"", "hooks"⟩ = some after ∧
        ∀ slot ∈ slots .mutatingWebhookConfiguration after.content, slot = some [1, 2] := by
  have hupdated : (mutatingWebhooks.injection.sync cluster host ⟨"", "hooks"⟩).1.toOption
      = some .updated := by
    decide +kernel
  have hasked : (cluster.store.find? .mutatingWebhookConfiguration ⟨"", "hooks"⟩).map
      (mutatingWebhooks.asked cluster host) = some (some [1, 2]) := by
    decide +kernel
  obtain ⟨c', hrun⟩ := SyncKind.exists_sync_eq hupdated
  obtain ⟨before, after, hbefore, hafter, hslots, -⟩ :=
    slots_filled_after_sync rfl hrun (.inl rfl)
  have hasked : mutatingWebhooks.asked cluster host before = some [1, 2] := by
    rw [hbefore] at hasked
    exact Option.some.inj hasked
  refine ⟨c', after, hrun, hafter, fun slot hslot => ?_⟩
  have hfilled := hslots slot hslot
  rwa [hasked] at hfilled

end CaTarget
end CertKeeper
