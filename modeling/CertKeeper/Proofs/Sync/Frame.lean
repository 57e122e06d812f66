import CertKeeper.Proofs.Sync.CaIdempotence
import CertKeeper.Proofs.Sync.RouteCertificates
import CertKeeper.Proofs.Sync.Truststore
import CertKeeper.Sync.Controller

/-!
# Runs change all that they should or nothing

A run that does not end in an update leaves the cluster as it was, wherever it has failed. An update
is one write, and of all objects it changes only the target: its version, and the fields that the
controller manages.
-/

namespace CertKeeper

namespace Dict

variable {β : Type} {keys keys' : List String} {d d' d'' : Option (Dict β)}

/-- Whether two maps, which may be absent, differ at most under some keys. A map comes into being
only for a value under one of them, and never goes away. -/
structure SameBut (keys : List String) (d d' : Option (Dict β)) : Prop where
  other : ∀ key ∉ keys, d'.bind (·[key]?) = d.bind (·[key]?)
  isSome : d.isSome → d'.isSome
  made : d = none → d'.isSome → ∃ key ∈ keys, (d'.bind (·[key]?)).isSome

theorem SameBut.refl (keys : List String) (d : Option (Dict β)) : SameBut keys d d where
  other _ _ := rfl
  isSome := id
  made hd hd' := by simp [hd] at hd'

theorem SameBut.insert (d : Option (Dict β)) (key : String) (value : β) :
    SameBut [key] d (some ((d.getD ∅).insert key value)) where
  other key' hkey := by
    have hne : ¬ key = key' := fun h => hkey (by simp [h])
    cases d <;> simp [Std.ExtTreeMap.getElem?_insert, hne]
  isSome _ := rfl
  made _ _ := ⟨key, List.mem_singleton_self key, by simp⟩

theorem SameBut.erase (d : Option (Dict β)) (key : String) :
    SameBut [key] d (d.map (·.erase key)) where
  other key' hkey := by
    have hne : ¬ key = key' := fun h => hkey (by simp [h])
    cases d <;> simp [Std.ExtTreeMap.getElem?_erase, hne]
  isSome := by simp
  made hd hd' := by simp [hd] at hd'

theorem SameBut.append (h : SameBut keys d d') (h' : SameBut keys' d' d'')
    (hdisjoint : ∀ key ∈ keys, key ∉ keys') : SameBut (keys ++ keys') d d'' where
  other key hkey := by
    rw [List.mem_append, not_or] at hkey
    rw [h'.other key hkey.2, h.other key hkey.1]
  isSome hd := h'.isSome (h.isSome hd)
  made hd hd'' := by
    cases hd' : d' with
    | none =>
      obtain ⟨key, hkey, hvalue⟩ := h'.made hd' hd''
      exact ⟨key, List.mem_append_right _ hkey, hvalue⟩
    | some _ =>
      obtain ⟨key, hkey, hvalue⟩ := h.made hd (by rw [hd']; rfl)
      exact ⟨key, List.mem_append_left _ hkey, by rwa [h'.other key (hdisjoint key hkey)]⟩

end Dict

namespace Secret.Content

/-- Whether two contents differ at most in the bytes under some names. -/
structure SameBut (keys : List String) (c c' : Content) : Prop where
  type : c'.type = c.type
  data : Dict.SameBut keys c.data c'.data
  extra : c'.extra = c.extra

theorem sameBut_set (c : Content) (key : String) (value : Option Bytes) :
    SameBut [key] c (c.set key value) := by
  cases value with
  | none => exact ⟨rfl, .erase c.data key, rfl⟩
  | some b => exact ⟨rfl, .insert c.data key b, rfl⟩

theorem sameBut_set_set (c : Content) {key key' : String} (hne : key ≠ key')
    (value value' : Option Bytes) :
    SameBut [key, key'] c ((c.set key value).set key' value') := by
  have hfirst := c.sameBut_set key value
  have hsecond := (c.set key value).sameBut_set key' value'
  refine ⟨hsecond.type.trans hfirst.type, ?_, hsecond.extra.trans hfirst.extra⟩
  exact hfirst.data.append hsecond.data (by simpa using hne)

end Secret.Content

structure Secret.SameBut (keys : List String) (s s' : Secret) : Prop where
  metadata : ∃ version, s'.metadata = (s.withResourceVersion version).metadata
  content : Content.SameBut keys s.content s'.content

namespace Secret.SameBut

variable {keys : List String} {s s' : Secret}

theorem refl (keys : List String) (s : Secret) : SameBut keys s s :=
  ⟨⟨s.metadata.resourceVersion, rfl⟩, rfl, .refl _ _, rfl⟩

theorem annotations (hs : s.SameBut keys s') : s'.annotations = s.annotations :=
  Object.annotations_eq_of_metadata hs.metadata

theorem isTls (hs : s.SameBut keys s') : s'.content.isTls = s.content.isTls := by
  rw [Content.isTls, Content.isTls, hs.content.type]

theorem creationTime (hs : s.SameBut keys s') (h : Host) :
    h.creationTime s' = h.creationTime s := by
  obtain ⟨version, hmetadata⟩ := hs.metadata
  rw [Host.creationTime, hmetadata]
  rfl

theorem field (hs : s.SameBut keys s') {key : String} (hkey : key ∉ keys) :
    s'.content.field key = s.content.field key :=
  hs.content.data.other key hkey

theorem value (hs : s.SameBut keys s') {key : String} (hkey : key ∉ keys) :
    s'.content.value key = s.content.value key := by
  rw [Content.value, Content.value, hs.field hkey]

end Secret.SameBut

namespace ConfigMap.Content

/-- Whether two contents differ at most in the texts under some names and the bytes under others. -/
structure SameBut (keys binaryKeys : List String) (c c' : Content) : Prop where
  data : Dict.SameBut keys c.data c'.data
  binaryData : Dict.SameBut binaryKeys c.binaryData c'.binaryData
  extra : c'.extra = c.extra

theorem sameBut_set (c : Content) (key : String) (value : Option String) :
    SameBut [key] [] c (c.set key value) := by
  cases value with
  | none => exact ⟨.erase c.data key, .refl _ _, rfl⟩
  | some s => exact ⟨.insert c.data key s, .refl _ _, rfl⟩

theorem sameBut_setBinary (c : Content) (key : String) (value : Option Bytes) :
    SameBut [] [key] c (c.setBinary key value) := by
  cases value with
  | none => exact ⟨.refl _ _, .erase c.binaryData key, rfl⟩
  | some b => exact ⟨.refl _ _, .insert c.binaryData key b, rfl⟩

end ConfigMap.Content

namespace ApiService

def Spec.bare (s : Spec) : Spec := { s with caBundle := none }

/-- Whether two contents differ at most in their bundles. A missing specification may have been
made. -/
structure Content.SameButBundle (c c' : Content) : Prop where
  spec : c'.spec.map Spec.bare = some (c.spec.getD .initial).bare
  extra : c'.extra = c.extra

end ApiService

structure WebhookConfiguration.Content.SameButBundles (c c' : WebhookConfiguration.Content) :
    Prop where
  webhooks : c'.bareWebhooks = c.bareWebhooks
  extra : c'.extra = c.extra

def ClientConfig.bare (c : ClientConfig) : ClientConfig := { c with caBundle := none }

theorem ResourceDefinition.Content.mapWebhook_mapWebhook (c : ResourceDefinition.Content)
    (f g : ResourceDefinition.ConversionWebhook → ResourceDefinition.ConversionWebhook) :
    (c.mapWebhook f).mapWebhook g = c.mapWebhook fun w => g (f w) := by
  unfold mapWebhook
  cases hc : c.spec.conversion with
  | none => rfl
  | some v => cases hv : v.webhook <;> simp [hv]

/-- Whether two contents differ at most in the bundle of the webhook that converts. How that webhook
is reached may have been left out before. -/
def ResourceDefinition.Content.SameButBundle (c c' : ResourceDefinition.Content) : Prop :=
  c'.mapWebhook (fun w => { w with clientConfig := w.clientConfig.map .bare })
    = c.mapWebhook fun w => { w with clientConfig := some (w.clientConfig.getD .empty).bare }

namespace Route

def Tls.bare (t : Tls) : Tls :=
  { t with
    key := none
    certificate := none
    caCertificate := none
    destinationCaCertificate := none }

/-- The content of a route without its certificates and its key. -/
def Content.bare (c : Content) : Content := ⟨{ c.spec with tls := c.spec.tls.map Tls.bare }⟩

end Route

namespace SyncKind

variable {k : Kind} {s : SyncKind k} {c c' : Cluster} {later : Refusals} {h : Host} {r : Reference}
  {same : k.Content → k.Content → Prop}

/-- Whether a kind revises its targets within a relation of their contents, and never changes their
metadata. -/
def Keeps (s : SyncKind k) (same : k.Content → k.Content → Prop) : Prop :=
  ∀ h loaded target revised, s.revise h loaded target = .ok (some revised) →
    revised.metadata = target.metadata ∧ same target.content revised.content

theorem RevisedBy.keeps {α : Type} {d : Derivation k α} (hs : s.RevisedBy d)
    (hwrite : ∀ value (target : Object k), same target.content (d.write value target).content) :
    s.Keeps same := by
  intro h loaded target revised hrevise
  rw [hs.revise] at hrevise
  obtain ⟨value, -, -, rfl⟩ := Derivation.revise_eq_some.mp hrevise
  exact ⟨hs.metadata value target, hwrite value target⟩

/-- One run for the target `r` under refusals that change as soon as the target has been fetched. As
no source is fetched twice, each call of a run may so be refused for itself. -/
def syncUnder (s : SyncKind k) (later : Refusals) (c : Cluster) (h : Host) (r : Reference) :
    Except SyncError Outcome × Cluster :=
  match c.get k r with
  | .error e => (.error (.api e), c)
  | .ok none => (.ok .missing, c)
  | .ok (some target) =>
    match s.planFor { c with refusals := later } h target with
    | .error e => (.error e, c)
    | .ok p => p.carryOut { c with refusals := later }

theorem syncUnder_refusals (s : SyncKind k) (c : Cluster) (h : Host) (r : Reference) :
    s.syncUnder c.refusals c h r = s.sync c h r := by
  unfold syncUnder sync plan
  cases c.get k r with
  | error e => rfl
  | ok found => cases found <;> rfl

theorem exists_revise_of_planFor {target revised : Object k}
    (hplan : s.planFor c h target = .ok (.write revised)) :
    ∃ loaded, s.revise h loaded target = .ok (some revised) := by
  unfold planFor at hplan
  split at hplan
  · cases hplan
  · obtain ⟨sources, -, hplan⟩ := bind_eq_ok.mp hplan
    obtain ⟨loaded, -, hplan⟩ := bind_eq_ok.mp hplan
    obtain ⟨found, hrevise, hplan⟩ := bind_eq_ok.mp hplan
    cases found with
    | none => cases hplan
    | some o =>
      cases hplan
      exact ⟨loaded, hrevise⟩

theorem Keeps.key_of_planFor (hs : s.Keeps same) {target revised : Object k}
    (hplan : s.planFor c h target = .ok (.write revised)) : revised.key = target.key := by
  obtain ⟨loaded, hrevise⟩ := exists_revise_of_planFor hplan
  exact Object.key_eq_of_metadata (hs h loaded target revised hrevise).1

/-- What a run may have done to the store and to the number of writes: nothing, or one write of its
target. -/
structure Framed (c : Cluster) (r : Reference) (same : k.Content → k.Content → Prop)
    (result : Except SyncError Outcome) (c' : Cluster) : Prop where
  idle : result ≠ .ok .updated → c'.store = c.store ∧ c'.writes = c.writes
  write : result = .ok .updated → c'.writes = c.writes + 1 ∧
    (∀ k' r', (k', r') ≠ (k, r) → c'.store.find? k' r' = c.store.find? k' r') ∧
      ∃ before after version, c.store.find? k r = some before ∧ c'.store.find? k r = some after ∧
        after.metadata = { before.metadata with resourceVersion := version } ∧
          same before.content after.content

theorem Framed.of_idle {result : Except SyncError Outcome} (hr : result ≠ .ok .updated)
    (hstore : c'.store = c.store) (hwrites : c'.writes = c.writes) :
    Framed c r same result c' :=
  ⟨fun _ => ⟨hstore, hwrites⟩, fun h => absurd h hr⟩

theorem Keeps.framed_carryOut (hs : s.Keeps same) {target : Object k}
    (htarget : c.store.find? k r = some target) {p : Plan k}
    (hplan : s.planFor { c with refusals := later } h target = .ok p) :
    Framed c r same (p.carryOut { c with refusals := later }).1
      (p.carryOut { c with refusals := later }).2 := by
  cases p with
  | missing | skip | keep => exact .of_idle (by simp [Plan.carryOut]) rfl rfl
  | write revised =>
    rw [Plan.carryOut]
    cases hupdate : Cluster.update { c with refusals := later } revised with
    | error e => exact .of_idle (by simp) rfl rfl
    | ok c' =>
      obtain ⟨loaded, hrevise⟩ := exists_revise_of_planFor hplan
      obtain ⟨hmetadata, hsame⟩ := hs h loaded target revised hrevise
      have hkey : revised.key = r := by
        rw [Object.key_eq_of_metadata hmetadata, Store.key_of_find? htarget]
      subst hkey
      obtain ⟨version, hafter⟩ := Cluster.find?_update hupdate
      have hwrites : c'.writes = c.writes + 1 := by
        obtain ⟨-, stored, -, -, rfl⟩ := Cluster.update_eq_ok.mp hupdate
        rfl
      refine ⟨fun hne => absurd rfl hne, fun _ => ⟨hwrites, fun k' r' hne => ?_, ?_⟩⟩
      · exact Cluster.find?_update_of_ne hupdate hne
      · refine ⟨target, _, version, htarget, hafter, ?_, hsame⟩
        rw [Object.withResourceVersion, hmetadata]

theorem Keeps.framed (hs : s.Keeps same) (later : Refusals) (c : Cluster) (h : Host)
    (r : Reference) :
    Framed c r same (s.syncUnder later c h r).1 (s.syncUnder later c h r).2 := by
  unfold syncUnder
  split
  · exact .of_idle (by simp) rfl rfl
  · exact .of_idle (by simp) rfl rfl
  · rename_i target hget
    split
    · exact .of_idle (by simp) rfl rfl
    · rename_i p hplan
      exact hs.framed_carryOut (Cluster.get_eq_ok.mp hget).2 hplan

end SyncKind

/-- A controller and how the contents of its targets may differ after a run. -/
structure Scope where
  controller : Controller
  same : controller.kind.Content → controller.kind.Content → Prop

def Scope.all : List Scope :=
  [⟨⟨_, CaTarget.configMap.injection⟩, ConfigMap.Content.SameBut [Field.caCert] []⟩,
    ⟨⟨_, CaTarget.secret.injection⟩, Secret.Content.SameBut [Field.caCert]⟩,
    ⟨⟨_, CaTarget.apiService.injection⟩, ApiService.Content.SameButBundle⟩,
    ⟨⟨_, CaTarget.mutatingWebhooks.injection⟩, WebhookConfiguration.Content.SameButBundles⟩,
    ⟨⟨_, CaTarget.validatingWebhooks.injection⟩, WebhookConfiguration.Content.SameButBundles⟩,
    ⟨⟨_, CaTarget.resourceDefinition.injection⟩, ResourceDefinition.Content.SameButBundle⟩,
    ⟨⟨_, JavaKeystores.kind⟩, Secret.Content.SameBut [Field.keystore, Field.truststore]⟩,
    ⟨⟨_, Truststore.kind⟩, ConfigMap.Content.SameBut [] [Field.truststore]⟩,
    ⟨⟨_, CertificateInfo.kind⟩, Secret.Content.SameBut [Field.certInfo, Field.caInfo]⟩,
    ⟨⟨_, RouteCertificates.kind⟩, fun c c' => c'.bare = c.bare⟩]

theorem CaTarget.Lawful.keeps {k : Kind} {t : CaTarget k} {same : k.Content → k.Content → Prop}
    (ht : t.Lawful) (hset : ∀ o bundle, same o.content (t.setBundles o bundle).content) :
    t.injection.Keeps same :=
  (CaTarget.revisedBy ht).keeps fun _ o => hset o _

theorem CertificateInfo.revisedBy : CertificateInfo.kind.RevisedBy CertificateInfo.derivation where
  revise := rfl
  metadata _ _ := rfl

theorem Route.bare_write (f : RouteCertificates.Fields) (route : Route) :
    (RouteCertificates.write f route).content.bare = route.content.bare := by
  cases htls : route.content.spec.tls with
  | none => simp [RouteCertificates.write, Content.bare, htls]
  | some t =>
    simp only [RouteCertificates.write, Content.bare, htls, Option.map_some]
    rfl

theorem Scope.keeps {scope : Scope} (hscope : scope ∈ Scope.all) :
    scope.controller.sync.Keeps scope.same := by
  simp only [Scope.all, List.mem_cons, List.not_mem_nil, or_false] at hscope
  rcases hscope with rfl | rfl | rfl | rfl | rfl | rfl | rfl | rfl | rfl | rfl
  · exact CaTarget.lawful_configMap.keeps fun _ _ => ConfigMap.Content.sameBut_set _ _ _
  · exact CaTarget.lawful_secret.keeps fun _ _ => Secret.Content.sameBut_set _ _ _
  · exact CaTarget.lawful_apiService.keeps fun _ _ => ⟨rfl, rfl⟩
  · exact CaTarget.lawful_mutatingWebhooks.keeps fun _ _ =>
      ⟨WebhookConfiguration.Content.bareWebhooks_setBundles _ _, rfl⟩
  · exact CaTarget.lawful_validatingWebhooks.keeps fun _ _ =>
      ⟨WebhookConfiguration.Content.bareWebhooks_setBundles _ _, rfl⟩
  · exact CaTarget.lawful_resourceDefinition.keeps fun _ _ =>
      ResourceDefinition.Content.mapWebhook_mapWebhook _ _ _
  · exact JavaKeystores.stable.keeps fun f s =>
      s.content.sameBut_set_set (by decide) f.keystore f.truststore
  · exact Truststore.stable.keeps fun file m => m.content.sameBut_setBinary Field.truststore file
  · exact CertificateInfo.revisedBy.keeps fun i s =>
      s.content.sameBut_set_set (by decide) i.certificate i.ca
  · exact RouteCertificates.revisedBy.keeps Route.bare_write

/-- Whatever the controller, a run that does not end in an update changes nothing, whichever of its
calls was refused. An update is one write, which changes its target alone, and in this nothing but
the version and what the controller manages. -/
theorem sync_all_or_nothing :
    Scope.all.map Scope.controller = Controller.all ∧
    ∀ scope ∈ Scope.all, ∀ (later : Refusals) (c : Cluster) (h : Host) (r : Reference),
      SyncKind.Framed c r scope.same (scope.controller.sync.syncUnder later c h r).1
        (scope.controller.sync.syncUnder later c h r).2 ∧
      SyncKind.Framed c r scope.same (scope.controller.sync.sync c h r).1
        (scope.controller.sync.sync c h r).2 := by
  refine ⟨rfl, fun scope hscope later c h r => ?_⟩
  have hframed := (Scope.keeps hscope).framed
  refine ⟨hframed later c h r, ?_⟩
  rw [← SyncKind.syncUnder_refusals]
  exact hframed c.refusals c h r

namespace MissingSpec

def service : Object .apiService :=
  ⟨{ Metadata.empty with
      name := some "v1.example"
      annotations := some ((∅ : Annotations).insert Key.injectCaFromSecret "ns/ca") },
    ⟨none, ∅⟩⟩

def cluster : Cluster :=
  .ofStore ((Store.empty.seed (CaTarget.NamedSecret.source [1, 2])).seed service)

/-- Refuses to fetch secrets. -/
def later : Refusals :=
  ⟨fun k _ => if k = .secret then some .conflict else none, fun _ => none, fun _ _ => none⟩

def run : Except SyncError Outcome × Cluster :=
  CaTarget.apiService.injection.sync cluster CaTarget.NamedSecret.host service.key

def refusedRun : Except SyncError Outcome × Cluster :=
  CaTarget.apiService.injection.syncUnder later cluster CaTarget.NamedSecret.host service.key

end MissingSpec

open MissingSpec in
/-- The specification is made for the bundle. Nothing happens if the secret cannot be fetched. -/
theorem sync_all_or_nothing_missing_spec :
    (run.1 = .ok .updated ∧ run.2.writes = 1 ∧
      ∃ after, run.2.store.find? .apiService service.key = some after ∧
        ApiService.Content.SameButBundle service.content after.content) ∧
    refusedRun.1.toOption = none ∧ refusedRun.2.store = cluster.store := by
  have hscope : (⟨⟨_, CaTarget.apiService.injection⟩, ApiService.Content.SameButBundle⟩ : Scope)
      ∈ Scope.all := .tail _ (.tail _ (.head _))
  obtain ⟨hrefusedRun, hframed⟩ := sync_all_or_nothing.2 _ hscope later cluster
    CaTarget.NamedSecret.host service.key
  constructor
  · have hupdated : run.1.toOption = some .updated := by
      decide +kernel
    obtain ⟨c', hrun⟩ : ∃ c', run = (.ok .updated, c') := SyncKind.exists_sync_eq hupdated
    have hservice : cluster.store.find? .apiService service.key
        = some (service.withResourceVersion (some "1")) :=
      Store.find?_insert _ (service.withResourceVersion (some "1"))
    obtain ⟨hwrites, -, before, after, version, hbefore, hafter, -, hsame⟩ :=
      hframed.write (congrArg Prod.fst hrun)
    cases hservice.symm.trans hbefore
    exact ⟨congrArg Prod.fst hrun, hwrites, after, hafter, hsame⟩
  · have hfailed : refusedRun.1.toOption = none := by
      decide +kernel
    have hidle : refusedRun.1 ≠ .ok .updated := by
      intro hr
      rw [hr] at hfailed
      cases hfailed
    exact ⟨hfailed, (hrefusedRun.idle hidle).1⟩

end CertKeeper
