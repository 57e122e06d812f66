import CertKeeper.Sync.Basic
import CertKeeper.Text.Utf8

/-!
# Injection of CA bundles

Objects with slots for CA bundles receive one bundle in all of them: that of the secret they name, or
the system CA if they have opted in to it. Without a bundle the slots are cleared.
-/

namespace CertKeeper

open Watch

/-- How objects of a kind hold CA bundles. -/
structure CaTarget (k : Kind) where
  controller : String
  /-- Whether objects may opt in to the system CA. -/
  takesSystemCa : Bool
  /-- The content of the slots. Empty content counts as absent. -/
  bundles : Object k → List (Option Bytes)
  /-- Fills all slots, or clears them. -/
  setBundles : Object k → Option Bytes → Object k
  eligible : Object k → Bool
  targetFilter : EventFilter k

namespace CaTarget

variable {k : Kind} (t : CaTarget k)

/-- At most one source is named. A secret goes before the system CA. -/
def sources (o : Object k) : Except SyncError (List Source) := do
  match ← o.annotations.qualifiedReference Key.injectCaFromSecret with
  | some ref => .ok [.secret ref]
  | none =>
    if t.takesSystemCa && o.annotations.isEnabled Key.injectCaFromServiceCa then .ok [.systemCa]
    else .ok []

/-- The bundle of the source that is named, if it holds one. -/
def bundle (loaded : Sources) (o : Object k) : Except SyncError (Option Bytes) := do
  let sources ← t.sources o
  .ok (sources.head?.bind fun s => loaded.field s Field.caCert)

def desired (loaded : Sources) (o : Object k) : Except SyncError (List (Option Bytes)) := do
  let bundle ← t.bundle loaded o
  .ok ((t.bundles o).map fun _ => bundle)

/-- Fills all slots with the bundle that one of `slots` holds. -/
def write (slots : List (Option Bytes)) (o : Object k) : Object k :=
  t.setBundles o (slots.findSome? id)

def derivation : Derivation k (List (Option Bytes)) where
  current := t.bundles
  desired _ := t.desired
  unchanged _ a b := a = b
  write := t.write

def injection : SyncKind k where
  name := t.controller
  localSources := false
  usesSystemCa := t.takesSystemCa
  applies := t.eligible
  sources := t.sources
  revise := t.derivation.revise
  targetFilter := t.targetFilter
  sourceFilter := some (.tlsSourceChanged [Field.caCert])

def sourceKeys (takesSystemCa : Bool) : List String :=
  if takesSystemCa then [Key.injectCaFromSecret, Key.injectCaFromServiceCa]
  else [Key.injectCaFromSecret]

def configMap : CaTarget .configMap where
  controller := "configmap-ca-injection"
  takesSystemCa := false
  bundles o := [(o.content.value Field.caCert).map Bytes.ofString]
  setBundles o bundle :=
    let text := (bundle.bind Bytes.nonEmpty?).map Text.Utf8.lossy
    { o with content := o.content.set Field.caCert text }
  eligible _ := true
  targetFilter := .annotatedTarget (sourceKeys false)

/-- Only secrets that hold a certificate take part. -/
def secret : CaTarget .secret where
  controller := "secret-ca-injection"
  takesSystemCa := false
  bundles o := [o.content.value Field.caCert]
  setBundles o bundle :=
    { o with content := o.content.set Field.caCert (bundle.bind Bytes.nonEmpty?) }
  eligible o := o.content.isTls
  targetFilter := .annotatedTlsTarget (sourceKeys false)

def apiService : CaTarget .apiService where
  controller := "apiservice-ca-injection"
  takesSystemCa := true
  bundles o := [(o.content.spec.bind (·.caBundle)).bind Bytes.nonEmpty?]
  setBundles o bundle :=
    let spec := { o.content.spec.getD .initial with caBundle := bundle.bind Bytes.nonEmpty? }
    { o with content := { o.content with spec := some spec } }
  eligible _ := true
  targetFilter := .annotatedTarget (sourceKeys true)

end CaTarget

namespace ClientConfig

def bundle (c : ClientConfig) : Option Bytes := c.caBundle.bind Bytes.nonEmpty?

def withBundle (bundle : Option Bytes) (c : ClientConfig) : ClientConfig :=
  { c with caBundle := bundle.bind Bytes.nonEmpty? }

end ClientConfig

namespace WebhookConfiguration.Content

def bundles (c : WebhookConfiguration.Content) : List (Option Bytes) :=
  (c.webhooks.getD []).map fun w => w.clientConfig.bundle

def setBundles (c : WebhookConfiguration.Content) (bundle : Option Bytes) :
    WebhookConfiguration.Content :=
  let set (w : Webhook) : Webhook := { w with clientConfig := w.clientConfig.withBundle bundle }
  { c with webhooks := c.webhooks.map fun ws => ws.map set }

end WebhookConfiguration.Content

namespace CaTarget

def mutatingWebhooks : CaTarget .mutatingWebhookConfiguration where
  controller := "mutatingwebhook-ca-injection"
  takesSystemCa := true
  bundles o := WebhookConfiguration.Content.bundles o.content
  setBundles o bundle :=
    { o with content := WebhookConfiguration.Content.setBundles o.content bundle }
  eligible _ := true
  targetFilter := .annotatedTarget (sourceKeys true)

def validatingWebhooks : CaTarget .validatingWebhookConfiguration where
  controller := "validatingwebhook-ca-injection"
  takesSystemCa := true
  bundles o := WebhookConfiguration.Content.bundles o.content
  setBundles o bundle :=
    { o with content := WebhookConfiguration.Content.setBundles o.content bundle }
  eligible _ := true
  targetFilter := .annotatedTarget (sourceKeys true)

/-- Definitions have a slot only if a webhook converts between their versions. -/
def resourceDefinition : CaTarget .customResourceDefinition where
  controller := "crd-ca-injection"
  takesSystemCa := true
  bundles o :=
    match ResourceDefinition.Content.webhook o.content with
    | some w => [w.clientConfig.bind ClientConfig.bundle]
    | none => []
  setBundles o bundle :=
    let set (w : ResourceDefinition.ConversionWebhook) : ResourceDefinition.ConversionWebhook :=
      { w with clientConfig := some ((w.clientConfig.getD .empty).withBundle bundle) }
    { o with content := ResourceDefinition.Content.mapWebhook o.content set }
  eligible _ := true
  targetFilter := .annotatedTarget (sourceKeys true)

end CaTarget
end CertKeeper
