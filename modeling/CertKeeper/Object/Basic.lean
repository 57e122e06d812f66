import CertKeeper.Object.ApiService
import CertKeeper.Object.ConfigMap
import CertKeeper.Object.Layout
import CertKeeper.Object.Metadata
import CertKeeper.Object.ResourceDefinition
import CertKeeper.Object.Route
import CertKeeper.Object.Secret
import CertKeeper.Object.Webhook

/-!
# Objects of the cluster

An object is its metadata and a content whose type is that of its kind. Objects are exchanged as
JSON that names the kind.
-/

namespace CertKeeper

@[reducible] def Kind.Content : Kind → Type
  | .apiService => ApiService.Content
  | .configMap => ConfigMap.Content
  | .customResourceDefinition => ResourceDefinition.Content
  | .mutatingWebhookConfiguration | .validatingWebhookConfiguration => WebhookConfiguration.Content
  | .route => Route.Content
  | .secret => Secret.Content

structure Object (k : Kind) where
  metadata : Metadata
  content : k.Content

abbrev Secret := Object .secret

abbrev ConfigMap := Object .configMap

abbrev Route := Object .route

namespace Object

variable {k : Kind}

def annotations (o : Object k) : Annotations := o.metadata.annotationMap

def key (o : Object k) : Reference := o.metadata.key

def ref (o : Object k) : ObjectRef := o.metadata.ref

def resourceVersion (o : Object k) : Option String := o.metadata.resourceVersion

def withResourceVersion (o : Object k) (version : Option String) : Object k :=
  { o with metadata := { o.metadata with resourceVersion := version } }

def contentOfFields? (fields : Json.Fields) : (k : Kind) → Option k.Content
  | .apiService => ApiService.Content.ofFields? fields
  | .configMap => ConfigMap.Content.ofFields? fields
  | .customResourceDefinition => ResourceDefinition.Content.ofFields? fields
  | .mutatingWebhookConfiguration => WebhookConfiguration.Content.ofFields? fields
  | .route => Route.Content.ofFields? fields
  | .secret => Secret.Content.ofFields? fields
  | .validatingWebhookConfiguration => WebhookConfiguration.Content.ofFields? fields

def contentToFields (write : String → Bytes → Json) : (k : Kind) → k.Content → Json.Fields
  | .apiService, c => ApiService.Content.toFields c
  | .configMap, c => ConfigMap.Content.toFields write c
  | .customResourceDefinition, c => ResourceDefinition.Content.toFields c
  | .mutatingWebhookConfiguration, c => WebhookConfiguration.Content.toFields c
  | .route, c => Route.Content.toFields c
  | .secret, c => Secret.Content.toFields write c
  | .validatingWebhookConfiguration, c => WebhookConfiguration.Content.toFields c

def envelope : List String := ["apiVersion", "kind", "metadata"]

/-- Reads the JSON of an object of the kind `k`, nested at most `depth` deep, as it is always
written. -/
def settle? (depth : Nat) (k : Kind) (j : Json) : Option Json :=
  if k = .route then Route.settle? depth j else (Layout.ofKind k).settle? depth j

/-- Reads an object of the kind `k` that stands inside of other values. -/
def readAt? (depth : Nat) (k : Kind) (j : Json) : Option (Object k) := do
  let fields ← (← settle? depth k j).fields?
  let metadata ← Metadata.ofFields? (← (← fields.get? "metadata").fields?)
  let content ← contentOfFields? (fields.except envelope) k
  some ⟨metadata, content⟩

def ofJson? (k : Kind) (j : Json) : Option (Object k) := readAt? Json.maxDepth k j

/-- The JSON of an object, with the bytes under each name written by `write`. -/
def toJsonWith (write : String → Bytes → Json) (o : Object k) : Json :=
  Json.sorted ([("apiVersion", .string k.apiVersion), ("kind", .string k.name),
    ("metadata", Json.sorted o.metadata.toFields)] ++ contentToFields write k o.content)

def toJson (o : Object k) : Json := o.toJsonWith fun _ => Json.ofBytes

end Object

structure AnyObject where
  kind : Kind
  object : Object kind

end CertKeeper
