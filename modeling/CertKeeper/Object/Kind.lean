/-!
# Kinds of objects

The kinds of cluster objects that are read or written, with their names in the API.
-/

namespace CertKeeper

inductive Kind where
  | apiService
  | configMap
  | customResourceDefinition
  | mutatingWebhookConfiguration
  | route
  | secret
  | validatingWebhookConfiguration
  deriving DecidableEq, Repr, Inhabited

namespace Kind

/-- All kinds, in the order of their names. -/
def all : List Kind :=
  [apiService, configMap, customResourceDefinition, mutatingWebhookConfiguration, route, secret,
    validatingWebhookConfiguration]

def name : Kind → String
  | apiService => "APIService"
  | configMap => "ConfigMap"
  | customResourceDefinition => "CustomResourceDefinition"
  | mutatingWebhookConfiguration => "MutatingWebhookConfiguration"
  | route => "Route"
  | secret => "Secret"
  | validatingWebhookConfiguration => "ValidatingWebhookConfiguration"

def ofName? (s : String) : Option Kind := all.find? fun k => k.name = s

/-- The API group, empty for the core group. -/
def group : Kind → String
  | apiService => "apiregistration.k8s.io"
  | customResourceDefinition => "apiextensions.k8s.io"
  | mutatingWebhookConfiguration | validatingWebhookConfiguration => "admissionregistration.k8s.io"
  | route => "route.openshift.io"
  | configMap | secret => ""

def version : Kind → String := fun _ => "v1"

def apiVersion (k : Kind) : String :=
  if k.group = "" then k.version else k.group ++ "/" ++ k.version

def plural : Kind → String
  | apiService => "apiservices"
  | configMap => "configmaps"
  | customResourceDefinition => "customresourcedefinitions"
  | mutatingWebhookConfiguration => "mutatingwebhookconfigurations"
  | route => "routes"
  | secret => "secrets"
  | validatingWebhookConfiguration => "validatingwebhookconfigurations"

def isNamespaced : Kind → Bool
  | configMap | route | secret => true
  | _ => false

end Kind
end CertKeeper
