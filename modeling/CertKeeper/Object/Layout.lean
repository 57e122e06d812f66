import CertKeeper.Object.Kind
import CertKeeper.Object.Shape

/-!
# Layouts of objects

The shape of the objects of each kind, of their metadata and of lists of them. A field that is
required is written also where it was left out.
-/

namespace CertKeeper.Layout

open Shape

def noObject : Json := .object []

def noItems : Json := .array []

def conditionFields : Fields :=
  optional "lastTransitionTime" .time ++ optionals .text ["message", "reason"]
    ++ requiredTexts ["status", "type"]

def ownerFields : Fields :=
  requiredTexts ["apiVersion", "kind", "name", "uid"]
    ++ optionals .bool ["blockOwnerDeletion", "controller"]

def managerFields : Fields :=
  optionals .text ["apiVersion", "fieldsType", "manager", "operation", "subresource"]
    ++ optional "fieldsV1" .anything ++ optional "time" .time

def metadata : Shape := .record
  (optionals labels ["annotations", "labels"]
    ++ optionals .time ["creationTimestamp", "deletionTimestamp"]
    ++ optionals (.int 64) ["deletionGracePeriodSeconds", "generation"]
    ++ optionals .text ["generateName", "name", "namespace", "resourceVersion", "selfLink", "uid"]
    ++ optional "finalizers" texts
    ++ optional "managedFields" (.list (.record managerFields))
    ++ optional "ownerReferences" (.list (.record ownerFields)))

def listMetadata : Shape := .record
  (optionals .text ["continue", "resourceVersion", "selfLink"]
    ++ optional "remainingItemCount" (.int 64))

def apiServiceReference : Shape := .record
  (optionals .text ["name", "namespace"] ++ optional "port" (.int 32))

def apiServiceFields : Fields :=
  optional "spec" (.record
    (optional "caBundle" .bytes ++ optionals .text ["group", "version"]
      ++ required "groupPriorityMinimum" (.int 32) (.ofNat 0)
      ++ optional "insecureSkipTLSVerify" .bool
      ++ optional "service" apiServiceReference
      ++ required "versionPriority" (.int 32) (.ofNat 0)))
  ++ optional "status" (.record (optional "conditions" (.list (.record conditionFields))))

def configMapFields : Fields :=
  optional "binaryData" (.dict .bytes) ++ optional "data" labels ++ optional "immutable" .bool

def secretFields : Fields :=
  optional "data" (.dict .bytes) ++ optional "immutable" .bool ++ optional "stringData" labels
    ++ optional "type" .text

def clientConfig : Shape := .record
  (optional "caBundle" .bytes
    ++ optional "service" (.record
      (requiredTexts ["name", "namespace"] ++ optional "path" .text ++ optional "port" (.int 32)))
    ++ optional "url" .text)

def selector : Shape := .record
  (optional "matchExpressions" (.list (.record
      (requiredTexts ["key", "operator"] ++ optional "values" texts)))
    ++ optional "matchLabels" labels)

def webhookFields : Fields :=
  required "admissionReviewVersions" texts noItems
    ++ required "clientConfig" clientConfig noObject
    ++ optionals .text ["failurePolicy", "matchPolicy"]
    ++ optional "matchConditions" (.list (.record (requiredTexts ["expression", "name"])))
    ++ requiredTexts ["name", "sideEffects"]
    ++ optionals selector ["namespaceSelector", "objectSelector"]
    ++ optional "rules" (.list (.record
      (optionals texts ["apiGroups", "apiVersions", "operations", "resources"]
        ++ optional "scope" .text)))
    ++ optional "timeoutSeconds" (.int 32)

def validatingFields : Fields := optional "webhooks" (.list (.record webhookFields))

def mutatingFields : Fields :=
  optional "webhooks" (.list (.record (webhookFields ++ optional "reinvocationPolicy" .text)))

def conversion : Shape := .record
  (requiredTexts ["strategy"]
    ++ optional "webhook" (.record
      (optional "clientConfig" clientConfig ++ required "conversionReviewVersions" texts noItems)))

def resourceNames : Shape := .record
  (optionals texts ["categories", "shortNames"] ++ optionals .text ["listKind", "singular"]
    ++ requiredTexts ["kind", "plural"])

def columnFields : Fields :=
  optionals .text ["description", "format"] ++ requiredTexts ["jsonPath", "name", "type"]
    ++ optional "priority" (.int 32)

def subresources : Shape := .record
  (optional "scale" (.record
      (optional "labelSelectorPath" .text
        ++ requiredTexts ["specReplicasPath", "statusReplicasPath"]))
    ++ optional "status" .anything)

def versionFields : Fields :=
  optional "additionalPrinterColumns" (.list (.record columnFields))
    ++ optional "deprecated" .bool ++ optional "deprecationWarning" .text
    ++ requiredTexts ["name"]
    ++ optional "schema" (.record (optional "openAPIV3Schema" (.schema .never)))
    ++ optional "selectableFields" (.list (.record (requiredTexts ["jsonPath"])))
    ++ required "served" .bool (.bool false) ++ required "storage" .bool (.bool false)
    ++ optional "subresources" subresources

def noNames : Json := .object [("kind", .string ""), ("plural", .string "")]

def noSpec : Json := .object
  [("group", .string ""), ("names", noNames), ("scope", .string ""), ("versions", noItems)]

def resourceDefinitionFields : Fields :=
  required "spec" (.record
    (optional "conversion" conversion ++ requiredTexts ["group", "scope"]
      ++ required "names" resourceNames noNames ++ optional "preserveUnknownFields" .bool
      ++ required "versions" (.list (.record versionFields)) noItems)) noSpec
  ++ optional "status" (.record
    (optional "acceptedNames" resourceNames
      ++ optional "conditions" (.list (.record conditionFields))
      ++ optional "storedVersions" texts))

/-- The fields of an object beside those that all objects have. Those of routes are not fixed. -/
def contentFields : Kind → Fields
  | .apiService => apiServiceFields
  | .configMap => configMapFields
  | .customResourceDefinition => resourceDefinitionFields
  | .mutatingWebhookConfiguration => mutatingFields
  | .route => []
  | .secret => secretFields
  | .validatingWebhookConfiguration => validatingFields

/-- An object that may name its kind, but no other one. -/
def ofKind (k : Kind) : Shape := .record
  (optional "apiVersion" (.exactly k.apiVersion) ++ optional "kind" (.exactly k.name)
    ++ required "metadata" metadata noObject ++ contentFields k)

end CertKeeper.Layout
