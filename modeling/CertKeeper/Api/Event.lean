import CertKeeper.Api.Client

/-!
# Events

A warning on an object is published as an event. That it cannot be published is no error.
-/

namespace CertKeeper.Api

structure Regarding where
  apiVersion : Option String
  kind : Option String
  ns : Option String
  name : Option String

def Regarding.toJson (r : Regarding) : Json :=
  .object (Json.optionalField "apiVersion" (r.apiVersion.map .string)
    ++ Json.optionalField "kind" (r.kind.map .string)
    ++ Json.optionalField "name" (r.name.map .string)
    ++ Json.optionalField "namespace" (r.ns.map .string))

/-- The event that a controller reports. The instance is named like the controller unless it has a
name of its own. -/
def eventJson (controller : String) (pod : Option String) (reason note : String) (r : Regarding) :
    Json :=
  .object [("action", .string "Reconcile"), ("note", .string note), ("reason", .string reason),
    ("regarding", r.toJson), ("reportingController", .string controller),
    ("reportingInstance", .string (pod.getD controller)), ("type", .string "Warning")]

/-- Publishes a warning beside the object that it is about. Objects without a namespace have their
events in the default one. -/
def publishWarning (server : Server) (controller : String) (pod : Option String)
    (reason note : String) (r : Regarding) : Call Unit :=
  let target := "/apis/events.k8s.io/v1/namespaces/" ++ r.ns.getD "default" ++ "/events?"
  let call := send server "POST" target (some (eventJson controller pod reason note r))
  ⟨.ok (), call.requests⟩

end CertKeeper.Api
