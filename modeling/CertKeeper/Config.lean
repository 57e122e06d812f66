import CertKeeper.Json

/-!
# Configuration

The settings of the operator come from three environment variables. An empty one counts as unset.
-/

namespace CertKeeper

inductive RouteSupport where
  /-- Only when the cluster serves the route API. -/
  | auto
  | enabled
  | disabled
  deriving DecidableEq, Repr

def RouteSupport.name : RouteSupport → String
  | auto => "auto"
  | enabled => "enabled"
  | disabled => "disabled"

structure Config where
  /-- The PEM bundle that is injected as the system CA. -/
  systemCaFile : String
  metricsBindAddress : String
  routes : RouteSupport
  deriving DecidableEq, Repr

namespace Config

inductive Error where
  | unknownRouteSupport (value : String)
  deriving DecidableEq, Repr

def Error.message : Error → String
  | unknownRouteSupport value => "ENABLE_ROUTES must be one of auto, true, false; got " ++ value

def defaultSystemCaFile : String := "/var/run/secrets/kubernetes.io/serviceaccount/service-ca.crt"

def defaultMetricsBindAddress : String := "0.0.0.0:8080"

/-- The value of a variable, or `default` when it is unset or empty. -/
def setting (env : Dict String) (key default : String) : String :=
  match env[key]? with
  | some v => if v = "" then default else v
  | none => default

def routeSupport : String → Except Error RouteSupport
  | "auto" => .ok .auto
  | "true" => .ok .enabled
  | "false" => .ok .disabled
  | other => .error (.unknownRouteSupport other)

def ofEnv (env : Dict String) : Except Error Config := do
  let routes ← routeSupport (setting env "ENABLE_ROUTES" "auto")
  .ok {
    systemCaFile := setting env "SYSTEM_CA_FILE" defaultSystemCaFile
    metricsBindAddress := setting env "METRICS_BIND_ADDRESS" defaultMetricsBindAddress
    routes }

end Config
end CertKeeper
