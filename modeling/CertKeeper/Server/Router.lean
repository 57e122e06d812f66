import CertKeeper.Metrics.Exposition

/-!
# The probe server

The operator answers on three paths: with its metrics, that it lives, and whether it is ready.
-/

namespace CertKeeper.Server

structure State where
  metrics : Metrics
  isReady : Bool

structure Response where
  status : Nat
  contentType : Option String
  /-- The methods that are allowed, if the one that was used is not. -/
  allow : Option String
  body : String
  deriving DecidableEq, Repr

def Response.empty (status : Nat) : Response := ⟨status, none, none, ""⟩

inductive Endpoint where
  | metrics
  | health
  | readiness
  deriving DecidableEq, Repr

def Endpoint.ofPath? : String → Option Endpoint
  | "/metrics" => some metrics
  | "/healthz" => some health
  | "/readyz" => some readiness
  | _ => none

/-- What follows the host of a target that names it: the path and more. -/
def afterHost? (target : List Char) : Option (List Char) :=
  match target.dropWhile (· ≠ ':') with
  | ':' :: '/' :: '/' :: rest => some (rest.dropWhile fun c => c ≠ '/' && c ≠ '?' && c ≠ '#')
  | _ => none

/-- The path of a target, without its query and fragment. A target starts with its path or names the
host before it, where the empty path is that of the root. -/
def pathOf (target : String) : String :=
  let path := fun (cs : List Char) => String.ofList (cs.takeWhile fun c => c ≠ '?' && c ≠ '#')
  if target.toList.head? = some '/' then path target.toList
  else
    match afterHost? target.toList with
    | some rest => path (if rest.head? = some '/' then rest else '/' :: rest)
    | none => target

def get (s : State) : Endpoint → Response
  | .metrics => ⟨200, some "text/plain; version=0.0.4; charset=utf-8", none, s.metrics.text⟩
  | .health => .empty 200
  | .readiness => .empty (if s.isReady then 200 else 503)

/-- A request for the head is answered like one for the whole, without a body. -/
def handle (s : State) (method target : String) : Response :=
  match Endpoint.ofPath? (pathOf target) with
  | none => .empty 404
  | some e =>
    if method = "GET" then get s e
    else if method = "HEAD" then { get s e with body := "" }
    else { Response.empty 405 with allow := some "GET,HEAD" }

end CertKeeper.Server
