import CertKeeper.Api.Target
import CertKeeper.Json.Reader
import CertKeeper.Object.Basic

/-!
# Calls of the API server

The calls that the operator makes, as the requests that are sent and the answers that are read.
Every call is paired with the requests that it has sent, in their order.
-/

namespace CertKeeper.Api

structure Request where
  method : String
  /-- The path and the query. -/
  target : String
  body : Option Json

structure Response where
  status : Nat
  body : String

/-- A server answers by method and path. -/
abbrev Server := (method path : String) → Response

/-- The result of a call and the requests that it has sent. -/
structure Call (α : Type) where
  result : Except ApiError α
  requests : List Request

namespace Call

def fail (e : ApiError) : Call α := ⟨.error e, []⟩

def andThen (c : Call α) (f : α → Call β) : Call β :=
  match c.result with
  | .error e => ⟨.error e, c.requests⟩
  | .ok a =>
    let next := f a
    ⟨next.result, c.requests ++ next.requests⟩

def read (c : Call α) (f : α → Option β) : Call β :=
  c.andThen fun a =>
    match f a with
    | some b => ⟨.ok b, []⟩
    | none => fail .unreadable

end Call

def statusPhrase : Nat → String
  | 400 => "Bad Request"
  | 401 => "Unauthorized"
  | 402 => "Payment Required"
  | 403 => "Forbidden"
  | 404 => "Not Found"
  | 405 => "Method Not Allowed"
  | 406 => "Not Acceptable"
  | 407 => "Proxy Authentication Required"
  | 408 => "Request Timeout"
  | 409 => "Conflict"
  | 410 => "Gone"
  | 411 => "Length Required"
  | 412 => "Precondition Failed"
  | 413 => "Payload Too Large"
  | 414 => "URI Too Long"
  | 415 => "Unsupported Media Type"
  | 416 => "Range Not Satisfiable"
  | 417 => "Expectation Failed"
  | 418 => "I'm a teapot"
  | 421 => "Misdirected Request"
  | 422 => "Unprocessable Entity"
  | 423 => "Locked"
  | 424 => "Failed Dependency"
  | 425 => "Too Early"
  | 426 => "Upgrade Required"
  | 428 => "Precondition Required"
  | 429 => "Too Many Requests"
  | 431 => "Request Header Fields Too Large"
  | 451 => "Unavailable For Legal Reasons"
  | 500 => "Internal Server Error"
  | 501 => "Not Implemented"
  | 502 => "Bad Gateway"
  | 503 => "Service Unavailable"
  | 504 => "Gateway Timeout"
  | 505 => "HTTP Version Not Supported"
  | 506 => "Variant Also Negotiates"
  | 507 => "Insufficient Storage"
  | 508 => "Loop Detected"
  | 510 => "Not Extended"
  | 511 => "Network Authentication Required"
  | _ => "<unknown status code>"

/-- A field that may be left out, but is not `null`. -/
def textOrEmpty (fields : Json.Fields) (key : String) : Option String :=
  match fields.get? key with
  | none => some ""
  | some j => j.text?

def statusFields : List String := ["status", "message", "reason", "code"]

/-- The parts of a status object, which has each of them at most once, or is the list of all. -/
def statusParts? : Json → Option Json.Fields
  | .object fields => if Json.Fields.repeats fields statusFields then none else some fields
  | .array items =>
    if items.length = statusFields.length then some (statusFields.zip items) else none
  | _ => none

/-- Reads a status object. Its message and its reason may be left out. -/
def statusOf? (j : Json) : Option ApiStatus := do
  let fields ← statusParts? j
  let code ← (← fields.get? "code").int?
  if code < 0 ∨ UInt16.size ≤ code then none
  else
    some {
      status := ← (← fields.get? "status").text?
      message := ← textOrEmpty fields "message"
      reason := ← textOrEmpty fields "reason"
      code := code.toNat }

namespace Response

/-- The status that an answer stands for which is not a success. -/
def failure (r : Response) : ApiStatus :=
  match Json.ofText? r.body >>= statusOf? with
  | some s => s
  | none =>
    { status := toString r.status ++ " " ++ statusPhrase r.status
      message := Text.Quoted.quote r.body
      reason := "Failed to parse error data"
      code := r.status }

def result (r : Response) : Except ApiError Json :=
  if 400 ≤ r.status ∧ r.status < 600 then .error (.status r.failure)
  else
    match Json.ofText? r.body with
    | some j => .ok j
    | none => .error .unreadable

end Response

/-- Sends one request, unless its target is none. -/
def send (server : Server) (method target : String) (body : Option Json) : Call Json :=
  match Target.sent? target with
  | none => .fail .unreadable
  | some target => ⟨(server method (Target.path target)).result, [⟨method, target, body⟩]⟩

def collectionPath (k : Kind) (ns : Option String) : String :=
  let root := if k.group = "" then "/api/" ++ k.version else "/apis/" ++ k.apiVersion
  let scope := match ns with
    | some ns => if k.isNamespaced then "/namespaces/" ++ ns else ""
    | none => ""
  root ++ scope ++ "/" ++ k.plural

/-- Fetches an object. That there is none is no error. -/
def get (server : Server) (k : Kind) (ns : Option String) (name : String) :
    Call (Option (Object k)) :=
  if name = "" then .fail .unreadable
  else
    let call := send server "GET" (collectionPath k ns ++ "/" ++ name) none
    match call.result with
    | .error (.status s) =>
      if s.reason = "NotFound" then ⟨.ok none, call.requests⟩
      else ⟨.error (.status s), call.requests⟩
    | _ => call.read fun j => (Object.ofJson? k j).map some

/-- Reads the items of a list. Fields that a list does not have are read as well, but dropped. -/
def itemsOf? (k : Kind) (j : Json) : Option (List (Object k)) := do
  let depth := Json.maxDepth - 1
  let fields ← j.fields?
  let _ ← (fields.except ["items", "metadata"]).mapM fun kv => kv.2.settled? depth
  let _ ← match fields.get? "metadata" with
    | none => some Json.null
    | some metadata => Layout.listMetadata.settle? depth metadata
  if fields.repeats ["items", "metadata"] then none
  else
    match ← fields.get? "items" with
    | .null => some []
    | items => Json.list? (Object.readAt? (depth - 1) k) items

def list (server : Server) (k : Kind) (ns : Option String) : Call (List (Object k)) :=
  (send server "GET" (collectionPath k ns ++ "?") none).read (itemsOf? k)

def update {k : Kind} (server : Server) (o : Object k) : Call Unit :=
  let name := o.metadata.nameOrStem
  if name = "" then .fail .unreadable
  else
    let target := collectionPath k o.metadata.ns ++ "/" ++ name ++ "?"
    (send server "PUT" target (some o.toJson)).read fun j => (Object.ofJson? k j).map fun _ => ()

end CertKeeper.Api
