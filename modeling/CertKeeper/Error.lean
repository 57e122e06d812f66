import CertKeeper.Duration
import CertKeeper.Keystore.Error
import CertKeeper.Panic

/-!
# Errors of a reconciliation

Errors that the author of an object can mend are reported on the object and tried again later than
those of the cluster. A panic is no error that anybody could tell of: it ends the program.
-/

namespace CertKeeper

structure ApiStatus where
  status : String
  message : String
  reason : String
  code : Nat
  deriving DecidableEq, Repr

inductive ApiError where
  | status (status : ApiStatus)
  /-- A call that cannot be made, or an answer that cannot be read. -/
  | unreadable
  deriving DecidableEq, Repr

namespace ApiError

def failure (code : Nat) (reason message : String) : ApiError :=
  .status ⟨"Failure", message, reason, code⟩

/-- The status of a store call that fails inside the server. -/
def internal (message : String) : ApiError := failure 500 "InternalError" message

def notFound (name : String) : ApiError := failure 404 "NotFound" (name ++ " not found")

def conflict : ApiError := failure 409 "Conflict" "the object has been modified"

end ApiError

def ApiStatus.text (s : ApiStatus) : String :=
  s.message ++ ": " ++ s.reason ++ " (ErrorResponse \x7b status: " ++ Text.Quoted.quote s.status
    ++ ", message: " ++ Text.Quoted.quote s.message ++ ", reason: " ++ Text.Quoted.quote s.reason
    ++ ", code: " ++ toString s.code ++ " \x7d)"

inductive SyncError where
  | api (error : ApiError)
  | malformedReference (key value : String)
  | missingSource (source : String)
  | keystore (error : Keystore.Error)
  | systemCa (path reason : String)
  | watch (reason : String)
  /-- It was cut off. -/
  | panic (cause : Panic)
  deriving DecidableEq, Repr

namespace SyncError

/-- Whether the error is to be mended on the object. -/
def isReportable : SyncError → Bool
  | api _ | watch _ | panic _ => false
  | _ => true

def reason : SyncError → String
  | api _ => "ApiError"
  | malformedReference .. => "InvalidAnnotation"
  | missingSource _ => "SourceNotFound"
  | keystore _ => "KeystoreEncodingFailed"
  | systemCa .. => "SystemCaUnreadable"
  | watch _ => "WatchFailed"
  | panic _ => "Panic"

/-- The seconds after which the reconciliation is tried again. -/
def requeueSeconds? : SyncError → Option Nat
  | panic _ => none
  | e => some (if e.isReportable then 60 else 10)

/-- The text of an error, unless it is the text of an answer that cannot be read. -/
def message? : SyncError → Option String
  | api (.status s) => some ("Kubernetes API error: ApiError: " ++ s.text)
  | api .unreadable => none
  | malformedReference key value =>
    some ("Invalid annotation " ++ key ++ ": " ++ Text.Quoted.quote value)
  | missingSource source => some ("Source secret " ++ source ++ " not found")
  | keystore e => some ("Keystore encoding failed: " ++ e.message)
  | systemCa path reason => some ("Failed to read system CA file " ++ path ++ ": " ++ reason)
  | watch reason => some ("Watch failed: " ++ reason)
  | panic _ => none

end SyncError
end CertKeeper
