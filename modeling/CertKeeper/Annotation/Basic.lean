import CertKeeper.Annotation.Keys
import CertKeeper.Annotation.Reference
import CertKeeper.Error
import CertKeeper.Json

/-!
# Reading annotations

An annotation names a secret, opts in to a feature or sets a parameter. A parameter that is absent,
empty or unreadable takes its default; a reference that cannot be read is an error.
-/

namespace CertKeeper

abbrev Annotations := Dict String

namespace Annotations

/-- Opting in takes exactly the value `true`. -/
def isEnabled (a : Annotations) (key : String) : Bool := a[key]? == some "true"

theorem isEnabled_iff {a : Annotations} {key : String} :
    a.isEnabled key = true ↔ a[key]? = some "true" := by
  simp [isEnabled]

def qualifiedReference (a : Annotations) (key : String) : Except SyncError (Option Reference) :=
  match a[key]? with
  | none => .ok none
  | some raw =>
    match Reference.parseQualified? raw with
    | some r => .ok (some r)
    | none => .error (.malformedReference key raw)

/-- The reference under `key` to a secret in `ns`: a bare name, or the qualified form with that
namespace. -/
def localReference (a : Annotations) (key ns : String) : Except SyncError (Option Reference) :=
  match a[key]? with
  | none => .ok none
  | some raw =>
    if raw ≠ "" ∧ '/' ∉ raw.toList then .ok (some ⟨ns, raw⟩)
    else
      match Reference.parseQualified? raw with
      | some r => if r.ns = ns then .ok (some r) else .error (.malformedReference key raw)
      | none => .error (.malformedReference key raw)

/-- The value under `key`, if it is not empty. -/
def textOr (a : Annotations) (key default : String) : String :=
  match a[key]? with
  | some v => if v = "" then default else v
  | none => default

def keystorePassword (a : Annotations) : String := a.textOr Key.javaKeystorePassword "changeme"

def sourceCaKey (a : Annotations) : String := a.textOr Key.sourceCaKey Field.caBundle

def durationOr (a : Annotations) (key : String) (default : Nat) : Nat :=
  match a[key]? with
  | none => default
  | some raw => (Duration.parse raw).toOption.getD default

def signedDurationOr (a : Annotations) (key : String) (default : Int) : Int :=
  match a[key]? with
  | none => default
  | some raw => (Duration.parseSigned raw).toOption.getD default

end Annotations
end CertKeeper
