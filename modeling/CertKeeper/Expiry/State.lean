import CertKeeper.Bundle
import CertKeeper.Expiry.Policy
import CertKeeper.Object.Basic

/-!
# Expiry of the certificates of a secret

A secret that has opted in is expiring when the first of its certificates expires before the
threshold of its policy.
-/

namespace CertKeeper.Expiry

inductive State where
  /-- The secret has not opted in or holds no certificate. -/
  | noCheck
  /-- The next check is due after so many nanoseconds. -/
  | normal (after : Nat)
  /-- The certificate expires in so many days. -/
  | soonToExpire (after : Nat) (days : Int)
  deriving DecidableEq, Repr

/-- A point in time, in nanoseconds since 1970. -/
structure Instant where
  nanos : Int
  deriving DecidableEq, Repr

/-- A number stands for the point in time so many seconds after the start of 1970. -/
instance : Coe Int Instant := ⟨fun seconds => ⟨seconds * 1000000000⟩⟩

def startOfTime : Int := -8334601228800 * 1000000000

def endOfTime : Int := 8210266876799 * 1000000000 + 999999999

/-- When the first of the certificates of a secret expires, in seconds. -/
def expiry? (s : Secret) : Option Int := (s.content.value Field.tlsCert).bind Bundle.earliestExpiry?

/-- Whole days, towards zero, until a time in seconds, made up of whole seconds and hours. -/
def daysUntil (expiry : Int) (now : Instant) : Int :=
  (((expiry * 1000000000 - now.nanos).tdiv 1000000000).tdiv 3600).tdiv 24

/-- The point in time after a span, unless it cannot be named. -/
def Instant.add? (now : Instant) (span : Int) : Option Instant :=
  let nanos := now.nanos + span
  if startOfTime ≤ nanos ∧ nanos ≤ endOfTime then some ⟨nanos⟩ else none

/-- Whether a certificate expires before the threshold, as seen at `now`. A threshold that falls on
no point in time counts as passed. -/
def isSoon (threshold expiry : Int) (now : Instant) : Bool :=
  match now.add? threshold with
  | some limit => expiry * 1000000000 < limit.nanos
  | none => true

def stateAt (s : Secret) (now : Instant) : State :=
  if s.annotations.isEnabled Key.generateCertExpiryAlert then
    match expiry? s with
    | none => .noCheck
    | some expiry =>
      let policy := Policy.ofAnnotations s.annotations
      if isSoon policy.threshold expiry now then
        .soonToExpire policy.soonFrequency (daysUntil expiry now)
      else .normal policy.normalFrequency
  else .noCheck

def evaluate (s : Secret) (seconds : Int) : State := stateAt s seconds

end CertKeeper.Expiry
