import CertKeeper.Annotation.Basic

/-!
# Expiry policies

How long before its expiry a certificate counts as expiring, and how often it is checked. Each of
the three is set by an annotation of its own.
-/

namespace CertKeeper.Expiry

/-- Times in nanoseconds. -/
structure Policy where
  /-- Negative if certificates count as expiring only after they have expired. -/
  threshold : Int
  /-- The time between checks of a certificate that is expiring. -/
  soonFrequency : Nat
  /-- The time between checks of any other certificate. -/
  normalFrequency : Nat
  deriving DecidableEq, Repr

namespace Policy

def minute : Nat := 60 * Duration.second
def hour : Nat := 60 * minute
def day : Nat := 24 * hour

/-- Ninety days ahead, every hour and every week. -/
def default : Policy := ⟨90 * day, hour, 7 * day⟩

def minFrequency : Nat := Duration.second

/-- The frequency under `key`. One below the least is as good as none. -/
def frequencyOr (a : Annotations) (key : String) (default : Nat) : Nat :=
  let frequency := a.durationOr key default
  if frequency < minFrequency then default else frequency

def ofAnnotations (a : Annotations) : Policy where
  threshold := a.signedDurationOr Key.certSoonToExpireThreshold default.threshold
  soonFrequency := frequencyOr a Key.certSoonToExpireCheckFrequency default.soonFrequency
  normalFrequency := frequencyOr a Key.certExpiryCheckFrequency default.normalFrequency

end Policy
end CertKeeper.Expiry
