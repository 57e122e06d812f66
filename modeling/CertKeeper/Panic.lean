/-!
# Panics

Sums are checked. One that does not fit cuts the program off in the midst of what it does, and
nothing comes of it.
-/

namespace CertKeeper

/-- Why the program was cut off. -/
inductive Panic where
  | addOverflow
  deriving DecidableEq, Repr

/-- The sum of two numbers of 32 bits, which has to be one as well. -/
def checkedAdd (a b : UInt32) : Except Panic UInt32 :=
  if a.toNat + b.toNat < UInt32.size then .ok (a + b) else .error .addOverflow

theorem checkedAdd_eq_ok {a b c : UInt32} :
    checkedAdd a b = .ok c ↔ c.toNat = a.toNat + b.toNat := by
  unfold checkedAdd
  split
  · rename_i hfits
    have hsum : (a + b).toNat = a.toNat + b.toNat := by
      rw [UInt32.toNat_add, Nat.mod_eq_of_lt hfits]
    rw [Except.ok.injEq, ← UInt32.toNat_inj, hsum, eq_comm]
  · rename_i hlarge
    have hc := c.toNat_lt_size
    constructor
    · intro h
      cases h
    · intro h
      omega

end CertKeeper
