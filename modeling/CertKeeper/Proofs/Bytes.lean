import CertKeeper.Bytes
import Mathlib.Data.List.Induction
import Mathlib.Data.Nat.Digits.Defs
import Mathlib.Tactic.Ring

/-!
# Numbers as bytes

Bytes are digits in base 256. A number below `256 ^ w` is read back from its `w` bytes, and these are
the only `w` bytes that stand for it. Leading zeros say nothing: a number below `256 ^ w` has at most
`w` bytes after them.
-/

namespace CertKeeper.Bytes

@[simp] theorem toNat_nil : toNat [] = 0 := rfl

theorem toNat_append_singleton (b : Bytes) (x : UInt8) :
    toNat (b ++ [x]) = toNat b * 256 + x.toNat := by
  simp [toNat]

theorem toNat_append (a b : Bytes) : toNat (a ++ b) = toNat a * 256 ^ b.length + toNat b := by
  induction b using List.reverseRecOn with
  | nil => simp
  | append_singleton b x ih =>
    rw [← List.append_assoc, toNat_append_singleton, toNat_append_singleton, ih]
    simp only [List.length_append, List.length_singleton, pow_succ]
    ring

theorem toNat_cons (x : UInt8) (b : Bytes) :
    toNat (x :: b) = x.toNat * 256 ^ b.length + toNat b := by
  have h := toNat_append [x] b
  simpa [toNat] using h

/-- Bytes are the digits of their value in base 256, of which the last one counts least. -/
theorem toNat_eq_ofDigits (b : Bytes) :
    toNat b = Nat.ofDigits 256 (b.reverse.map UInt8.toNat) := by
  induction b using List.reverseRecOn with
  | nil => rfl
  | append_singleton b x ih =>
    rw [toNat_append_singleton, List.reverse_append, List.reverse_singleton, List.singleton_append,
      List.map_cons, Nat.ofDigits_cons, ih]
    omega

/-- The low `w` bytes of a number stand for its remainder. -/
theorem toNat_ofNat (w n : Nat) : toNat (ofNat w n) = n % 256 ^ w := by
  induction w generalizing n with
  | zero => simp [ofNat, Nat.mod_one]
  | succ w ih =>
    have hx : (UInt8.ofNat n).toNat = n % 256 := by simp
    rw [ofNat, toNat_append_singleton, ih, hx, pow_succ, Nat.mul_comm (256 ^ w) 256, Nat.mod_mul]
    omega

theorem toNat_ofNat_of_lt {w n : Nat} (h : n < 256 ^ w) : toNat (ofNat w n) = n := by
  rw [toNat_ofNat, Nat.mod_eq_of_lt h]

theorem toNat_lt (b : Bytes) : toNat b < 256 ^ b.length := by
  induction b using List.reverseRecOn with
  | nil => simp
  | append_singleton b x ih =>
    have hx := x.toNat_lt
    rw [toNat_append_singleton, List.length_append, List.length_singleton, pow_succ]
    omega

theorem ofNat_toNat (b : Bytes) : ofNat b.length (toNat b) = b := by
  induction b using List.reverseRecOn with
  | nil => rfl
  | append_singleton b x ih =>
    have hx := x.toNat_lt
    have hhigh : (toNat b * 256 + x.toNat) / 256 = toNat b := by omega
    have hlow : UInt8.ofNat (toNat b * 256 + x.toNat) = x := by
      apply UInt8.toNat_inj.mp
      simp
    rw [toNat_append_singleton, List.length_append, List.length_singleton, ofNat, hhigh, hlow, ih]

theorem toNat_trimmed (b : Bytes) : toNat (trimmed b) = toNat b := by
  induction b with
  | nil => rfl
  | cons x b ih =>
    by_cases hx : x = 0
    · subst x
      simpa [trimmed, toNat_cons] using ih
    · simp [trimmed, hx]

theorem pow_le_toNat_cons {x : UInt8} (hx : x ≠ 0) (b : Bytes) :
    256 ^ b.length ≤ toNat (x :: b) := by
  have hpos : 1 ≤ x.toNat := by
    rcases Nat.eq_zero_or_pos x.toNat with h | h
    · exact absurd (UInt8.toNat_inj.mp h) hx
    · exact h
  rw [toNat_cons]
  have := Nat.mul_le_mul_right (256 ^ b.length) hpos
  omega

theorem trimmed_eq_cons {b : Bytes} {x : UInt8} {rest : Bytes} (h : trimmed b = x :: rest) :
    x ≠ 0 := by
  induction b with
  | nil => simp [trimmed] at h
  | cons y b ih =>
    by_cases hy : y = 0
    · subst y
      exact ih (by simpa [trimmed] using h)
    · have hxy : y = x := by simpa [trimmed, hy] using congrArg List.head? h
      exact hxy ▸ hy

theorem length_trimmed_le {b : Bytes} {w : Nat} (h : toNat b < 256 ^ w) :
    (trimmed b).length ≤ w := by
  cases hb : trimmed b with
  | nil => simp
  | cons x rest =>
    have hle := pow_le_toNat_cons (trimmed_eq_cons hb) rest
    rw [← hb, toNat_trimmed] at hle
    have hlt : 256 ^ rest.length < 256 ^ w := by omega
    have hw : rest.length < w := (Nat.pow_lt_pow_iff_right (by omega : 1 < 256)).mp hlt
    simpa using Nat.succ_le_of_lt hw

theorem trimmed_ne_nil {b : Bytes} (h : 0 < toNat b) : trimmed b ≠ [] := by
  intro hb
  have := toNat_trimmed b
  simp [hb] at this
  omega

end CertKeeper.Bytes
