import CertKeeper.Expiry.State
import CertKeeper.Proofs.Duration.Range
import CertKeeper.Proofs.Expiry.Policy

/-!
# Thresholds stay within time

A threshold is at most some hundreds of years, since no duration is longer, and there are hundreds
of thousands of years before and after those with four digits. So counted from one of these, every
threshold falls on a point in time, and expiry is decided by comparing two of them.
-/

namespace CertKeeper.Expiry

variable {a : Annotations} {now limit : Instant} {threshold expiry : Int}

namespace Policy

theorem natAbs_threshold_le (a : Annotations) :
    (ofAnnotations a).threshold.natAbs ≤ Duration.top := by
  rcases (isOf_ofAnnotations a).threshold.cases with ⟨raw, -, hraw⟩ | ⟨-, hdefault⟩
  · exact Duration.natAbs_le_top_of_parseSigned (threshold?_eq_some.mp hraw)
  · rw [hdefault]
    decide

end Policy

theorem nanos_of_add? (h : now.add? threshold = some limit) :
    limit.nanos = now.nanos + threshold := by
  obtain ⟨-, hlimit⟩ := Option.ite_none_right_eq_some.mp h
  rw [← Option.some.inj hlimit]

theorem outside_of_add?_eq_none (h : now.add? threshold = none) :
    now.nanos + threshold < startOfTime ∨ endOfTime < now.nanos + threshold := by
  refine Decidable.byContradiction fun hinside => ?_
  have hsome : now.add? threshold = some ⟨now.nanos + threshold⟩ := if_pos (by omega)
  cases h.symm.trans hsome

theorem isSoon_of_add? (h : now.add? threshold = some limit) :
    isSoon threshold expiry now = decide (expiry * 1000000000 < limit.nanos) := by
  rw [isSoon, h]

def startOfYear (year : Int) : Int := Time.timestamp ⟨year, 1, 1⟩ 0 0 0 * 1000000000

/-- Whether a point in time lies in one of the years from 1970 to 9999. -/
def Instant.IsUsual (now : Instant) : Prop :=
  startOfYear 1970 ≤ now.nanos ∧ now.nanos < startOfYear 10000

/-- There are more years than thresholds have at both ends of the usual years. -/
theorem add?_threshold (a : Annotations) (hnow : now.IsUsual) :
    now.add? (Policy.ofAnnotations a).threshold
      = some ⟨now.nanos + (Policy.ofAnnotations a).threshold⟩ := by
  have hthreshold := Policy.natAbs_threshold_le a
  have hfirst : startOfTime + Duration.top ≤ startOfYear 1970 := by decide
  have hlast : startOfYear 10000 + Duration.top ≤ endOfTime := by decide
  obtain ⟨hstart, hend⟩ := hnow
  exact if_pos (by omega)

theorem soonToExpire_iff {s : Secret}
    (hlimit : now.add? (Policy.ofAnnotations s.annotations).threshold = some limit) :
    (∃ after days, stateAt s now = .soonToExpire after days) ↔
      s.annotations[Key.generateCertExpiryAlert]? = some "true" ∧
        ∃ expiry, expiry? s = some expiry ∧ expiry * 1000000000 < limit.nanos := by
  rw [← Annotations.isEnabled_iff]
  unfold stateAt
  cases s.annotations.isEnabled Key.generateCertExpiryAlert with
  | false => simp
  | true =>
    cases expiry? s with
    | none => simp
    | some expiry =>
      simp only [isSoon_of_add? hlimit, if_true, decide_eq_true_eq, true_and, Option.some.injEq,
        exists_eq_left']
      by_cases hsoon : expiry * 1000000000 < limit.nanos <;> simp [hsoon]

/-- Every duration that is read fits into 64 bits. So a sign can be given to each of them, which
then counts for its magnitude alone, and no threshold leads out of the points in time. -/
theorem durations_stay_in_range :
    (∀ raw nanos, Duration.parse raw = .ok nanos → nanos < UInt64.size) ∧
    (∀ raw, ∃ isNegative magnitude,
      Duration.IsSigned (Text.trim raw.toList) isNegative magnitude ∧
      ((∃ span, Duration.parseSigned raw = .ok span) ↔
        ∃ nanos, Duration.parse (String.ofList magnitude) = .ok nanos) ∧
      (∀ nanos, Duration.parse (String.ofList magnitude) = .ok nanos →
        Duration.parseSigned raw = .ok (if isNegative then -(nanos : Int) else nanos)) ∧
      ∀ text, Duration.parseSigned raw ≠ .error (.outOfRange text)) ∧
    ∀ now : Instant, now.IsUsual →
      (∀ a : Annotations, ∃ limit, now.add? (Policy.ofAnnotations a).threshold = some limit ∧
        limit.nanos = now.nanos + (Policy.ofAnnotations a).threshold) ∧
      ∀ s : Secret, (∃ after days, stateAt s now = .soonToExpire after days) ↔
        s.annotations[Key.generateCertExpiryAlert]? = some "true" ∧
          ∃ expiry, expiry? s = some expiry ∧
            expiry * 1000000000 < now.nanos + (Policy.ofAnnotations s.annotations).threshold := by
  refine ⟨fun raw nanos h => ?_, fun raw => ?_, fun now hnow => ⟨fun a => ?_, fun s => ?_⟩⟩
  · have htop := Duration.le_top_of_parse h
    simp only [Duration.top, UInt64.size] at htop ⊢
    omega
  · refine ⟨_, _, Duration.isSigned_splitSign _, ?_, fun nanos h => ?_, fun text h => ?_⟩
    · simp only [Duration.parseSigned_eq_map, map_eq_ok]
      constructor
      · rintro ⟨_, nanos, h, -⟩
        exact ⟨nanos, h⟩
      · rintro ⟨nanos, h⟩
        exact ⟨_, nanos, h, rfl⟩
    · rw [Duration.parseSigned_eq_map, h]
      rfl
    · exact (Duration.failsOnly_parseSigned raw).of_eq_error h ⟨text, rfl⟩
  · exact ⟨_, add?_threshold a hnow, rfl⟩
  · exact soonToExpire_iff (add?_threshold s.annotations hnow)

namespace FarBack

/-- About 585 years, which are more nanoseconds than 64 bits count. -/
def text : String := "5124096h"

theorem parse_text : Duration.parse text = .ok Duration.top := by
  have hread : (Duration.parse text).toOption = some Duration.top := by decide +kernel
  cases h : Duration.parse text with
  | ok nanos =>
    rw [h] at hread
    exact congrArg Except.ok (Option.some.inj hread)
  | error e =>
    rw [h] at hread
    cases hread

def annotations : Annotations :=
  (∅ : Annotations).insert Key.certSoonToExpireThreshold ("-" ++ text)

theorem threshold_annotations : (Policy.ofAnnotations annotations).threshold = -Duration.top := by
  decide +kernel

end FarBack

open FarBack in
/-- The longest threshold, counted back from the first of the usual points in time. -/
theorem durations_stay_in_range_far_back :
    (⟨0⟩ : Instant).IsUsual ∧ Duration.top < UInt64.size ∧
      Duration.parseSigned ("-" ++ text) = .ok (-Duration.top) ∧
      ∃ limit, (⟨0⟩ : Instant).add? (Policy.ofAnnotations annotations).threshold = some limit ∧
        limit.nanos = -Duration.top := by
  have husual : (⟨0⟩ : Instant).IsUsual := by
    unfold Instant.IsUsual
    decide
  obtain ⟨hbound, hsigned, hreach⟩ := durations_stay_in_range
  refine ⟨husual, hbound _ _ parse_text, ?_, ?_⟩
  · obtain ⟨isNegative, magnitude, hsign, -, hread, -⟩ := hsigned ("-" ++ text)
    have htrim : Text.trim ("-" ++ text).toList = '-' :: text.toList := by decide +kernel
    rw [htrim] at hsign
    cases hsign with
    | minus =>
      rw [hread Duration.top (by rw [String.ofList_toList, parse_text])]
      rfl
    | unsigned hminus hplus => exact absurd rfl hminus
  · obtain ⟨limit, hlimit, hnanos⟩ := (hreach _ husual).1 annotations
    refine ⟨limit, hlimit, ?_⟩
    rw [hnanos, threshold_annotations]
    exact Int.zero_add _

end CertKeeper.Expiry
