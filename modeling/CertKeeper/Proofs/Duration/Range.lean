import CertKeeper.Duration
import CertKeeper.Proofs.Except

/-!
# The range of durations

However many digits and terms a duration has, what is read is at most the greatest duration that
can be written. That is far less than the longest span of time, so a sign can always be given to it.
-/

namespace CertKeeper.Duration

variable {raw : String} {n : Nat}

theorem le_top_of_parse (h : parse raw = .ok n) : n ≤ top := by
  simp only [parse] at h
  split at h
  · cases h
  · split at h
    · cases h
      exact Nat.zero_le top
    · obtain ⟨total, -, rfl⟩ := map_eq_ok.mp h
      exact Number.Magnitude.toNatBelow_le top total

/-- How a text is made up of a sign, which may be left out, and of a magnitude. -/
inductive IsSigned : List Char → Bool → List Char → Prop where
  | minus (magnitude : List Char) : IsSigned ('-' :: magnitude) true magnitude
  | plus (magnitude : List Char) : IsSigned ('+' :: magnitude) false magnitude
  | unsigned {magnitude : List Char} (hminus : magnitude.head? ≠ some '-')
      (hplus : magnitude.head? ≠ some '+') : IsSigned magnitude false magnitude

theorem isSigned_splitSign (text : List Char) :
    IsSigned text (splitSign text).1 (splitSign text).2 := by
  unfold splitSign
  split
  · exact .minus _
  · exact .plus _
  · rename_i hminus hplus
    refine .unsigned (fun hhead => ?_) fun hhead => ?_
    · obtain ⟨rest, rfl⟩ := List.head?_eq_some_iff.mp hhead
      exact hminus rest rfl
    · obtain ⟨rest, rfl⟩ := List.head?_eq_some_iff.mp hhead
      exact hplus rest rfl

def signed (isNegative : Bool) (n : Nat) : Int := if isNegative then -(n : Int) else n

theorem natAbs_signed (isNegative : Bool) (n : Nat) : (signed isNegative n).natAbs = n := by
  cases isNegative <;> simp [signed]

/-- What can be written is no longer than a span of time can be. -/
theorem toSpan?_of_parse (h : parse raw = .ok n) : toSpan? n = some (n : Int) :=
  if_pos (Nat.le_trans (le_top_of_parse h) (by decide))

/-- The magnitude alone decides whether a text is read, and if not, on which error. -/
theorem parseSigned_eq_map (raw : String) :
    parseSigned raw = (parse (String.ofList (splitSign (Text.trim raw.toList)).2)).map
      (signed (splitSign (Text.trim raw.toList)).1) := by
  simp only [parseSigned]
  cases hread : parse (String.ofList (splitSign (Text.trim raw.toList)).2) with
  | error e => rfl
  | ok n =>
    simp only [ok_bind, toSpan?_of_parse hread]
    rfl

theorem natAbs_le_top_of_parseSigned {v : Int} (h : parseSigned raw = .ok v) : v.natAbs ≤ top := by
  rw [parseSigned_eq_map] at h
  obtain ⟨n, hread, rfl⟩ := map_eq_ok.mp h
  rw [natAbs_signed]
  exact le_top_of_parse hread

def ParseError.IsOutOfRange (e : ParseError) : Prop := ∃ raw, e = .outOfRange raw

theorem failsOnly_sumComponents (raw : String) (sum : Number.Magnitude) (cs : List Char) :
    FailsOnly (¬ ParseError.IsOutOfRange ·) (sumComponents raw sum cs) := by
  fun_induction sumComponents raw sum cs with
  | case1 => exact .ok _
  | case2 | case4 => exact .error nofun
  | case3 _ _ _ _ _ _ ih => exact ih

theorem failsOnly_parse (raw : String) :
    FailsOnly (¬ ParseError.IsOutOfRange ·) (parse raw) := by
  simp only [parse]
  split
  · exact .error nofun
  · split
    · exact .ok _
    · cases hsum : sumComponents raw (.finite 0) (Text.trim raw.toList) with
      | ok total => exact .ok _
      | error e => exact .error ((failsOnly_sumComponents _ _ _).of_eq_error hsum)

theorem failsOnly_parseSigned (raw : String) :
    FailsOnly (¬ ParseError.IsOutOfRange ·) (parseSigned raw) := by
  rw [parseSigned_eq_map]
  cases hread : parse (String.ofList (splitSign (Text.trim raw.toList)).2) with
  | ok n => exact .ok _
  | error e => exact .error ((failsOnly_parse _).of_eq_error hread)

end CertKeeper.Duration
