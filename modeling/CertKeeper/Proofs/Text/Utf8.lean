import CertKeeper.Text.Utf8
import Mathlib.Tactic.SplitIfs

/-!
# Reading text back

The bytes of a text are read as that text, and bytes that are no text are read as one with other
bytes. Something is read from every byte string but the empty one.
-/

namespace CertKeeper

namespace Bytes

theorem ofString_eq_flatMap (s : String) : ofString s = s.toList.flatMap String.utf8EncodeChar := by
  have hlist (l : List Char) : (String.ofList l).toByteArray.data.toList
      = l.flatMap String.utf8EncodeChar := by
    rw [String.toByteArray_ofList, List.utf8Encode, List.toList_data_toByteArray]
  have h := hlist s.toList
  rwa [String.ofList_toList] at h

theorem ofString_injective {s t : String} (h : ofString s = ofString t) : s = t := by
  have htext := congrArg text? h
  simpa using htext

theorem ofString_ne_nil {s : String} (h : s ≠ "") : ofString s ≠ [] := by
  intro hnil
  have hempty : ofString s = ofString "" := hnil
  exact h (ofString_injective hempty)

theorem text?_eq_some {b : Bytes} {s : String} : text? b = some s ↔ ofString s = b := by
  constructor
  · intro h
    unfold text? String.fromUTF8? at h
    split at h
    · cases h
      rfl
    · cases h
  · rintro rfl
    exact text?_ofString s

end Bytes

namespace Text.Utf8

theorem lossyChars_cons (s : State) (b : UInt8) (rest : Bytes) :
    lossyChars s (b :: rest) = (step s b.toNat).1 ++ lossyChars (step s b.toNat).2 rest := by
  cases s <;> rfl

theorem first_ne_nil (b : Nat) : (first b).1 ≠ [] ∨ (first b).2 ≠ .start := by
  unfold first
  split_ifs <;> simp

theorem lossyChars_inside_ne_nil (bits missing lo hi : Nat) (b : Bytes) :
    lossyChars (.inside bits missing lo hi) b ≠ [] := by
  induction b generalizing bits missing lo hi with
  | nil => simp [lossyChars]
  | cons x b ih =>
    rw [lossyChars_cons, step]
    split
    · split
      · simp
      · simp [ih]
    · simp

theorem lossyChars_start_ne_nil {b : Bytes} (h : b ≠ []) : lossyChars .start b ≠ [] := by
  cases b with
  | nil => exact absurd rfl h
  | cons x b =>
    rw [lossyChars_cons, step]
    rcases first_ne_nil x.toNat with hout | hnext
    · simp [hout]
    · cases hs : (first x.toNat).2 with
      | start => exact absurd hs hnext
      | inside bits missing lo hi => simp [lossyChars_inside_ne_nil]

theorem lossy_ne_empty {b : Bytes} (h : b ≠ []) : lossy b ≠ "" := by
  intro hempty
  have hlist := congrArg String.toList hempty
  simp [lossy, lossyChars_start_ne_nil h] at hlist

def sextet (v : Nat) : UInt8 := UInt8.ofNat (v % 64 + 0x80)

theorem toNat_sextet (v : Nat) : (sextet v).toNat = v % 64 + 0x80 := by
  have h : v % 64 + 0x80 < 256 := by omega
  simp [sextet, Nat.mod_eq_of_lt h]

theorem inside_last {v lo hi : Nat} (hlo : lo ≤ v % 64 + 0x80) (hhi : v % 64 + 0x80 ≤ hi)
    (rest : Bytes) : lossyChars (.inside (v / 64) 1 lo hi) (sextet v :: rest)
      = Char.ofNat v :: lossyChars .start rest := by
  have hv : v / 64 * 64 + (v % 64 + 0x80 - 0x80) = v := by omega
  rw [lossyChars_cons, toNat_sextet, step, if_pos ⟨hlo, hhi⟩, if_pos rfl, hv]
  rfl

theorem inside_more {v lo hi : Nat} (hlo : lo ≤ v % 64 + 0x80) (hhi : v % 64 + 0x80 ≤ hi)
    (n : Nat) (rest : Bytes) : lossyChars (.inside (v / 64) (n + 2) lo hi) (sextet v :: rest)
      = lossyChars (.inside v (n + 1) 0x80 0xBF) rest := by
  have hv : v / 64 * 64 + (v % 64 + 0x80 - 0x80) = v := by omega
  have hn : ¬ n + 2 = 1 := by omega
  rw [lossyChars_cons, toNat_sextet, step, if_pos ⟨hlo, hhi⟩, if_neg hn, hv]
  rfl

theorem first_two {v : Nat} (hlo : 0x80 ≤ v) (hhi : v ≤ 0x7FF) :
    first (v / 64 % 32 + 0xC0) = ([], .inside (v / 64) 1 0x80 0xBF) := by
  have hascii : ¬ v / 64 % 32 + 0xC0 < 0x80 := by omega
  have hlead : 0xC2 ≤ v / 64 % 32 + 0xC0 ∧ v / 64 % 32 + 0xC0 ≤ 0xDF := by omega
  have hbits : v / 64 % 32 + 0xC0 - 0xC0 = v / 64 := by omega
  rw [first, if_neg hascii, if_pos hlead, hbits]

theorem first_three {v : Nat} (hlo : 0x800 ≤ v) (hhi : v ≤ 0xFFFF)
    (hv : v < 0xD800 ∨ 0xDFFF < v) : ∃ lo hi,
      first (v / 4096 % 16 + 0xE0) = ([], .inside (v / 4096) 2 lo hi) ∧
        lo ≤ v / 64 % 64 + 0x80 ∧ v / 64 % 64 + 0x80 ≤ hi := by
  generalize hb : v / 4096 % 16 + 0xE0 = b
  have hascii : ¬ b < 0x80 := by omega
  have htwo : ¬ (0xC2 ≤ b ∧ b ≤ 0xDF) := by omega
  have hbits : b - 0xE0 = v / 4096 := by omega
  rw [first, if_neg hascii, if_neg htwo]
  by_cases hE0 : b = 0xE0
  · have hzero : v / 4096 = 0 := by omega
    refine ⟨0xA0, 0xBF, by rw [if_pos hE0, hzero], ?_, ?_⟩ <;> omega
  · rw [if_neg hE0]
    by_cases hED : b = 0xED
    · have hD : v / 4096 = 0xD := by omega
      refine ⟨0x80, 0x9F, by rw [if_pos hED, hD], ?_, ?_⟩ <;> omega
    · have hlead : 0xE1 ≤ b ∧ b ≤ 0xEF := by omega
      refine ⟨0x80, 0xBF, by rw [if_neg hED, if_pos hlead, hbits], ?_, ?_⟩ <;> omega

theorem first_four {v : Nat} (hlo : 0x10000 ≤ v) (hhi : v ≤ 0x10FFFF) : ∃ lo hi,
      first (v / 262144 % 8 + 0xF0) = ([], .inside (v / 262144) 3 lo hi) ∧
        lo ≤ v / 4096 % 64 + 0x80 ∧ v / 4096 % 64 + 0x80 ≤ hi := by
  generalize hb : v / 262144 % 8 + 0xF0 = b
  have hascii : ¬ b < 0x80 := by omega
  have htwo : ¬ (0xC2 ≤ b ∧ b ≤ 0xDF) := by omega
  have hE0 : ¬ b = 0xE0 := by omega
  have hED : ¬ b = 0xED := by omega
  have hthree : ¬ (0xE1 ≤ b ∧ b ≤ 0xEF) := by omega
  have hbits : b - 0xF0 = v / 262144 := by omega
  rw [first, if_neg hascii, if_neg htwo, if_neg hE0, if_neg hED, if_neg hthree]
  by_cases hF0 : b = 0xF0
  · have hzero : v / 262144 = 0 := by omega
    refine ⟨0x90, 0xBF, by rw [if_pos hF0, hzero], ?_, ?_⟩ <;> omega
  · rw [if_neg hF0]
    by_cases hF4 : b = 0xF4
    · have hfour : v / 262144 = 4 := by omega
      have hlead : ¬ (0xF1 ≤ b ∧ b ≤ 0xF3) := by omega
      refine ⟨0x80, 0x8F, by rw [if_neg hlead, if_pos hF4, hfour], ?_, ?_⟩ <;> omega
    · have hlead : 0xF1 ≤ b ∧ b ≤ 0xF3 := by omega
      refine ⟨0x80, 0xBF, by rw [if_pos hlead, hbits], ?_, ?_⟩ <;> omega

/-- The bytes of a character are read as that character, whatever follows them. -/
theorem lossyChars_encodeChar (c : Char) (rest : Bytes) :
    lossyChars .start (String.utf8EncodeChar c ++ rest) = c :: lossyChars .start rest := by
  have hchar : Char.ofNat c.val.toNat = c := Char.ofNat_toNat c
  have hvalid : c.val.toNat < 0xD800 ∨ 0xDFFF < c.val.toNat ∧ c.val.toNat < 0x110000 := c.valid
  unfold String.utf8EncodeChar
  generalize c.val.toNat = v at hchar hvalid ⊢
  have hdiv : v / 4096 = v / 64 / 64 := by omega
  have hdiv' : v / 262144 = v / 4096 / 64 := by omega
  rw [← hchar]
  dsimp only
  by_cases h1 : v ≤ 0x7F
  · have hb : (UInt8.ofNat v).toNat = v := by simp; omega
    have hascii : v < 0x80 := by omega
    rw [if_pos h1, List.cons_append, lossyChars_cons, step, hb, first, if_pos hascii]
    rfl
  rw [if_neg h1]
  by_cases h2 : v ≤ 0x7FF
  · have hb : (UInt8.ofNat (v / 64 % 32 + 0xC0)).toNat = v / 64 % 32 + 0xC0 := by simp; omega
    rw [if_pos h2, List.cons_append, lossyChars_cons, step, hb, first_two (by omega) h2]
    exact inside_last (by omega) (by omega) rest
  rw [if_neg h2]
  by_cases h3 : v ≤ 0xFFFF
  · have hb : (UInt8.ofNat (v / 4096 % 16 + 0xE0)).toNat = v / 4096 % 16 + 0xE0 := by simp; omega
    obtain ⟨lo, hi, hfirst, hlo, hhi⟩ := first_three (v := v) (by omega) h3 (by omega)
    rw [if_pos h3, List.cons_append, lossyChars_cons, step, hb, hfirst, hdiv]
    refine (inside_more hlo hhi 0 _).trans ?_
    exact inside_last (by omega) (by omega) rest
  · have hb : (UInt8.ofNat (v / 262144 % 8 + 0xF0)).toNat = v / 262144 % 8 + 0xF0 := by
      simp; omega
    obtain ⟨lo, hi, hfirst, hlo, hhi⟩ := first_four (v := v) (by omega) (by omega)
    rw [if_neg h3, List.cons_append, lossyChars_cons, step, hb, hfirst, hdiv']
    refine (inside_more hlo hhi 1 _).trans ?_
    rw [hdiv]
    refine (inside_more (by omega) (by omega) 0 _).trans ?_
    exact inside_last (by omega) (by omega) rest

theorem lossy_ofString (s : String) : lossy (Bytes.ofString s) = s := by
  have hchars (l : List Char) :
      lossyChars .start (l.flatMap String.utf8EncodeChar) = l := by
    induction l with
    | nil => rfl
    | cons c l ih => rw [List.flatMap_cons, lossyChars_encodeChar, ih]
  rw [lossy, Bytes.ofString_eq_flatMap, hchars, String.ofList_toList]

/-- Reading loses nothing exactly if the bytes are those of a text. -/
theorem ofString_lossy_iff {b : Bytes} : Bytes.ofString (lossy b) = b ↔ b.text?.isSome := by
  constructor
  · intro h
    rw [← h, Bytes.text?_ofString]
    rfl
  · intro h
    obtain ⟨s, hs⟩ := Option.isSome_iff_exists.mp h
    rw [← Bytes.text?_eq_some.mp hs, lossy_ofString]

end Text.Utf8
end CertKeeper
