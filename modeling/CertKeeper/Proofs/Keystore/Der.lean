import CertKeeper.Keystore.Der
import CertKeeper.Proofs.Bytes
import CertKeeper.Proofs.Except

/-!
# What is read as an element

Length fields as a relation between lengths and bytes, apart from the reader. An element is read
from an input exactly if the input is made up of its tag, a length field of any form for its
content, the content and what follows. The field that is written for a length is one of these if the
length fits in four bytes, so that reading undoes framing.
-/

namespace CertKeeper.Keystore.Der

open Bytes

/-- Whether `field` is a length field for `n`, of the least length or not: one byte below 128, or a
byte of 128 and a count of up to four digits before these digits in base 256. -/
inductive IsLengthField (n : Nat) : (field : Bytes) → Prop where
  | short {first : UInt8} (hfirst : first < 0x80) (hvalue : first.toNat = n) :
      IsLengthField n [first]
  | long {digits : Bytes} (hpos : 0 < digits.length) (hle : digits.length ≤ 4)
      (hvalue : Nat.ofDigits 256 (digits.reverse.map UInt8.toNat) = n) :
      IsLengthField n (UInt8.ofNat (0x80 + digits.length) :: digits)

namespace IsLengthField

variable {n : Nat} {field : Bytes}

theorem length_pos (h : IsLengthField n field) : 0 < field.length := by
  cases h with
  | short hfirst hvalue => exact Nat.zero_lt_one
  | long hpos hle hvalue => exact Nat.succ_pos _

theorem length_le (h : IsLengthField n field) : field.length ≤ 5 := by
  cases h with
  | short hfirst hvalue => exact Nat.le_add_left 1 4
  | long hpos hle hvalue => exact Nat.succ_le_succ hle

theorem lt_size (h : IsLengthField n field) : n < UInt32.size := by
  cases h with
  | @short first hfirst hvalue =>
    have hlt := first.toNat_lt
    simp only [UInt32.size]
    omega
  | @long digits hpos hle hvalue =>
    calc n = toNat digits := by rw [← hvalue, toNat_eq_ofDigits]
      _ < 256 ^ digits.length := toNat_lt digits
      _ ≤ 256 ^ 4 := Nat.pow_le_pow_right (by decide) hle

end IsLengthField

theorem isLengthField_lengthField {n : Nat} (h : n < UInt32.size) :
    IsLengthField n (lengthField n) := by
  by_cases hn : n < 0x80
  · have hvalue : (UInt8.ofNat n).toNat = n :=
      UInt8.toNat_ofNat_of_lt' (by simp only [UInt8.size]; omega)
    rw [lengthField, if_pos hn]
    refine .short ?_ hvalue
    rw [UInt8.lt_iff_toNat_lt, hvalue]
    exact hn
  · have hval : toNat (ofNat 8 n) = n := toNat_ofNat_of_lt (by simp [UInt32.size] at h; omega)
    have hle : (ofNat 8 n).trimmed.length ≤ 4 :=
      length_trimmed_le (by rw [hval]; simpa [UInt32.size] using h)
    have hpos : 0 < (ofNat 8 n).trimmed.length :=
      List.length_pos_iff.mpr (trimmed_ne_nil (by omega))
    rw [lengthField, if_neg hn]
    exact .long hpos hle (by rw [← toNat_eq_ofDigits, toNat_trimmed, hval])

theorem readLength_long {digits : Bytes} (hpos : 0 < digits.length) (hle : digits.length ≤ 4)
    (rest : Bytes) :
    readLength (UInt8.ofNat (0x80 + digits.length) :: (digits ++ rest))
      = .ok (toNat digits, rest) := by
  have hn : (UInt8.ofNat (0x80 + digits.length)).toNat = 0x80 + digits.length :=
    UInt8.toNat_ofNat_of_lt' (by simp [UInt8.size]; omega)
  have hlt : ¬ UInt8.ofNat (0x80 + digits.length) < 0x80 := by
    rw [UInt8.lt_iff_toNat_lt, hn]
    simp
  have hw : (0x80 + digits.length) % 0x80 = digits.length := by omega
  have hne : ¬ (digits.length = 0 ∨ 4 < digits.length ∨
      (digits ++ rest).length < digits.length) := by
    rw [List.length_append]
    omega
  simp only [readLength, if_neg hlt, hn, hw, if_neg hne, List.take_left, List.drop_left]

theorem readLength_eq_ok {b rest : Bytes} {n : Nat} :
    readLength b = .ok (n, rest) ↔ ∃ field, IsLengthField n field ∧ b = field ++ rest := by
  constructor
  · intro h
    cases b with
    | nil => cases h
    | cons first b =>
      simp only [readLength] at h
      split at h
      · rename_i hfirst
        cases h
        exact ⟨[first], .short hfirst rfl, rfl⟩
      · split at h
        · cases h
        · rename_i hfirst hwidth
          cases h
          -- No bit of the first byte is passed over: it marks a count or belongs to it.
          let digits := b.take (first.toNat % 0x80)
          have hlen : digits.length = first.toNat % 0x80 := List.length_take_of_le (by omega)
          have hcount : UInt8.ofNat (0x80 + digits.length) = first := by
            have hlt := first.toNat_lt
            have hge : 0x80 ≤ first.toNat := by simpa [UInt8.lt_iff_toNat_lt] using hfirst
            have hsum : 0x80 + digits.length = first.toNat := by omega
            rw [hsum, UInt8.ofNat_toNat]
          have hfield : IsLengthField (toNat digits)
              (UInt8.ofNat (0x80 + digits.length) :: digits) :=
            .long (by omega) (by omega) (toNat_eq_ofDigits digits).symm
          rw [hcount] at hfield
          exact ⟨first :: digits, hfield, by simp [digits]⟩
  · rintro ⟨field, hfield, rfl⟩
    cases hfield with
    | short hfirst hvalue =>
      subst hvalue
      rw [List.singleton_append, readLength, if_pos hfirst]
    | long hpos hle hvalue =>
      rw [← toNat_eq_ofDigits] at hvalue
      subst hvalue
      exact readLength_long hpos hle rest

section

variable {input content rest : Bytes} {tag : UInt8}

theorem read_eq_ok : read input tag = .ok (content, rest) ↔
    ∃ field, IsLengthField content.length field ∧ input = tag :: (field ++ (content ++ rest)) := by
  constructor
  · intro h
    cases input with
    | nil => cases h
    | cons actual input =>
      simp only [read] at h
      split at h
      · cases h
      · rename_i htag
        obtain rfl := not_not.mp htag
        simp only [bind_eq_ok, Prod.exists] at h
        obtain ⟨n, unread, hlength, h⟩ := h
        obtain ⟨field, hfield, rfl⟩ := readLength_eq_ok.mp hlength
        split at h
        · cases h
        · rename_i hroom
          cases h
          have hlen : (unread.take n).length = n := List.length_take_of_le (Nat.le_of_not_lt hroom)
          exact ⟨field, by rwa [hlen], by rw [List.take_append_drop]⟩
  · rintro ⟨field, hfield, rfl⟩
    have hlength : readLength (field ++ (content ++ rest))
        = .ok (content.length, content ++ rest) := readLength_eq_ok.mpr ⟨field, hfield, rfl⟩
    have hroom : ¬ (content ++ rest).length < content.length := by
      rw [List.length_append]
      omega
    simp only [read, ne_eq, not_true_eq_false, if_false, hlength, ok_bind, if_neg hroom,
      List.take_left, List.drop_left]

theorem exists_append_of_read (h : read input tag = .ok (content, rest)) :
    ∃ frame, 2 ≤ frame.length ∧ input = frame ++ (content ++ rest) := by
  obtain ⟨field, hfield, rfl⟩ := read_eq_ok.mp h
  exact ⟨tag :: field, Nat.succ_le_succ hfield.length_pos, rfl⟩

end

theorem read_element_append (tag : UInt8) {content : Bytes} (h : content.length < UInt32.size)
    (rest : Bytes) : read (element tag content ++ rest) tag = .ok (content, rest) :=
  read_eq_ok.mpr ⟨lengthField content.length, isLengthField_lengthField h,
    by rw [element, List.cons_append, List.append_assoc]⟩

theorem read_element (tag : UInt8) {content : Bytes} (h : content.length < UInt32.size) :
    read (element tag content) tag = .ok (content, []) := by
  simpa using read_element_append tag h []

theorem length_element (tag : UInt8) (content : Bytes) :
    (element tag content).length = 1 + (lengthField content.length).length + content.length := by
  simp [element]
  omega

/-- Reading gives back the content of an element and all that follows it exactly if the content has
fewer than `2 ^ 32` bytes. An input from which content and a rest are read is nothing but the tag, a
length field of one to five bytes for the content, the content and the rest. -/
theorem elements_read_exactly (tag : UInt8) :
    (∀ content rest, read (element tag content ++ rest) tag = .ok (content, rest) ↔
      content.length < 2 ^ 32) ∧
    ∀ input content rest, read input tag = .ok (content, rest) ↔
      ∃ field, IsLengthField content.length field ∧ 1 ≤ field.length ∧ field.length ≤ 5 ∧
        input = tag :: (field ++ (content ++ rest)) := by
  refine ⟨fun content rest => ⟨fun h => ?_, fun h => read_element_append tag h rest⟩,
    fun input content rest => ⟨fun h => ?_, ?_⟩⟩
  · obtain ⟨field, hfield, -⟩ := read_eq_ok.mp h
    exact hfield.lt_size
  · obtain ⟨field, hfield, hinput⟩ := read_eq_ok.mp h
    exact ⟨field, hfield, hfield.length_pos, hfield.length_le, hinput⟩
  · rintro ⟨field, hfield, -, -, hinput⟩
    exact read_eq_ok.mpr ⟨field, hfield, hinput⟩

/-- The digits of a length may begin with a zero. -/
example : read [0x04, 0x82, 0x00, 0x01, 9, 7] 0x04 = .ok ([9], [7]) := by decide

end CertKeeper.Keystore.Der
