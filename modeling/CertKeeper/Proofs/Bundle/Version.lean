import CertKeeper.Bundle
import CertKeeper.Proofs.Except
import Mathlib.Data.String.Basic

/-!
# Versions that are shown

The version of a certificate is one more than the number in its version field, which may be any
number of 32 bits. A description shows the exact version of all certificates of its bundle. Where
that number is the largest one, the sum does not fit and nothing is described.
-/

namespace CertKeeper.Bundle

open X509

/-- Whether a description tells version `n` of the certificate `c` that stands after the
certificates `before`, and shows the version field in hexadecimal beside it. -/
def ShowsVersion (text : String) (before : List Certificate) (c : Certificate) (n : Nat) : Prop :=
  ∃ sections rest, before.mapM Certificate.describe = .ok sections ∧
    text = String.join sections
      ++ ("Certificate:\n    Data:\n        Version: " ++ (toString n
        ++ (" (0x" ++ (String.ofList (Nat.toDigits 16 c.version.toNat) ++ (")\n" ++ rest)))))

/-- A number is known from a text that begins with it, up to the blank behind it. -/
theorem eq_of_toString_append {m n : Nat} {s t : String}
    (h : toString m ++ (" (0x" ++ s) = toString n ++ (" (0x" ++ t)) : m = n := by
  have hdigits (k : Nat) (r : List Char) :
      (Nat.toDigits 10 k ++ ' ' :: r).takeWhile Char.isDigit = Nat.toDigits 10 k := by
    rw [List.takeWhile_append_of_pos fun c hc =>
      Nat.isDigit_of_mem_toDigits (by decide) (by decide) hc]
    simp
  have hlist (k : Nat) (r : String) :
      (toString k ++ (" (0x" ++ r)).toList = Nat.toDigits 10 k ++ ' ' :: ("(0x" ++ r).toList := by
    simp
  have hsame : Nat.toDigits 10 m = Nat.toDigits 10 n := by
    rw [← hdigits m ("(0x" ++ s).toList, ← hlist, h, hlist, hdigits]
  calc
    m = Nat.ofDigitChars 10 (Nat.toDigits 10 m) 0 := Nat.ofDigitChars_ten_toDigits.symm
    _ = Nat.ofDigitChars 10 (Nat.toDigits 10 n) 0 := by rw [hsame]
    _ = n := Nat.ofDigitChars_ten_toDigits

theorem versionText_eq_ok {field : UInt32} {text : String} :
    Certificate.versionText field = .ok text ↔ field ≠ 0xFFFFFFFF ∧
      toString (field.toNat + 1) ++ " (0x" ++ String.ofList (Nat.toDigits 16 field.toNat) ++ ")"
        = text := by
  simp only [Certificate.versionText, bind_eq_ok, checkedAdd_eq_ok, Except.ok.injEq]
  constructor
  · rintro ⟨version, hversion, rfl⟩
    have hlt := version.toNat_lt
    rw [hversion] at hlt ⊢
    refine ⟨?_, rfl⟩
    rintro rfl
    exact absurd hlt (by decide)
  · rintro ⟨hfield, rfl⟩
    have hfits : field.toNat + 1 < UInt32.size := by
      have hlt := field.toNat_lt
      have hlast : field.toNat ≠ 4294967295 := fun h => hfield (UInt32.toNat_inj.mp h)
      show field.toNat + 1 < 2 ^ 32
      omega
    have hversion : (UInt32.ofNat (field.toNat + 1)).toNat = field.toNat + 1 :=
      UInt32.toNat_ofNat_of_lt' hfits
    exact ⟨_, hversion, by rw [hversion]⟩

theorem exists_of_describe_eq_ok {c : Certificate} {text : String} (h : c.describe = .ok text) :
    ∃ rest, text = "Certificate:\n    Data:\n        Version: " ++ (toString (c.version.toNat + 1)
      ++ (" (0x" ++ (String.ofList (Nat.toDigits 16 c.version.toNat) ++ (")\n" ++ rest)))) := by
  have hhead : "Certificate:\n    Data:\n        Version: "
      = "Certificate:" ++ ("\n" ++ ("    Data:" ++ ("\n" ++ "        Version: "))) := rfl
  have hend : ")\n" = ")" ++ "\n" := rfl
  obtain ⟨version, hversion, htext⟩ := bind_eq_ok.mp h
  obtain ⟨-, rfl⟩ := versionText_eq_ok.mp hversion
  cases htext
  refine ⟨String.join (((c.lines "").drop 3).map (· ++ "\n")), ?_⟩
  rw [hhead, hend]
  simp only [Certificate.lines, List.cons_append, List.map_cons, List.drop_succ_cons,
    List.drop_zero, String.join_cons, String.append_assoc]

theorem exists_describe_section_iff {c : Certificate} :
    (∃ text, c.describe = .ok text) ↔ c.version ≠ 0xFFFFFFFF := by
  constructor
  · rintro ⟨text, h⟩
    obtain ⟨version, hversion, -⟩ := bind_eq_ok.mp h
    exact (versionText_eq_ok.mp hversion).1
  · intro h
    have hversion := versionText_eq_ok.mpr ⟨h, rfl⟩
    exact ⟨_, bind_eq_ok.mpr ⟨_, hversion, rfl⟩⟩

variable {data : Bytes} {text : String} {before after : List Certificate} {c : Certificate}

theorem describe_eq_ok : describe data = .ok text ↔ ∃ sections,
    (certificates data).mapM Certificate.describe = .ok sections ∧ String.join sections = text :=
  map_eq_ok

theorem exists_describe_iff (data : Bytes) : (∃ text, describe data = .ok text) ↔
    ∀ c ∈ certificates data, c.version ≠ 0xFFFFFFFF := by
  simp only [describe_eq_ok, ← exists_describe_section_iff, ← exists_mapM_eq_ok_iff]
  constructor
  · rintro ⟨text, sections, hsections, -⟩
    exact ⟨sections, hsections⟩
  · rintro ⟨sections, hsections⟩
    exact ⟨_, sections, hsections, rfl⟩

theorem describe_eq_error_iff (data : Bytes) : describe data = .error .addOverflow ↔
    ∃ c ∈ certificates data, c.version = 0xFFFFFFFF := by
  have hiff := not_congr (exists_describe_iff data)
  push Not at hiff
  rw [← hiff]
  cases describe data with
  | ok text => simp
  | error cause => cases cause; simp

theorem showsVersion_iff (h : certificates data = before ++ c :: after)
    (htext : describe data = .ok text) {n : Nat} :
    ShowsVersion text before c n ↔ n = c.version.toNat + 1 := by
  obtain ⟨sections, hsections, rfl⟩ := describe_eq_ok.mp htext
  rw [h] at hsections
  obtain ⟨first, own, rest, hfirst, hown, -, rfl⟩ := mapM_append_cons_eq_ok.mp hsections
  obtain ⟨tail, rfl⟩ := exists_of_describe_eq_ok hown
  simp only [String.join_append, String.join_cons, String.append_assoc]
  constructor
  · rintro ⟨first', rest', hfirst', hshown⟩
    cases hfirst.symm.trans hfirst'
    simp only [String.append_right_inj] at hshown
    exact (eq_of_toString_append hshown).symm
  · rintro rfl
    exact ⟨first, tail ++ String.join rest, hfirst, rfl⟩

/-- A description tells one version of each certificate of its bundle, the number after that in the
version field. There is a description unless this is the largest number of 32 bits in one of them. -/
theorem shown_version_exact_iff (data : Bytes) :
    ((∃ text, describe data = .ok text) ↔ ∀ c ∈ certificates data, c.version ≠ 0xFFFFFFFF) ∧
    (describe data = .error .addOverflow ↔ ∃ c ∈ certificates data, c.version = 0xFFFFFFFF) ∧
    ∀ text before c after, describe data = .ok text → certificates data = before ++ c :: after →
      ∀ n, ShowsVersion text before c n ↔ n = c.version.toNat + 1 :=
  ⟨exists_describe_iff data, describe_eq_error_iff data,
    fun _ _ _ _ htext h _ => showsVersion_iff h htext⟩

namespace Versions

/-- A certificate of which `digits` encode the last of four bytes of ones in the version field. -/
def pem (digits : String) : Bytes :=
  Bytes.ofString <|
    "-----BEGIN CERTIFICATE-----\n" ++
    "MIGOMHegBwIFAP" ++ digits ++ "CAQEwDQYJKoZIhvcNAQELBQAwDTELMAkGA1UEAwwCY2Ew\n" ++
    "HhcNMjQwMTAxMDAwMDAwWhcNMzAwMTAxMDAwMDAwWjAPMQ0wCwYDVQQDDARsZWFm\n" ++
    "MBowDQYJKoZIhvcNAQEBBQADCQAwBgIBBQIBAzANBgkqhkiG9w0BAQsFAAMEAHNp\n" ++
    "Zw==\n" ++
    "-----END CERTIFICATE-----\n"

theorem exists_certificate {digits : String} {v : UInt32}
    (h : (certificates (pem digits)).map (·.version) = [v]) :
    ∃ c, certificates (pem digits) = [c] ∧ c.version = v := by
  obtain ⟨c, hc, hv⟩ := List.map_eq_singleton_iff.mp h
  exact ⟨c, hc, hv⟩

theorem exists_last : ∃ c, certificates (pem "////4") = [c] ∧ c.version = 0xFFFFFFFE :=
  exists_certificate (by decide +kernel)

theorem exists_beyond : ∃ c, certificates (pem "////8") = [c] ∧ c.version = 0xFFFFFFFF :=
  exists_certificate (by decide +kernel)

end Versions

open Versions in
theorem shown_version_exact_iff_last : ∃ c text, certificates (pem "////4") = [] ++ c :: [] ∧
    c.version = 0xFFFFFFFE ∧ describe (pem "////4") = .ok text ∧
      ShowsVersion text [] c 0xFFFFFFFF := by
  obtain ⟨c, hc, hversion⟩ := exists_last
  obtain ⟨hdescribed, -, hshown⟩ := shown_version_exact_iff (pem "////4")
  obtain ⟨text, htext⟩ := hdescribed.mpr (by simp [hc, hversion])
  exact ⟨c, text, hc, hversion, htext, (hshown text [] c [] htext hc _).mpr (by rw [hversion]; rfl)⟩

open Versions in
/-- The largest version field ends the program. -/
theorem largest_version_panics : ∃ c, certificates (pem "////8") = [c] ∧
    c.version.toNat + 1 = 4294967296 ∧ describe (pem "////8") = .error .addOverflow ∧
      ¬ ∃ text, describe (pem "////8") = .ok text ∧ ShowsVersion text [] c 4294967296 := by
  obtain ⟨c, hc, hversion⟩ := exists_beyond
  have hpanic : describe (pem "////8") = .error .addOverflow :=
    (describe_eq_error_iff _).mpr ⟨c, by simp [hc], hversion⟩
  refine ⟨c, hc, by rw [hversion]; rfl, hpanic, ?_⟩
  rintro ⟨text, htext, -⟩
  rw [hpanic] at htext
  cases htext

end CertKeeper.Bundle
