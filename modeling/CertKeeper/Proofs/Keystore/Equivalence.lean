import CertKeeper.Proofs.Keystore.OfPem
import CertKeeper.Sync.JavaKeystores

/-!
# What makes encodings equivalent

Encodings are compared by what they are decoded to, so that neither salts nor creation times count:
two encodings are equivalent exactly if the keystores hold the same entry, or none, under each alias.
On byte strings of any sort the comparison is symmetric and transitive, and what cannot be decoded is
equivalent to nothing, not even to itself. Files that may be missing are compared in the same way,
and under two passwords where each has its own.
-/

namespace CertKeeper.KeyStore

open Keystore

variable {a b : KeyStore} {x y z : Bytes} {password : String}

theorem get?_eq_some {name : String} {entry : Entry} :
    a.get? name = some entry ↔ (name, entry) ∈ a.contents := by
  rw [mem_contents, get?, Option.map_eq_some_iff]

theorem contents_eq_iff : a.contents = b.contents ↔ ∀ name, a.get? name = b.get? name := by
  constructor
  · intro h name
    refine Option.ext fun entry => ?_
    rw [get?_eq_some, get?_eq_some, h]
  · intro h
    have hmaps : (a.entries.map fun _ e => e.entry) = b.entries.map fun _ e => e.entry := by
      refine Std.ExtTreeMap.ext_getElem? fun name => ?_
      rw [Std.ExtTreeMap.getElem?_map, Std.ExtTreeMap.getElem?_map]
      exact h name
    rw [contents_eq_toList, contents_eq_toList, hmaps]

theorem equivalent_encode_iff {salts salts' : Nat → Salt} (hx : a.encode password salts = .ok x)
    (hy : b.encode password salts' = .ok y) :
    equivalent x y password = true ↔ a.contents = b.contents := by
  simp [equivalent_iff, decode_encode hx, decode_encode hy]

/-- Whether two files are both missing, or hold the same entries when each is read under a password
of its own. -/
def Alike (password password' : String) : Option Bytes → Option Bytes → Prop
  | none, none => True
  | some a, some b => ∃ x y, decode a password = .ok x ∧ decode b password' = .ok y ∧
      x.contents = y.contents
  | _, _ => False

theorem alike_self_iff {a b : Option Bytes} :
    Alike password password a b ↔ upToDate a b password = true := by
  cases a <;> cases b <;> simp [Alike, upToDate, equivalent_iff]

section

variable {password₁ password₂ password₃ : String} {a b d : Option Bytes}

theorem Alike.symm (hab : Alike password₁ password₂ a b) : Alike password₂ password₁ b a := by
  cases a <;> cases b <;> simp only [Alike] at *
  obtain ⟨x, y, hx, hy, hxy⟩ := hab
  exact ⟨y, x, hy, hx, hxy.symm⟩

theorem Alike.trans (hab : Alike password₁ password₂ a b) (hbd : Alike password₂ password₃ b d) :
    Alike password₁ password₃ a d := by
  cases a <;> cases b <;> cases d <;> simp only [Alike] at *
  obtain ⟨x, y, hx, hy, hxy⟩ := hab
  obtain ⟨y', z, hy', hz, hyz⟩ := hbd
  cases hy.symm.trans hy'
  exact ⟨x, z, hx, hz, hxy.trans hyz⟩

theorem upToDate_comm (a b : Option Bytes) (password : String) :
    upToDate a b password = upToDate b a password := by
  rw [Bool.eq_iff_iff, ← alike_self_iff, ← alike_self_iff]
  exact ⟨Alike.symm, Alike.symm⟩

theorem upToDate_trans (hab : upToDate a b password = true) (hbd : upToDate b d password = true) :
    upToDate a d password = true :=
  alike_self_iff.mp ((alike_self_iff.mpr hab).trans (alike_self_iff.mpr hbd))

end

theorem equivalent_comm (x y : Bytes) (password : String) :
    equivalent x y password = equivalent y x password :=
  upToDate_comm (some x) (some y) password

theorem equivalent_trans (hxy : equivalent x y password = true)
    (hyz : equivalent y z password = true) : equivalent x z password = true :=
  upToDate_trans (a := some x) (b := some y) (d := some z) hxy hyz

theorem equivalent_self_iff :
    equivalent x x password = true ↔ ∃ ks, decode x password = .ok ks := by
  rw [equivalent_iff]
  constructor
  · rintro ⟨ks, -, hks, -⟩
    exact ⟨ks, hks⟩
  · rintro ⟨ks, hks⟩
    exact ⟨ks, ks, hks, hks, rfl⟩

theorem equivalent_eq_false_of_error (y : Bytes) {e : Keystore.Error}
    (hx : decode x password = .error e) : equivalent x y password = false := by
  simp [equivalent, hx]

/-- Two encodings are equivalent exactly if their keystores hold the same under each alias, whatever
the salts and the creation times are. Equivalence under one password is symmetric and transitive, a
byte string is equivalent to itself exactly if it can be decoded, and one that cannot be decoded is
equivalent to nothing. -/
theorem equivalence_exact (password : String) :
    (∀ (a b : KeyStore) (salts salts' : Nat → Salt) (x y : Bytes),
      a.encode password salts = .ok x → b.encode password salts' = .ok y →
        (equivalent x y password = true ↔ ∀ name, a.get? name = b.get? name)) ∧
    (∀ x y, equivalent x y password = equivalent y x password) ∧
    (∀ x y z, equivalent x y password = true → equivalent y z password = true →
      equivalent x z password = true) ∧
    (∀ x, equivalent x x password = true ↔ ∃ ks, decode x password = .ok ks) ∧
    ∀ x y e, decode x password = .error e ∨ decode y password = .error e →
      equivalent x y password = false := by
  refine ⟨fun a b salts salts' x y hx hy => ?_, fun x y => equivalent_comm x y password,
    fun x y z => equivalent_trans, fun x => equivalent_self_iff, ?_⟩
  · rw [equivalent_encode_iff hx hy, contents_eq_iff]
  · rintro x y e (hx | hy)
    · exact equivalent_eq_false_of_error y hx
    · rw [equivalent_comm]
      exact equivalent_eq_false_of_error x hy

namespace Renewal

def server (created : Int64) (key : Bytes) : KeyStore :=
  empty.insert "alias" created (.privateKey key [[4]])

def salts (n : UInt8) : Nat → Salt := fun _ => ⟨List.replicate 20 n, by simp [Digest.Sha1.size]⟩

end Renewal

open Renewal in
/-- One key in two encodings, at different times and under different salts, and another key in a
third one. -/
theorem equivalence_exact_renewed_key :
    ∃ x y z, (server 0 [1, 2]).encode "changeme" (salts 1) = .ok x ∧
      (server 9 [1, 2]).encode "changeme" (salts 2) = .ok y ∧
      (server 9 [1, 3]).encode "changeme" (salts 2) = .ok z ∧
      equivalent x y "changeme" = true ∧ equivalent x z "changeme" = false ∧
      equivalent z y "changeme" = equivalent y z "changeme" ∧
      equivalent x x "changeme" = true ∧ equivalent y y "changeme" = true ∧
      equivalent x [] "changeme" = false := by
  have hencodes (ks : KeyStore) (salts : Nat → Salt)
      (h : (ks.encode "changeme" salts).toOption.isSome = true) :
      ∃ data, ks.encode "changeme" salts = .ok data := by
    cases hdata : ks.encode "changeme" salts with
    | error e => simp [hdata, Except.toOption] at h
    | ok data => exact ⟨data, rfl⟩
  obtain ⟨x, hx⟩ := hencodes (server 0 [1, 2]) (salts 1) (by decide +kernel)
  obtain ⟨y, hy⟩ := hencodes (server 9 [1, 2]) (salts 2) (by decide +kernel)
  obtain ⟨z, hz⟩ := hencodes (server 9 [1, 3]) (salts 2) (by decide +kernel)
  obtain ⟨hencoded, hcomm, htrans, hself, hundecoded⟩ := equivalence_exact "changeme"
  have hget (created : Int64) (key : Bytes) (name : String) : (server created key).get? name
      = if "alias" = name then some (.privateKey key [[4]]) else none := by
    by_cases hname : "alias" = name <;>
      simp [server, insert, empty, get?, hname]
  have hxy : equivalent x y "changeme" = true := by
    refine (hencoded _ _ _ _ _ _ hx hy).mpr fun name => ?_
    rw [hget, hget]
  have hyx : equivalent y x "changeme" = true := by rw [hcomm, hxy]
  refine ⟨x, y, z, hx, hy, hz, hxy, ?_, hcomm z y, (hself x).mpr ⟨_, decode_encode hx⟩,
    htrans y x y hyx hxy, hundecoded x [] .truncated (.inr (by rfl))⟩
  rw [Bool.eq_false_iff]
  intro hsame
  have hkey := (hencoded _ _ _ _ _ _ hx hz).mp hsame "alias"
  rw [hget, hget] at hkey
  simp at hkey

end CertKeeper.KeyStore
