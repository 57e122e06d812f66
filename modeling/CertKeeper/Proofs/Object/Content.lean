import CertKeeper.Object.ConfigMap
import CertKeeper.Object.Secret

/-!
# Fields that are written

What is written under a name is read back from there, and what stands under other names stays as it
was. Only the empty value is not read back, because it counts as absent.
-/

namespace CertKeeper

namespace Bytes

theorem nonEmpty?_eq_some {b b' : Bytes} : nonEmpty? b = some b' ↔ b ≠ [] ∧ b' = b := by
  cases b with
  | nil => simp [nonEmpty?]
  | cons x b => simp [nonEmpty?, eq_comm]

theorem nonEmpty?_of_ne_nil {b : Bytes} (h : b ≠ []) : nonEmpty? b = some b :=
  nonEmpty?_eq_some.mpr ⟨h, rfl⟩

@[simp] theorem bind_nonEmpty?_bind (b : Option Bytes) :
    (b.bind nonEmpty?).bind nonEmpty? = b.bind nonEmpty? := by
  cases b with
  | none => rfl
  | some b => cases b <;> rfl

end Bytes

namespace Secret.Content

variable (c : Content) (key : String) (value : Option Bytes)

@[simp] theorem isTls_set : (c.set key value).isTls = c.isTls := by
  cases value <;> rfl

@[simp] theorem field_set : (c.set key value).field key = value := by
  cases value with
  | none => cases h : c.data <;> simp [set, field, h]
  | some b => simp [set, field]

theorem field_set_of_ne {key' : String} (h : key' ≠ key) :
    (c.set key value).field key' = c.field key' := by
  have hne : ¬ key = key' := fun hk => h hk.symm
  cases value with
  | none => cases hd : c.data <;> simp [set, field, hd, Std.ExtTreeMap.getElem?_erase, hne]
  | some b => cases hd : c.data <;> simp [set, field, hd, Std.ExtTreeMap.getElem?_insert, hne]

@[simp] theorem value_set : (c.set key value).value key = value.bind Bytes.nonEmpty? := by
  rw [Content.value, field_set]

theorem value_set_of_ne {key' : String} (h : key' ≠ key) :
    (c.set key value).value key' = c.value key' := by
  rw [Content.value, Content.value, field_set_of_ne c key value h]

theorem set_comm {key' : String} (h : key ≠ key') (value' : Option Bytes) :
    (c.set key value).set key' value' = (c.set key' value').set key value := by
  cases value <;> cases value' <;> cases hd : c.data <;>
    simp only [set, hd, Option.map_some, Option.map_none, Option.getD_some, Option.getD_none,
      Content.mk.injEq, true_and, and_true, Option.some.injEq]
  all_goals
    refine Std.ExtTreeMap.ext_getElem? fun {k} => ?_
    simp only [Std.ExtTreeMap.getElem?_erase, Std.ExtTreeMap.getElem?_insert,
      Std.LawfulEqCmp.compare_eq_iff_eq]
    by_cases hk : key = k
    · subst hk
      simp [h.symm]
    · simp [hk]

theorem value_eq_some {c : Content} {key : String} {b : Bytes} :
    c.value key = some b ↔ c.field key = some b ∧ b ≠ [] := by
  rw [Content.value, Option.bind_eq_some_iff]
  constructor
  · rintro ⟨b', hb', hb⟩
    obtain ⟨hne, rfl⟩ := Bytes.nonEmpty?_eq_some.mp hb
    exact ⟨hb', hne⟩
  · rintro ⟨hb, hne⟩
    exact ⟨b, hb, Bytes.nonEmpty?_of_ne_nil hne⟩

theorem value_eq_none {c : Content} {key : String} :
    c.value key = none ↔ c.field key = none ∨ c.field key = some [] := by
  rw [Content.value]
  cases c.field key with
  | none => simp
  | some b => cases b <;> simp [Bytes.nonEmpty?]

end Secret.Content

namespace ConfigMap.Content

variable (c : Content) (key : String)

@[simp] theorem field_set (value : Option String) : (c.set key value).field key = value := by
  cases value with
  | none => cases h : c.data <;> simp [set, field, h]
  | some s => simp [set, field]

@[simp] theorem field_setBinary (value : Option Bytes) (key' : String) :
    (c.setBinary key value).field key' = c.field key' := by
  cases value <;> rfl

@[simp] theorem binaryValue_setBinary (value : Option Bytes) :
    (c.setBinary key value).binaryValue key = value.bind Bytes.nonEmpty? := by
  cases value with
  | none => cases h : c.binaryData <;> simp [setBinary, binaryValue, h]
  | some b => simp [setBinary, binaryValue]

theorem binaryValue_setBinary_of_ne (value : Option Bytes) {key' : String} (h : key' ≠ key) :
    (c.setBinary key value).binaryValue key' = c.binaryValue key' := by
  have hne : ¬ key = key' := fun hk => h hk.symm
  cases value with
  | none =>
    cases hd : c.binaryData <;>
      simp [setBinary, binaryValue, hd, Std.ExtTreeMap.getElem?_erase, hne]
  | some b =>
    cases hd : c.binaryData <;>
      simp [setBinary, binaryValue, hd, Std.ExtTreeMap.getElem?_insert, hne]

end ConfigMap.Content
end CertKeeper
