import CertKeeper.Proofs.Dict

/-!
# Fields by their names

What is found under a name in the fields of an object, where some of them are modelled and the others
are kept by their names.
-/

namespace CertKeeper

section

variable {β : Type}

theorem lookup_eq_some_iff_mem {l : List (String × β)} (h : (l.map Prod.fst).Nodup) {k : String}
    {v : β} : l.lookup k = some v ↔ (k, v) ∈ l := by
  induction l with
  | nil => simp
  | cons e l ih =>
    obtain ⟨k', v'⟩ := e
    obtain ⟨hnew, hl⟩ := List.nodup_cons.mp h
    by_cases hk : k = k'
    · subst hk
      have hnot : (k, v) ∉ l := fun hmem => hnew (List.mem_map.mpr ⟨_, hmem, rfl⟩)
      simp [hnot, eq_comm]
    · have hne : (k == k') = false := by simpa using hk
      simp [List.lookup_cons, hne, ih hl, hk]

namespace Dict

theorem lookup_toList (d : Dict β) (k : String) : d.toList.lookup k = d[k]? := by
  refine Option.ext fun v => ?_
  rw [lookup_eq_some_iff_mem (nodup_keys d), Std.ExtTreeMap.mem_toList_iff_getElem?_eq_some]

theorem getElem?_ofList_of_nodup {l : List (String × β)} (h : (l.map Prod.fst).Nodup)
    (k : String) : (Std.ExtTreeMap.ofList l : Dict β)[k]? = l.lookup k := by
  refine Option.ext fun v => ?_
  rw [getElem?_ofList_eq_some h, lookup_eq_some_iff_mem h]

theorem mem_of_mem_toList_ofList {l : List (String × β)} {e : String × β}
    (h : e ∈ (Std.ExtTreeMap.ofList l : Dict β).toList) : e ∈ l := by
  rw [Std.ExtTreeMap.mem_toList_iff_getElem?_eq_some, getElem?_ofList,
    List.lookup_eq_some_iff] at h
  obtain ⟨before, after, heq, -⟩ := h
  rw [← List.mem_reverse, heq]
  exact List.mem_append_right _ List.mem_cons_self

end Dict

end

namespace Json

theorem sorted_eq (fields : Fields) :
    sorted fields = object (Std.ExtTreeMap.ofList fields : Dict Json).toList := by
  rw [sorted, Std.ExtTreeMap.ofList_eq_foldl]

namespace Fields

variable {fields : Fields} {known : List String} {key : String}

theorem optional_eq_some {α : Type} {read : Json → Option α} {v : Option α} :
    fields.optional key read = some v ↔
      (v = none ∧ (fields.get? key = none ∨ fields.get? key = some null)) ∨
        ∃ j a, v = some a ∧ fields.get? key = some j ∧ j ≠ null ∧ read j = some a := by
  have hread (j : Json) : (read j).map some = some v ↔ ∃ a, v = some a ∧ read j = some a := by
    simp [Option.map_eq_some_iff, and_comm, eq_comm]
  cases hkey : fields.get? key with
  | none => simp [optional, hkey, eq_comm]
  | some j =>
    cases j with
    | null => simp [optional, hkey, eq_comm]
    | _ => simp [optional, hkey, hread]

/-- What is written under a name, if there is any, is read from there. -/
theorem optional_of_get? {α : Type} {read : Json → Option α} {write : α → Json} {v : Option α}
    (hread : ∀ a ∈ v, read (write a) = some a ∧ write a ≠ null)
    (h : fields.get? key = v.map write) : fields.optional key read = some v := by
  rw [optional_eq_some]
  cases v with
  | none => exact .inl ⟨rfl, .inl h⟩
  | some a =>
    obtain ⟨ha, hnull⟩ := hread a rfl
    exact .inr ⟨_, a, rfl, h, hnull, ha⟩

theorem others_eq : fields.others known = Std.ExtTreeMap.ofList (fields.except known) := by
  rw [others, Std.ExtTreeMap.ofList_eq_foldl]

theorem mem_of_mem_others {e : String × Json} (h : e ∈ (fields.others known).toList) :
    e ∈ fields := by
  rw [others_eq] at h
  exact List.mem_of_mem_filter (Dict.mem_of_mem_toList_ofList h)

theorem getElem?_others (hnames : (fields.map Prod.fst).Nodup) :
    (fields.others known)[key]? = if key ∈ known then none else fields.get? key := by
  have hexcept : ((fields.except known).map Prod.fst).Nodup :=
    hnames.sublist (List.filter_sublist.map _)
  refine Option.ext fun v => ?_
  rw [others_eq, Dict.getElem?_ofList_eq_some hexcept, except, List.mem_filter]
  by_cases hkey : key ∈ known
  · simp [hkey]
  · simp [hkey, get?, lookup_eq_some_iff_mem hnames]

theorem mem_of_get?_eq_some {j : Json} (h : fields.get? key = some j) : (key, j) ∈ fields := by
  obtain ⟨before, after, rfl, -⟩ := List.lookup_eq_some_iff.mp h
  exact List.mem_append_right _ List.mem_cons_self

theorem get?_of_only? {j : Json} (h : fields.only? key = some j) : fields.get? key = some j := by
  induction fields with
  | nil => cases h
  | cons e fields ih =>
    obtain ⟨k, v⟩ := e
    by_cases hk : k = key
    · subst hk
      rw [only?, List.filter_cons_of_pos (by simp)] at h
      split at h
      · rename_i heq
        obtain ⟨rfl, -⟩ := List.cons.inj heq
        cases h
        simp [get?]
      · cases h
    · have hne : (key == k) = false := by simpa using Ne.symm hk
      rw [only?, List.filter_cons_of_neg (by simpa using hk)] at h
      simpa [get?, List.lookup_cons, hne] using ih h

/-- What is written of a record: other fields win over those that are modelled. -/
theorem get?_written (modelled : Fields) (other : Dict Json) :
    Fields.get? (Std.ExtTreeMap.ofList (modelled ++ other.toList) : Dict Json).toList key
      = other[key]?.or (modelled.reverse.lookup key) := by
  rw [get?, Dict.lookup_toList, Dict.getElem?_ofList, List.reverse_append, List.lookup_append,
    ← Dict.getElem?_ofList, Dict.ofList_toList]

end Fields

theorem lookup_reverse_optionalField (key name : String) (v : Option Json) :
    (optionalField key v).reverse.lookup name = if name = key then v else none := by
  cases v with
  | none => simp [optionalField]
  | some j =>
    by_cases h : name = key
    · simp [optionalField, h]
    · have hne : (name == key) = false := by simpa using h
      simp [optionalField, List.lookup_cons, hne, h]

end Json

end CertKeeper
