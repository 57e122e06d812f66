import CertKeeper.Proofs.Json.Fields
import Mathlib.Data.List.Forall2

/-!
# Values that are settled

Two values are the same if they differ in nothing but the order in which objects have their fields.
A value that is settled stays the same, unless an object in it has several fields with one name.
-/

namespace CertKeeper

namespace Json

def isScalar : Json → Bool
  | array _ | object _ => false
  | _ => true

mutual

/-- Whether the names of the fields are different in every object inside a value. -/
def hasDistinctNames : Json → Bool
  | array items => itemsHaveDistinctNames items
  | object fields => (fields.map Prod.fst).Nodup && fieldsHaveDistinctNames fields
  | _ => true

def itemsHaveDistinctNames : List Json → Bool
  | [] => true
  | j :: rest => hasDistinctNames j && itemsHaveDistinctNames rest

def fieldsHaveDistinctNames : Fields → Bool
  | [] => true
  | (_, j) :: rest => hasDistinctNames j && fieldsHaveDistinctNames rest

end

/-- Whether two values are the same but for the order of the fields of objects. -/
inductive Same : Json → Json → Prop where
  | scalar {j : Json} (h : j.isScalar) : Same j j
  | array {xs ys : List Json} (h : List.Forall₂ Same xs ys) : Same (array xs) (array ys)
  | object {xs ys : Fields} (h : ∀ name, Option.Rel Same (xs.get? name) (ys.get? name)) :
      Same (object xs) (object ys)

theorem Same.eq_of_isScalar {j j' : Json} (h : Same j j') (hj : j.isScalar) : j' = j := by
  cases h with
  | scalar => rfl
  | array | object => cases hj

theorem hasDistinctNames_array {items : List Json} :
    (array items).hasDistinctNames ↔ ∀ j ∈ items, j.hasDistinctNames := by
  rw [hasDistinctNames]
  induction items with
  | nil => simp [itemsHaveDistinctNames]
  | cons j items ih => simp [itemsHaveDistinctNames, ih]

theorem hasDistinctNames_object {fields : Fields} : (object fields).hasDistinctNames ↔
    (fields.map Prod.fst).Nodup ∧ ∀ f ∈ fields, f.2.hasDistinctNames := by
  have hfields : fieldsHaveDistinctNames fields ↔ ∀ f ∈ fields, f.2.hasDistinctNames := by
    induction fields with
    | nil => simp [fieldsHaveDistinctNames]
    | cons f fields ih => simp [fieldsHaveDistinctNames, ih]
  simp [hasDistinctNames, hfields]

end Json

theorem forall₂_of_mapM_eq_some {α β : Type} {f : α → Option β} {xs : List α} {ys : List β}
    (h : xs.mapM f = some ys) : List.Forall₂ (fun x y => f x = some y) xs ys := by
  induction xs generalizing ys with
  | nil =>
    simp at h
    subst h
    exact .nil
  | cons x xs ih =>
    simp only [List.mapM_cons, Option.bind_eq_bind, Option.bind_eq_some_iff] at h
    obtain ⟨y, hy, ys', hys, ⟨⟩⟩ := h
    exact .cons hy (ih hys)

theorem exists_of_mem_of_mapM_eq_some {α β : Type} {f : α → Option β} {xs : List α} {ys : List β}
    (h : xs.mapM f = some ys) {y : β} (hy : y ∈ ys) : ∃ x ∈ xs, f x = some y := by
  have hall := forall₂_of_mapM_eq_some h
  clear h
  induction hall with
  | nil => cases hy
  | @cons x _ xs _ hxy _ ih =>
    rcases List.mem_cons.mp hy with rfl | hy
    · exact ⟨x, List.mem_cons_self, hxy⟩
    · obtain ⟨x', hx', hxy'⟩ := ih hy
      exact ⟨x', List.mem_cons_of_mem x hx', hxy'⟩

namespace Json

theorem rel_lookup {R : Json → Json → Prop} {xs ys : Fields}
    (h : List.Forall₂ (fun x y => x.1 = y.1 ∧ R x.2 y.2) xs ys) (name : String) :
    Option.Rel R (xs.get? name) (ys.get? name) := by
  induction h with
  | nil => exact .none
  | @cons x y xs ys hxy _ ih =>
    obtain ⟨k, v⟩ := x
    obtain ⟨_, w⟩ := y
    obtain ⟨rfl, hvw⟩ := hxy
    by_cases hk : name = k
    · subst hk
      simpa [Fields.get?] using Option.Rel.some hvw
    · have hne : (name == k) = false := by simpa using hk
      simpa [Fields.get?, List.lookup_cons, hne] using ih

/-- The fields of an object with different names are found by them after settling. -/
theorem get?_toList_ofList {fields : Fields} (h : (fields.map Prod.fst).Nodup) (name : String) :
    Fields.get? (Std.ExtTreeMap.ofList fields : Dict Json).toList name = fields.get? name := by
  rw [Fields.get?, Dict.lookup_toList, Dict.getElem?_ofList_of_nodup h]
  rfl

theorem names_eq_of_mapM {depth : Nat} {fields fields' : Fields}
    (h : fields.mapM (fun f => (f.2.settled? depth).map (f.1, ·)) = some fields') :
    fields.map Prod.fst = fields'.map Prod.fst := by
  rw [← List.forall₂_eq_eq_eq, List.forall₂_map_left_iff, List.forall₂_map_right_iff]
  refine (forall₂_of_mapM_eq_some h).imp fun x y hxy => ?_
  obtain ⟨v, -, rfl⟩ := Option.map_eq_some_iff.mp hxy
  rfl

/-- Settling leaves a value the same. -/
theorem same_of_settled {depth : Nat} {j j' : Json} (h : j.settled? depth = some j')
    (hnames : j.hasDistinctNames) : Same j j' := by
  induction depth generalizing j j' with
  | zero => cases j <;> cases h <;> exact .scalar rfl
  | succ d ih =>
    cases j with
    | array items =>
      obtain ⟨items', hitems, rfl⟩ := Option.map_eq_some_iff.mp h
      have heach := (List.forall₂_and_left _ _).mpr
        ⟨hasDistinctNames_array.mp hnames, forall₂_of_mapM_eq_some hitems⟩
      exact .array (heach.imp fun x y hxy => ih hxy.2 hxy.1)
    | object fields =>
      obtain ⟨fields', hfields, rfl⟩ := Option.map_eq_some_iff.mp h
      obtain ⟨hnodup, hall⟩ := hasDistinctNames_object.mp hnames
      have heach : List.Forall₂ (fun x y => x.1 = y.1 ∧ Same x.2 y.2) fields fields' := by
        refine ((List.forall₂_and_left _ _).mpr ⟨hall, forall₂_of_mapM_eq_some hfields⟩).imp ?_
        rintro x y ⟨hx, hxy⟩
        obtain ⟨v, hv, rfl⟩ := Option.map_eq_some_iff.mp hxy
        exact ⟨rfl, ih hv hx⟩
      rw [sorted_eq]
      refine .object fun name => ?_
      rw [get?_toList_ofList (names_eq_of_mapM hfields ▸ hnodup)]
      exact rel_lookup heach name
    | null | bool | integer | real | unreadable | string => cases h <;> exact .scalar rfl

theorem hasDistinctNames_sorted {fields : Fields} (h : ∀ f ∈ fields, f.2.hasDistinctNames) :
    (sorted fields).hasDistinctNames := by
  rw [sorted_eq, hasDistinctNames_object]
  exact ⟨Dict.nodup_keys _, fun f hf => h f (Dict.mem_of_mem_toList_ofList hf)⟩

theorem hasDistinctNames_of_mem_optionalField {key : String} {v : Option Json}
    (h : ∀ j ∈ v, j.hasDistinctNames) {f : String × Json} (hf : f ∈ optionalField key v) :
    f.2.hasDistinctNames := by
  cases v with
  | none => cases hf
  | some j =>
    obtain rfl := List.mem_singleton.mp hf
    exact h j rfl

theorem hasDistinctNames_of_mem_optionalText {key : String} {v : Option String}
    {f : String × Json} (hf : f ∈ optionalField key (v.map string)) : f.2.hasDistinctNames := by
  refine hasDistinctNames_of_mem_optionalField (fun j hj => ?_) hf
  obtain ⟨s, -, rfl⟩ := Option.map_eq_some_iff.mp hj
  rfl

/-- In a settled value all names are different, whatever they were. -/
theorem hasDistinctNames_of_settled {depth : Nat} {j j' : Json} (h : j.settled? depth = some j') :
    j'.hasDistinctNames := by
  induction depth generalizing j j' with
  | zero => cases j <;> cases h <;> rfl
  | succ d ih =>
    cases j with
    | array items =>
      obtain ⟨items', hitems, rfl⟩ := Option.map_eq_some_iff.mp h
      rw [hasDistinctNames_array]
      intro y hy
      obtain ⟨x, -, hx⟩ := exists_of_mem_of_mapM_eq_some hitems hy
      exact ih hx
    | object fields =>
      obtain ⟨fields', hfields, rfl⟩ := Option.map_eq_some_iff.mp h
      refine hasDistinctNames_sorted fun y hy => ?_
      obtain ⟨x, -, hx⟩ := exists_of_mem_of_mapM_eq_some hfields hy
      obtain ⟨v, hv, rfl⟩ := Option.map_eq_some_iff.mp hx
      exact ih hv
    | null | bool | integer | real | unreadable | string => cases h <;> rfl

end Json

end CertKeeper
