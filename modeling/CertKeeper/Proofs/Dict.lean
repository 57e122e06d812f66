import CertKeeper.Json
import Mathlib.Data.List.Induction
import Mathlib.Data.List.Nodup

/-!
# Finite maps

A map is determined by its entries, in whatever order they are put into it again. Of several entries
with one key the last one counts.
-/

namespace CertKeeper.Dict

variable {β : Type}

theorem getElem?_ofList_eq_some {l : List (String × β)} (h : (l.map Prod.fst).Nodup) {k : String}
    {v : β} : (Std.ExtTreeMap.ofList l)[k]? = some v ↔ (k, v) ∈ l := by
  have hdistinct : l.Pairwise fun a b => ¬ compare a.1 b.1 = .eq := by
    rw [List.Nodup, List.pairwise_map] at h
    simpa using h
  have hmem {v : β} (hv : (k, v) ∈ l) : (Std.ExtTreeMap.ofList l)[k]? = some v :=
    Std.ExtTreeMap.getElem?_ofList_of_mem Std.ReflCmp.compare_self hdistinct hv
  constructor
  · intro hk
    by_cases hin : k ∈ l.map Prod.fst
    · obtain ⟨⟨k', v'⟩, hv', rfl⟩ := List.mem_map.mp hin
      rw [hmem hv'] at hk
      cases hk
      exact hv'
    · have hnone : (Std.ExtTreeMap.ofList l)[k]? = none :=
        Std.ExtTreeMap.getElem?_ofList_of_contains_eq_false (by simpa using hin)
      rw [hnone] at hk
      cases hk
  · exact hmem

theorem nodup_keys (d : Dict β) : (d.toList.map Prod.fst).Nodup := by
  rw [List.Nodup, List.pairwise_map]
  simpa using d.distinct_keys_toList

theorem ofList_toList (d : Dict β) : Std.ExtTreeMap.ofList d.toList = d := by
  apply Std.ExtTreeMap.ext_getElem?
  intro k
  apply Option.ext
  intro v
  rw [getElem?_ofList_eq_some (nodup_keys d), Std.ExtTreeMap.mem_toList_iff_getElem?_eq_some]

theorem toList_ofList_perm {l : List (String × β)} (h : (l.map Prod.fst).Nodup) :
    (Std.ExtTreeMap.ofList l).toList.Perm l := by
  have hleft : (Std.ExtTreeMap.ofList l).toList.Nodup := (nodup_keys _).of_map
  rw [List.perm_ext_iff_of_nodup hleft h.of_map]
  rintro ⟨k, v⟩
  rw [Std.ExtTreeMap.mem_toList_iff_getElem?_eq_some, getElem?_ofList_eq_some h]

theorem ofList_concat (l : List (String × β)) (e : String × β) :
    (Std.ExtTreeMap.ofList (l ++ [e]) : Dict β) = (Std.ExtTreeMap.ofList l).insert e.1 e.2 := by
  rw [Std.ExtTreeMap.ofList_eq_foldl, Std.ExtTreeMap.ofList_eq_foldl, List.foldl_append]
  rfl

theorem getElem?_ofList (l : List (String × β)) (k : String) :
    (Std.ExtTreeMap.ofList l : Dict β)[k]? = l.reverse.lookup k := by
  induction l using List.reverseRecOn with
  | nil => simp
  | append_singleton l e ih =>
    rw [ofList_concat, Std.ExtTreeMap.getElem?_insert, List.reverse_concat, List.lookup_cons, ← ih]
    by_cases hk : e.1 = k
    · simp [hk]
    · have hne : (k == e.1) = false := by simpa using Ne.symm hk
      simp [hk, hne]

theorem size_ofList_eq_length_iff {l : List (String × β)} :
    (Std.ExtTreeMap.ofList l : Dict β).size = l.length ↔ (l.map Prod.fst).Nodup := by
  induction l using List.reverseRecOn with
  | nil => simp
  | append_singleton l e ih =>
    have hle : (Std.ExtTreeMap.ofList l : Dict β).size ≤ l.length := Std.ExtTreeMap.size_ofList_le
    have hmem : (Std.ExtTreeMap.ofList l : Dict β).contains e.1 = true ↔ e.1 ∈ l.map Prod.fst := by
      simp
    rw [ofList_concat, Std.ExtTreeMap.size_insert, List.length_append, List.length_singleton,
      List.map_append, List.nodup_append, ← ih]
    by_cases he : e.1 ∈ l.map Prod.fst
    · rw [if_pos (hmem.mpr he)]
      constructor
      · omega
      · rintro ⟨-, -, hne⟩
        exact absurd rfl (hne _ he _ List.mem_cons_self)
    · rw [if_neg (mt hmem.mp he), Nat.add_right_cancel_iff]
      constructor
      · intro h
        refine ⟨h, List.nodup_singleton _, fun k hk k' hk' => ?_⟩
        rintro rfl
        exact he (List.mem_singleton.mp hk' ▸ hk)
      · exact fun h => h.1

end CertKeeper.Dict
