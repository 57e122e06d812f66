import CertKeeper.Metrics.Basic

/-!
# What gauges show

A gauge finds its values by the key of their labels. As long as every value stands under the key of
the labels it is shown with, what is shown is what is found.
-/

namespace CertKeeper.Gauge

variable {g : Gauge} {labels : GaugeLabels} {key : UInt64}

def Shows (g : Gauge) (labels : GaugeLabels) (value : Int) : Prop := (labels, value) ∈ g.sorted

/-- Whether every value stands under the key of its labels. -/
def Keyed (g : Gauge) : Prop :=
  ∀ (key : UInt64) (e : GaugeLabels × Int), g[key]? = some e → e.1.key = key

/-- The labels that the value under a key is shown with. -/
def labels? (g : Gauge) (key : UInt64) : Option GaugeLabels := g[key]?.map Prod.fst

@[simp] theorem labels?_empty (key : UInt64) : labels? ∅ key = none := by
  simp [labels?]

/-- Sets the value of some labels, or removes it. -/
def put (g : Gauge) (labels : GaugeLabels) : Option Int → Gauge
  | some value => g.set labels value
  | none => g.remove labels

theorem getElem?_put (g : Gauge) (labels : GaugeLabels) (value : Option Int) (key : UInt64) :
    (g.put labels value)[key]?
      = if labels.key = key then value.map ((g.labels? key).getD labels, ·) else g[key]? := by
  by_cases hkey : labels.key = key
  · subst hkey
    cases value with
    | none => simp [put, remove]
    | some value => cases h : g[labels.key]? <;> simp [put, set, labels?, h]
  · cases value <;>
      simp [put, set, remove, Std.ExtTreeMap.getElem?_insert, Std.ExtTreeMap.getElem?_erase, hkey]

theorem labels?_put (g : Gauge) (labels : GaugeLabels) (value : Option Int) (key : UInt64) :
    (g.put labels value).labels? key
      = if labels.key = key then value.map fun _ => (g.labels? key).getD labels
        else g.labels? key := by
  rw [labels?, getElem?_put]
  split
  · rw [Option.map_map]
    rfl
  · rfl

theorem mem_sorted {e : GaugeLabels × Int} : e ∈ g.sorted ↔ ∃ key : UInt64, g[key]? = some e := by
  simp only [sorted, List.mem_mergeSort, List.mem_map, Prod.exists (α := UInt64),
    Std.ExtTreeMap.mem_toList_iff_getElem?_eq_some]
  constructor
  · rintro ⟨key, e, he, rfl⟩
    exact ⟨key, he⟩
  · rintro ⟨key, he⟩
    exact ⟨key, e, he, rfl⟩

namespace Keyed

theorem empty : Keyed ∅ := by
  intro key e h
  simp at h

theorem put (hg : g.Keyed) (labels : GaugeLabels) (value : Option Int) :
    (g.put labels value).Keyed := by
  intro key e h
  rw [getElem?_put] at h
  split at h
  · rename_i hkey
    obtain ⟨value, -, rfl⟩ := Option.map_eq_some_iff.mp h
    cases hfound : g[key]? with
    | none => simpa [labels?, hfound] using hkey
    | some found => simpa [labels?, hfound] using hg key found hfound
  · exact hg key e h

theorem of_labels? (hg : g.Keyed) (h : g.labels? key = some labels) : labels.key = key := by
  obtain ⟨e, he, rfl⟩ := Option.map_eq_some_iff.mp h
  exact hg key e he

theorem shows_iff (hg : g.Keyed) {value : Int} :
    g.Shows labels value ↔ g[labels.key]? = some (labels, value) := by
  rw [Shows, mem_sorted]
  constructor
  · rintro ⟨key, h⟩
    cases hg key _ h
    exact h
  · exact fun h => ⟨_, h⟩

theorem exists_shows_iff (hg : g.Keyed) :
    (∃ value, g.Shows labels value) ↔ g.labels? labels.key = some labels := by
  simp only [hg.shows_iff, labels?, Option.map_eq_some_iff]
  constructor
  · rintro ⟨value, h⟩
    exact ⟨_, h, rfl⟩
  · rintro ⟨⟨known, value⟩, h, rfl⟩
    exact ⟨value, h⟩

end Keyed
end CertKeeper.Gauge
