import CertKeeper.Store.Cluster

/-!
# What an update changes

An update that succeeds puts one object in its place, under a new version. Every other object stays
as it was, and so do the refusals of the cluster.
-/

namespace CertKeeper

variable {k : Kind}

namespace Object

@[simp] theorem content_withResourceVersion (o : Object k) (version : Option String) :
    (o.withResourceVersion version).content = o.content := rfl

theorem key_eq_of_metadata {o o' : Object k} (h : o'.metadata = o.metadata) : o'.key = o.key :=
  congrArg Metadata.key h

theorem annotations_eq_of_metadata {o o' : Object k}
    (h : ∃ version, o'.metadata = (o.withResourceVersion version).metadata) :
    o'.annotations = o.annotations := by
  obtain ⟨version, hmetadata⟩ := h
  rw [Object.annotations, hmetadata]
  rfl

end Object

namespace Store

theorem key_of_find? {s : Store} {r : Reference} {o : Object k} (h : s.find? k r = some o) :
    o.key = r :=
  (s.table k).key_eq r o h

theorem find?_insert (s : Store) (o : Object k) : (s.insert o).find? k o.key = some o := by
  simp [find?, insert]

theorem find?_insert_of_ne (s : Store) (o : Object k) {k' : Kind} {r : Reference}
    (h : (k', r) ≠ (k, o.key)) : (s.insert o).find? k' r = s.find? k' r := by
  by_cases hk : k' = k
  · subst k'
    have hr : r ≠ o.key := fun hr => h (by rw [hr])
    simp [find?, insert, Table.find?_insert_of_ne _ _ hr]
  · simp [find?, insert, table_setTable_of_ne hk]

theorem insert_insert (s : Store) {o o' : Object k} (h : o'.key = o.key) :
    (s.insert o).insert o' = s.insert o' := by
  have htable : ((s.table k).insert o).insert o' = (s.table k).insert o' := by
    simp only [Table.insert, Table.mk.injEq]
    refine Std.ExtTreeMap.ext_getElem? fun r => ?_
    simp only [Std.ExtTreeMap.getElem?_insert, h]
    split <;> rfl
  have hset (t t' : Table k) : (s.setTable k t).setTable k t' = s.setTable k t' := by
    cases k <;> rfl
  show ((s.setTable k _).setTable k (((s.setTable k _).table k).insert o')) = _
  rw [table_setTable, hset, htable]
  rfl

theorem find?_erase (s : Store) (k : Kind) (r : Reference) : (s.erase k r).find? k r = none := by
  simp [find?, erase, Table.find?, Table.erase]

theorem find?_erase_of_ne (s : Store) {r r' : Reference} (h : r' ≠ r) :
    (s.erase k r).find? k r' = s.find? k r' := by
  simp [find?, erase, Table.find?, Table.erase, Std.ExtTreeMap.getElem?_erase, h.symm]

end Store

namespace Cluster

variable {c c' : Cluster} {o : Object k}

theorem get_eq_ok {r : Reference} {found : Option (Object k)} :
    c.get k r = .ok found ↔ c.refusals.get k r = none ∧ c.store.find? k r = found := by
  cases h : c.refusals.get k r with
  | none => simp [get, h]
  | some e => simp [get, h]

theorem update_eq_ok : c.update o = .ok c' ↔
    c.refusals.update k o.key = none ∧ ∃ stored, c.store.find? k o.key = some stored ∧
      stored.resourceVersion = o.resourceVersion ∧ c' = {
        store := c.store.insert
          (o.withResourceVersion (some (Store.nextVersion stored.resourceVersion)))
        refusals := c.refusals
        writes := c.writes + 1 } := by
  cases hrefused : c.refusals.update k o.key with
  | some e => simp [update, hrefused]
  | none =>
    cases hstored : c.store.find? k o.key with
    | none => simp [update, hrefused, Store.replace, hstored]
    | some stored =>
      by_cases hversion : stored.resourceVersion = o.resourceVersion
      · simp [update, hrefused, Store.replace, hstored, hversion, eq_comm]
      · simp [update, hrefused, Store.replace, hstored, hversion]

theorem find?_update (h : c.update o = .ok c') :
    ∃ version, c'.store.find? k o.key = some (o.withResourceVersion version) := by
  obtain ⟨-, stored, -, -, rfl⟩ := update_eq_ok.mp h
  let o' := o.withResourceVersion (some (Store.nextVersion stored.resourceVersion))
  exact ⟨_, Store.find?_insert c.store o'⟩

/-- What has been updated once can be updated from there. -/
theorem update_again (h : c.update o = .ok c') {o' stored : Object k}
    (hstored : c'.store.find? k o.key = some stored) (hmetadata : o'.metadata = stored.metadata) :
    ∃ c'', c'.update o' = .ok c'' := by
  have hkey : o'.key = o.key := by
    rw [← Store.key_of_find? hstored, Object.key_eq_of_metadata hmetadata]
  have hversion : stored.resourceVersion = o'.resourceVersion := by
    rw [Object.resourceVersion, Object.resourceVersion, hmetadata]
  have hrefused : c'.refusals.update k o'.key = none := by
    obtain ⟨hrefused, _, -, -, rfl⟩ := update_eq_ok.mp h
    rwa [hkey]
  exact ⟨_, update_eq_ok.mpr ⟨hrefused, stored, hkey ▸ hstored, hversion, rfl⟩⟩

theorem find?_update_of_ne (h : c.update o = .ok c') {k' : Kind} {r : Reference}
    (hne : (k', r) ≠ (k, o.key)) : c'.store.find? k' r = c.store.find? k' r := by
  obtain ⟨-, stored, -, -, rfl⟩ := update_eq_ok.mp h
  exact Store.find?_insert_of_ne c.store _ hne

theorem refusals_update (h : c.update o = .ok c') : c'.refusals = c.refusals := by
  obtain ⟨-, stored, -, -, rfl⟩ := update_eq_ok.mp h
  rfl

theorem get_update (h : c.update o = .ok c') (hget : c.refusals.get k o.key = none) :
    ∃ version, c'.get k o.key = .ok (some (o.withResourceVersion version)) := by
  obtain ⟨version, hfind⟩ := find?_update h
  exact ⟨version, get_eq_ok.mpr ⟨by rw [refusals_update h, hget], hfind⟩⟩

theorem get_update_of_ne (h : c.update o = .ok c') {k' : Kind} {r : Reference}
    (hne : (k', r) ≠ (k, o.key)) : c'.get k' r = c.get k' r := by
  rw [get, get, refusals_update h, find?_update_of_ne h hne]

theorem get_congr {r : Reference} (hrefusals : c'.refusals = c.refusals)
    (hfind : c'.store.find? k r = c.store.find? k r) : c'.get k r = c.get k r := by
  rw [get, get, hrefusals, hfind]

/-- Whether two clusters hold the same in one place, and refuse the same there. -/
structure AlikeAt (k : Kind) (r : Reference) (c c' : Cluster) : Prop where
  find? : c'.store.find? k r = c.store.find? k r
  refusesGet : c'.refusals.get k r = c.refusals.get k r
  refusesUpdate : c'.refusals.update k r = c.refusals.update k r

theorem AlikeAt.get {r : Reference} (h : AlikeAt k r c c') : c'.get k r = c.get k r := by
  rw [Cluster.get, Cluster.get, h.refusesGet, h.find?]

/-- Whether an update succeeds, and what it makes of its place, is known from this place. -/
theorem AlikeAt.map_update (h : AlikeAt k o.key c c') :
    (c'.update o).map (fun d => d.store.find? k o.key)
      = (c.update o).map fun d => d.store.find? k o.key := by
  have hafter (s : Store) (version : Option String) :
      (s.insert (o.withResourceVersion version)).find? k o.key
        = some (o.withResourceVersion version) :=
    Store.find?_insert s (o.withResourceVersion version)
  unfold update Store.replace
  rw [h.refusesUpdate, h.find?]
  cases c.refusals.update k o.key with
  | some e => rfl
  | none =>
    cases c.store.find? k o.key with
    | none => rfl
    | some stored =>
      by_cases hversion : stored.resourceVersion = o.resourceVersion
      · simp only [hversion, ne_eq, not_true_eq_false, if_false, Except.map, hafter]
      · simp only [hversion, ne_eq, not_false_eq_true, if_true, Except.map]

end Cluster
end CertKeeper
