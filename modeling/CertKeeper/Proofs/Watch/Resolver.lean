import CertKeeper.Proofs.Store.Update
import CertKeeper.Watch.Resolver
import Mathlib.Data.List.Nodup

/-!
# Every dependent is found once

A list tells all stored objects of a kind, or those of one namespace. So the search for the targets
that name a source finds each of them once, and nothing else. Where only one namespace is searched,
this takes that targets name no secret of another.
-/

namespace CertKeeper

variable {k : Kind}

def ObjectRef.key (ref : ObjectRef) : Reference := ⟨ref.ns.getD "", ref.name⟩

@[simp] theorem Object.key_ref (o : Object k) : o.ref.key = o.key := rfl

theorem Store.mem_list_iff {s : Store} {ns : Option String} {o : Object k} :
    o ∈ s.list k ns ↔ s.find? k o.key = some o ∧ ns.all (· = o.key.ns) = true := by
  have hmem (r : Reference) (o : Object k) :
      (r, o) ∈ (s.table k).objects.toList ↔ s.find? k r = some o :=
    Std.ExtTreeMap.mem_toList_iff_getElem?_eq_some
  simp only [list, List.mem_map, List.mem_filter, Prod.exists, hmem]
  constructor
  · rintro ⟨r, o, ⟨ho, hns⟩, rfl⟩
    rw [key_of_find? ho]
    exact ⟨ho, hns⟩
  · rintro ⟨ho, hns⟩
    exact ⟨o.key, o, ⟨ho, hns⟩, rfl⟩

theorem nodup_eraseDups {α : Type} [BEq α] [LawfulBEq α] (l : List α) : l.eraseDups.Nodup := by
  match l with
  | [] => exact List.nodup_nil
  | a :: rest =>
    rw [List.eraseDups_cons, List.nodup_cons]
    exact ⟨by simp, nodup_eraseDups (rest.filter fun b => !b == a)⟩
termination_by l.length
decreasing_by exact Nat.lt_succ_of_le (List.length_filter_le ..)

namespace SyncKind

variable {s : SyncKind k} {c : Cluster} {ns : Option String} {source : Source} {r : Reference}
  {target : Object k} {ref : ObjectRef}

theorem dependsOn_iff : s.dependsOn source target = true ↔
    s.applies target = true ∧ ∃ sources, s.sources target = .ok sources ∧ source ∈ sources := by
  rw [dependsOn, Bool.and_eq_true]
  cases s.sources target <;> simp

theorem mem_resolve (hlist : c.refusals.list k = none) : ref ∈ s.resolve c ns source ↔
    ∃ target, c.store.find? k target.key = some target ∧ ns.all (· = target.key.ns) = true ∧
      s.dependsOn source target = true ∧ target.ref = ref := by
  simp only [resolve, Cluster.list, hlist, List.mem_eraseDups, List.mem_map, List.mem_filter,
    Store.mem_list_iff, and_assoc]

theorem nodup_keys_resolve (hlist : c.refusals.list k = none) :
    ((s.resolve c ns source).map ObjectRef.key).Nodup := by
  have hnodup : (s.resolve c ns source).Nodup := by
    simp only [resolve, Cluster.list, hlist]
    exact nodup_eraseDups _
  refine List.Nodup.map_on (fun ref href ref' href' hkey => ?_) hnodup
  obtain ⟨target, htarget, -, -, rfl⟩ := (mem_resolve hlist).mp href
  obtain ⟨target', htarget', -, -, rfl⟩ := (mem_resolve hlist).mp href'
  rw [Object.key_ref, Object.key_ref] at hkey
  rw [hkey, htarget'] at htarget
  cases htarget
  rfl

/-- Whether targets name secrets of their own namespace only, if no other namespace is searched. -/
def StaysLocal (s : SyncKind k) : Prop :=
  s.localSources = true → ∀ target sources r, s.sources target = .ok sources →
    .secret r ∈ sources → r.ns = target.key.ns

theorem mem_resolveSource (hs : s.StaysLocal) (hlist : c.refusals.list k = none) :
    ref ∈ s.resolveSource c r ↔ ∃ target, c.store.find? k target.key = some target ∧
      s.dependsOn (.secret r) target = true ∧ target.ref = ref := by
  rw [resolveSource, mem_resolve hlist]
  constructor
  · rintro ⟨target, htarget, -, hdepends, href⟩
    exact ⟨target, htarget, hdepends, href⟩
  · rintro ⟨target, htarget, hdepends, href⟩
    refine ⟨target, htarget, ?_, hdepends, href⟩
    split
    · rename_i hlocal
      obtain ⟨-, sources, hsources, hmem⟩ := dependsOn_iff.mp hdepends
      simp [hs hlocal target sources r hsources hmem]
    · rfl

end SyncKind
end CertKeeper
