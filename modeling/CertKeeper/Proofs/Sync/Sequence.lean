import CertKeeper.Proofs.Sync.Frame
import CertKeeper.Proofs.Watch.Resolver

/-!
# One run after the other

The runs that a change calls for are made one after the other, in any order. Each changes its own
target at most, so a target is what its own run makes of it, and until then it is what it was.
-/

namespace CertKeeper.SyncKind

variable {k : Kind} {s : SyncKind k} {c : Cluster} {h : Host} {r : Reference}
  {same : k.Content → k.Content → Prop} {order : List (Host × ObjectRef)}

/-- The cluster after one run for each target, each on a host of its own. -/
def syncAll (s : SyncKind k) (c : Cluster) (order : List (Host × ObjectRef)) : Cluster :=
  order.foldl (fun c run => (s.sync c run.1 run.2.key).2) c

@[simp] theorem syncAll_nil : s.syncAll c [] = c := rfl

@[simp] theorem syncAll_cons (run : Host × ObjectRef) :
    s.syncAll c (run :: order) = s.syncAll (s.sync c run.1 run.2.key).2 order := rfl

@[simp] theorem syncAll_append (order' : List (Host × ObjectRef)) :
    s.syncAll c (order ++ order') = s.syncAll (s.syncAll c order) order' :=
  List.foldl_append

theorem Keeps.find?_sync_of_ne (hs : s.Keeps same) {k' : Kind} {r' : Reference}
    (hne : (k', r') ≠ (k, r)) : (s.sync c h r).2.store.find? k' r' = c.store.find? k' r' := by
  have hframed := hs.framed c.refusals c h r
  rw [syncUnder_refusals] at hframed
  by_cases hupdated : (s.sync c h r).1 = .ok .updated
  · exact (hframed.write hupdated).2.1 k' r' hne
  · rw [(hframed.idle hupdated).1]

theorem Keeps.find?_syncAll_of_notMem (hs : s.Keeps same)
    (hr : r ∉ order.map fun run => run.2.key) :
    (s.syncAll c order).store.find? k r = c.store.find? k r := by
  induction order generalizing c with
  | nil => rfl
  | cons run rest ih =>
    rw [List.map_cons, List.mem_cons, not_or] at hr
    rw [syncAll_cons, ih hr.2]
    exact hs.find?_sync_of_ne fun hkey => hr.1 (Prod.mk.inj hkey).2

theorem done_of_ok {target : Object k} (htarget : c.store.find? k r = some target)
    (happlies : s.applies target = true) {outcome : Outcome}
    (ho : (s.sync c h r).1 = .ok outcome) :
    ∃ c', s.sync c h r = (.ok outcome, c') ∧ (outcome = .updated ∨ outcome = .unchanged) := by
  obtain ⟨c', hrun⟩ := exists_sync_eq (congrArg Except.toOption ho)
  have hends := ends_sync s c h r
  rw [hrun] at hends
  refine ⟨c', hrun, ?_⟩
  cases hends with
  | missing hget => cases htarget.symm.trans (Cluster.get_eq_ok.mp hget).2
  | skipped hget hskips =>
    cases htarget.symm.trans (Cluster.get_eq_ok.mp hget).2
    rw [happlies] at hskips
    cases hskips
  | unchanged hl hrevise => exact .inr rfl
  | updated hl hrevise hupdate => exact .inl rfl

end CertKeeper.SyncKind
