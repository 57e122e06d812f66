import CertKeeper.Proofs.Sync.Run

/-!
# Runs that do not see each other

Two controllers whose targets have no sources may run for one target in either order. If neither
looks at what the other one writes, each run ends as it would have ended alone, and the same is left
behind.
-/

namespace CertKeeper

/-- An object in the version that follows its own. -/
def Object.next {k : Kind} (o : Object k) : Object k :=
  o.withResourceVersion (some (Store.nextVersion o.resourceVersion))

@[simp] theorem Object.key_next {k : Kind} (o : Object k) : o.next.key = o.key := rfl

namespace Cluster

variable {k : Kind} {c c' : Cluster} {o stored : Object k}

/-- The cluster after an update by an object that carries the stored version. -/
def updated (c : Cluster) (o : Object k) : Cluster where
  store := c.store.insert o.next
  refusals := c.refusals
  writes := c.writes + 1

theorem update_eq_ok_of_stored (hstored : c.store.find? k o.key = some stored)
    (hmetadata : o.metadata = stored.metadata) :
    c.update o = .ok c' ↔ c.refusals.update k o.key = none ∧ c' = c.updated o := by
  have hversion : stored.resourceVersion = o.resourceVersion := by
    rw [Object.resourceVersion, Object.resourceVersion, hmetadata]
  rw [update_eq_ok]
  constructor
  · rintro ⟨hrefused, found, hfound, -, rfl⟩
    cases hstored.symm.trans hfound
    exact ⟨hrefused, by rw [updated, Object.next, hversion]⟩
  · rintro ⟨hrefused, rfl⟩
    exact ⟨hrefused, stored, hstored, hversion, by rw [updated, Object.next, hversion]⟩

theorem get_updated (hget : c.refusals.get k o.key = none) :
    (c.updated o).get k o.key = .ok (some o.next) :=
  get_eq_ok.mpr ⟨hget, Store.find?_insert c.store o.next⟩

theorem updated_updated {o' : Object k} (hkey : o'.key = o.key) : (c.updated o).updated o' =
    { store := c.store.insert o'.next, refusals := c.refusals, writes := c.writes + 1 + 1 } := by
  have hinsert : (c.store.insert o.next).insert o'.next = c.store.insert o'.next :=
    Store.insert_insert c.store hkey
  simp only [updated, hinsert]

end Cluster

namespace SyncKind

variable {k : Kind} {α β : Type} {s t : SyncKind k} {d : Derivation k α} {e : Derivation k β}
  {c c' c'' : Cluster} {h h' : Host} {r : Reference} {o o' : Object k}

/-- Whether the targets of a kind have no sources and are revised by a derivation. -/
structure Sourceless (s : SyncKind k) (d : Derivation k α) : Prop extends s.RevisedBy d where
  sources : ∀ target, s.sources target = .ok []

theorem Stable.sourceless {same : Object k → Object k → Prop} (hs : s.Stable d same) :
    s.Sourceless d :=
  ⟨hs.toRevisedBy, hs.sources⟩

theorem Sourceless.loads (hs : s.Sourceless d) (hget : c.get k r = .ok (some o))
    (happlies : s.applies o = true) : s.Loads c h r o [] :=
  ⟨hget, happlies, [], hs.sources o, rfl⟩

theorem Sourceless.sync_eq_unchanged_iff (hs : s.Sourceless d) (hget : c.get k r = .ok (some o)) :
    s.sync c h r = (.ok .unchanged, c) ↔ s.applies o = true ∧ d.revise h [] o = .ok none := by
  constructor
  · intro hrun
    obtain ⟨-, found, loaded, hl, -⟩ := sync_eq_unchanged.mp hrun
    cases hget.symm.trans hl.get
    exact ⟨hl.applies, hs.revise ▸ (hs.loads hget hl.applies).sync_eq_unchanged_iff.mp hrun⟩
  · rintro ⟨happlies, hrevise⟩
    exact (hs.loads hget happlies).sync_eq_unchanged_iff.mpr (hs.revise ▸ hrevise)

theorem Sourceless.of_updated (hs : s.Sourceless d) (hrun : s.sync c h r = (.ok .updated, c')) :
    ∃ o value, c.get k r = .ok (some o) ∧ d.desired h [] o = .ok value ∧
      c.refusals.update k r = none ∧ c' = c.updated (d.write value o) ∧
        c'.get k r = .ok (some (d.write value o).next) := by
  obtain ⟨o, loaded, value, version, hl, hvalue, -, hupdate, -⟩ := hs.toRevisedBy.of_updated hrun
  obtain ⟨sources, hsources, hloaded⟩ := hl.readAll
  cases (hs.sources o).symm.trans hsources
  cases hloaded
  have hmetadata := hs.metadata value o
  obtain rfl : (d.write value o).key = r := by
    rw [Object.key_eq_of_metadata hmetadata, hl.key_eq]
  obtain ⟨hrefused, rfl⟩ := (Cluster.update_eq_ok_of_stored hl.find? hmetadata).mp hupdate
  exact ⟨o, value, hl.get, hvalue, hrefused, rfl,
    Cluster.get_updated (Cluster.get_eq_ok.mp hl.get).1⟩

theorem Sourceless.fst_sync_eq (hs : s.Sourceless d) (hget : c.get k r = .ok (some o))
    (hrefused : c.refusals.update k r = none) :
    (s.sync c h r).1 = if s.applies o then
        (d.desired h [] o).map fun value =>
          if d.unchanged o (d.current o) value then .unchanged else .updated
      else .ok .skipped := by
  cases happlies : s.applies o with
  | false => exact congrArg Prod.fst (sync_eq_skipped.mpr ⟨rfl, o, hget, happlies⟩)
  | true =>
    have hl : s.Loads c h r o [] := hs.loads hget happlies
    rw [sync, hl.plan_eq, hs.revise, Derivation.revise]
    cases d.desired h [] o with
    | error e => rfl
    | ok value =>
      cases hunchanged : d.unchanged o (d.current o) value with
      | true =>
        simp only [ok_bind, Except.map, hunchanged, if_true]
        rfl
      | false =>
        have hmetadata := hs.metadata value o
        obtain rfl : (d.write value o).key = r := by
          rw [Object.key_eq_of_metadata hmetadata, hl.key_eq]
        have hupdate : c.update (d.write value o) = .ok (c.updated (d.write value o)) :=
          (Cluster.update_eq_ok_of_stored hl.find? hmetadata).mpr ⟨hrefused, rfl⟩
        simp only [ok_bind, hunchanged, Bool.false_eq_true, if_false]
        show (Plan.carryOut c (.write (d.write value o))).1 = _
        rw [Plan.carryOut, hupdate]
        simp only [Except.map, hunchanged, Bool.false_eq_true, if_false, if_true]

/-- Whether a kind comes to the same decision about two targets. -/
structure SeesAlike (s : SyncKind k) (d : Derivation k α) (o o' : Object k) : Prop where
  applies : s.applies o' = s.applies o
  desired : ∀ h, d.desired h [] o' = d.desired h [] o
  current : d.current o' = d.current o
  unchanged : d.unchanged o' = d.unchanged o

theorem Sourceless.fst_sync_congr (hs : s.Sourceless d) (hseen : s.SeesAlike d o o')
    (hget : c.get k r = .ok (some o)) (hget' : c'.get k r = .ok (some o'))
    (hrefused : c.refusals.update k r = none) (hrefused' : c'.refusals.update k r = none) :
    (s.sync c' h r).1 = (s.sync c h r).1 := by
  rw [hs.fst_sync_eq hget' hrefused', hs.fst_sync_eq hget hrefused, hseen.applies, hseen.desired,
    hseen.current, hseen.unchanged]

/-- Whether two kinds do not look at what the other one writes, and write in different places. -/
structure Apart (s : SyncKind k) (d : Derivation k α) (t : SyncKind k) (e : Derivation k β) :
    Prop where
  left : ∀ value o version, s.SeesAlike d o ((e.write value o).withResourceVersion version)
  right : ∀ value o version, t.SeesAlike e o ((d.write value o).withResourceVersion version)
  write : ∀ a b o version version',
    (d.write a ((e.write b o).withResourceVersion version)).withResourceVersion version'
      = (e.write b ((d.write a o).withResourceVersion version)).withResourceVersion version'

theorem Apart.symm (ha : Apart s d t e) : Apart t e s d where
  left := ha.right
  right := ha.left
  write a b o version version' := (ha.write b a o version version').symm

theorem RevisedBy.next_write (hs : s.RevisedBy d) (value : α) (o : Object k) :
    (d.write value o).next
      = (d.write value o).withResourceVersion (some (Store.nextVersion o.resourceVersion)) := by
  rw [Object.next, Object.resourceVersion, hs.metadata, Object.resourceVersion]

theorem Apart.next_write (ha : Apart s d t e) (hs : s.RevisedBy d) (ht : t.RevisedBy e)
    (a : α) (b : β) (o : Object k) :
    (d.write a (e.write b o).next).next = (e.write b (d.write a o).next).next := by
  rw [hs.next_write, ht.next_write, ht.next_write, hs.next_write]
  exact ha.write a b o _ _

theorem Apart.fst_sync_after (ha : Apart s d t e) (hs : s.Sourceless d) (ht : t.Sourceless e)
    (c : Cluster) (h h' : Host) (r : Reference) :
    (s.sync (t.sync c h' r).2 h r).1 = (s.sync c h r).1 := by
  by_cases hupdated : (t.sync c h' r).1 = .ok .updated
  · obtain ⟨c', hrun⟩ := exists_sync_eq (congrArg Except.toOption hupdated)
    obtain ⟨o, value, hget, -, hrefused, rfl, hget'⟩ := ht.of_updated hrun
    rw [hrun]
    exact hs.fst_sync_congr (ha.left value o _) hget hget' hrefused hrefused
  · rw [snd_sync_eq_of_ne hupdated]

/-- If each of the runs updates its target, the same object is left behind in either order. -/
theorem Apart.snd_sync_after_updated (ha : Apart s d t e) (hs : s.Sourceless d)
    (ht : t.Sourceless e) (hrun : s.sync c h r = (.ok .updated, c'))
    (hother : t.sync c h' r = (.ok .updated, c'')) : (s.sync c'' h r).2 = (t.sync c' h' r).2 := by
  have hfirst := ha.fst_sync_after hs ht c h h' r
  have hsecond := ha.symm.fst_sync_after ht hs c h' h r
  rw [hrun, hother] at hfirst hsecond
  obtain ⟨c₁, hrun₁⟩ := exists_sync_eq (congrArg Except.toOption hfirst)
  obtain ⟨c₂, hrun₂⟩ := exists_sync_eq (congrArg Except.toOption hsecond)
  have hrun₁ : s.sync c'' h r = (.ok .updated, c₁) := hrun₁
  have hrun₂ : t.sync c' h' r = (.ok .updated, c₂) := hrun₂
  rw [hrun₁, hrun₂]
  obtain ⟨o, a, hget, hvalue, -, rfl, hafter⟩ := hs.of_updated hrun
  obtain ⟨o', b, hget', hvalue', -, rfl, hafter'⟩ := ht.of_updated hother
  cases hget.symm.trans hget'
  obtain ⟨o₁, a', hget₁, hvalue₁, -, rfl, -⟩ := hs.of_updated hrun₁
  obtain ⟨o₂, b', hget₂, hvalue₂, -, rfl, -⟩ := ht.of_updated hrun₂
  cases hafter'.symm.trans hget₁
  cases hafter.symm.trans hget₂
  -- what each run derives is what it would have derived before the other one
  cases hvalue.symm.trans (((ha.left b o _).desired h).symm.trans hvalue₁)
  cases hvalue'.symm.trans (((ha.right a o _).desired h').symm.trans hvalue₂)
  have hkey : (d.write a (e.write b o).next).key = (e.write b o).key :=
    (Object.key_eq_of_metadata (hs.metadata a _)).trans (Object.key_next _)
  have hkey' : (e.write b (d.write a o).next).key = (d.write a o).key :=
    (Object.key_eq_of_metadata (ht.metadata b _)).trans (Object.key_next _)
  show (c.updated (e.write b o)).updated _ = (c.updated (d.write a o)).updated _
  rw [Cluster.updated_updated hkey, Cluster.updated_updated hkey',
    ha.next_write hs.toRevisedBy ht.toRevisedBy]

/-- Runs of two kinds that do not look at what the other one writes end alike in either order, and
leave the same cluster behind. -/
theorem Apart.sync_comm (ha : Apart s d t e) (hs : s.Sourceless d) (ht : t.Sourceless e)
    (c : Cluster) (h h' : Host) (r : Reference) :
    (s.sync (t.sync c h' r).2 h r).2 = (t.sync (s.sync c h r).2 h' r).2 := by
  have hfirst := ha.fst_sync_after hs ht c h h' r
  have hsecond := ha.symm.fst_sync_after ht hs c h' h r
  by_cases hs' : (s.sync c h r).1 = .ok .updated
  · by_cases ht' : (t.sync c h' r).1 = .ok .updated
    · obtain ⟨c', hrun⟩ := exists_sync_eq (congrArg Except.toOption hs')
      obtain ⟨c'', hother⟩ := exists_sync_eq (congrArg Except.toOption ht')
      rw [hrun, hother]
      exact ha.snd_sync_after_updated hs ht hrun hother
    · have hidle : (t.sync (s.sync c h r).2 h' r).1 ≠ .ok .updated := by rwa [hsecond]
      rw [snd_sync_eq_of_ne ht', snd_sync_eq_of_ne hidle]
  · have hidle : (s.sync (t.sync c h' r).2 h r).1 ≠ .ok .updated := by rwa [hfirst]
    rw [snd_sync_eq_of_ne hs', snd_sync_eq_of_ne hidle]

end SyncKind
end CertKeeper
