import CertKeeper.Operator.Worker
import CertKeeper.Proofs.Sync.Mirror

/-!
# Dependents follow their secrets

A change of a secret is passed through a filter, the targets that name the secret are looked up, and
a run is made for each of them. Whether the filter lets the change pass and in whatever order the
runs are made, every dependent holds in the end what it should by the new content of the secret.
-/

namespace CertKeeper

open Operator Watch

/-- The content of the secrets once `s` has taken the place `r` among them. -/
def Secret.among (s : Secret) (r : Reference) (secrets : Reference → Option Secret) :
    Reference → Option Secret :=
  fun ref => if ref = r then some s else secrets ref

namespace Mirror

variable {m : Mirror} {c : Cluster} {e : ObjectEvent Secret} {order : List (Host × ObjectRef)}
  {target : Object m.controller.kind} {sources : List Source} {r ref : Reference}

/-- Whether the target in the place `r` names the secret `ref`. -/
def Names (m : Mirror) (c : Cluster) (r ref : Reference) : Prop :=
  ∃ target sources, c.store.find? m.controller.kind r = some target ∧
    m.controller.sync.sources target = .ok sources ∧ .secret ref ∈ sources

/-- Runs for targets that name a secret change neither it nor what else is named along with it. -/
theorem Lawful.find?_secret_syncAll (hm : m.Lawful)
    (hkeys : (order.map fun run => run.2.key).Nodup)
    (hnames : ∀ run ∈ order, m.Names c run.2.key r)
    (hsources : m.controller.sync.sources target = .ok sources) (hr : .secret r ∈ sources)
    (href : .secret ref ∈ sources) :
    (m.controller.sync.syncAll c order).store.find? .secret ref = c.store.find? .secret ref := by
  induction order generalizing c with
  | nil => rfl
  | cons run rest ih =>
    obtain ⟨hnotin, hrest⟩ := List.nodup_cons.mp hkeys
    obtain ⟨first, named, hfirst, hnamed, hmem⟩ := hnames run List.mem_cons_self
    have hnames' : ∀ run' ∈ rest,
        m.Names (m.controller.sync.sync c run.1 run.2.key).2 run'.2.key r := by
      intro run' hrun'
      have hne : run'.2.key ≠ run.2.key := fun hkey =>
        hnotin (List.mem_map.mpr ⟨run', hrun', hkey⟩)
      obtain ⟨other, named', hother, hnamed', hmem'⟩ := hnames run' (List.mem_cons_of_mem _ hrun')
      refine ⟨other, named', ?_, hnamed', hmem'⟩
      rw [hm.keeps.find?_sync_of_ne (by simpa using hne), hother]
    rw [SyncKind.syncAll_cons, ih hrest hnames',
      hm.find?_secret_sync hfirst hnamed hmem hsources hr href]

/-- A target that names a secret becomes what it should be when its turn comes among the runs for
all of them, and stays so. -/
theorem Lawful.exists_holds_of_mem (hm : m.Lawful)
    (hkeys : (order.map fun run => run.2.key).Nodup)
    (hnames : ∀ run ∈ order, m.Names c run.2.key r)
    (htarget : c.store.find? m.controller.kind target.key = some target)
    (happlies : m.controller.sync.applies target = true)
    (hsources : m.controller.sync.sources target = .ok sources) (hr : .secret r ∈ sources)
    (hmem : target.ref ∈ order.map Prod.snd)
    (hok : ∀ pre h post, order = pre ++ (h, target.ref) :: post → ∃ outcome,
      (m.controller.sync.sync (m.controller.sync.syncAll c pre) h target.key).1 = .ok outcome) :
    ∃ after, (m.controller.sync.syncAll c order).store.find? m.controller.kind target.key
        = some after ∧ m.holds (c.store.find? .secret) target after := by
  obtain ⟨⟨h, found⟩, hrun, rfl⟩ := List.mem_map.mp hmem
  obtain ⟨pre, post, rfl⟩ := List.append_of_mem hrun
  rw [List.map_append, List.map_cons, List.nodup_append] at hkeys
  obtain ⟨hpre, hpost, hapart⟩ := hkeys
  have hearlier : target.key ∉ pre.map fun run => run.2.key := fun hmem =>
    hapart _ hmem _ List.mem_cons_self rfl
  have hlater : target.key ∉ post.map fun run => run.2.key := (List.nodup_cons.mp hpost).1
  -- Until its turn the target is what it was, and so are the secrets that it names.
  have hturn : (m.controller.sync.syncAll c pre).store.find? m.controller.kind target.key
      = some target := by
    rw [hm.keeps.find?_syncAll_of_notMem hearlier, htarget]
  have hsecrets : ∀ ref, .secret ref ∈ sources → SameFields m.fields
      ((m.controller.sync.syncAll c pre).store.find? .secret ref) (c.store.find? .secret ref) := by
    intro ref href key _
    rw [hm.find?_secret_syncAll hpre (fun run hrun => hnames run (by simp [hrun])) hsources hr href]
  obtain ⟨outcome, ho⟩ := hok pre h post rfl
  obtain ⟨c', hsync, hdone⟩ := SyncKind.done_of_ok hturn happlies ho
  obtain ⟨after, hafter, hholds⟩ := hm.holds_after hturn hsources hr hsync hdone
  refine ⟨after, ?_, hm.holds_congr hsources hsecrets hholds⟩
  rw [SyncKind.syncAll_append, SyncKind.syncAll_cons, hm.keeps.find?_syncAll_of_notMem hlater,
    Object.key_ref, hsync, hafter]

theorem Lawful.dependents_eq (hm : m.Lawful) :
    Worker.dependents c e (.controller m.controller) =
      if (EventFilter.tlsSourceChanged m.fields).accepts e then
        m.controller.sync.resolveSource c e.object.key
      else [] := by
  rw [Worker.dependents, hm.sourceFilter]

theorem Lawful.nodup_keys_dependents (hm : m.Lawful)
    (hlist : c.refusals.list m.controller.kind = none) :
    ((Worker.dependents c e (.controller m.controller)).map ObjectRef.key).Nodup := by
  rw [hm.dependents_eq]
  split
  · exact SyncKind.nodup_keys_resolve hlist
  · exact List.nodup_nil

theorem Lawful.names_of_mem_dependents (hm : m.Lawful)
    (hlist : c.refusals.list m.controller.kind = none) {found : ObjectRef}
    (hmem : found ∈ Worker.dependents c e (.controller m.controller)) :
    m.Names c found.key e.object.key := by
  rw [hm.dependents_eq] at hmem
  split at hmem
  · obtain ⟨target, htarget, hdepends, rfl⟩ :=
      (SyncKind.mem_resolveSource hm.staysLocal hlist).mp hmem
    obtain ⟨-, sources, hsources, hr⟩ := SyncKind.dependsOn_iff.mp hdepends
    exact ⟨target, sources, htarget, hsources, hr⟩
  · cases hmem

theorem fieldsDiffer_eq_false {fields : List String} {old new : Secret} :
    EventFilter.fieldsDiffer fields old new = false ↔
      SameFields fields (some old) (some new) := by
  simp only [EventFilter.fieldsDiffer, List.any_eq_false, bne_iff_ne, ne_eq, not_not, SameFields,
    Option.bind_some]

/-- What the filter passes over leaves everything that matters as it was. -/
theorem sameFields_of_rejected {fields : List String}
    (he : (EventFilter.tlsSourceChanged fields).accepts e = false) (hexists : ∀ o, e ≠ .deleted o)
    (htls : e.object.content.isTls = true) :
    ∃ old new, e = .updated old new ∧ SameFields fields (some old) (some new) := by
  cases e with
  | created o =>
    have hskipped : o.content.isTls = false := he
    cases htls.symm.trans hskipped
  | deleted o => exact absurd rfl (hexists o)
  | updated old new =>
    have hnew : new.content.isTls = true := htls
    simp only [EventFilter.accepts, EventFilter.tlsSourceChanged, hnew, Bool.true_and] at he
    exact ⟨old, new, rfl, fieldsDiffer_eq_false.mp he⟩

/-- Where secrets opt in, the filter passes over the changes that keep the opting in and, if there
is any, the fields. -/
theorem annotatedTlsSecret_eq_false {key : String} {fields : List String} {old new : Secret}
    (htls : new.content.isTls = true) :
    (EventFilter.annotatedTlsSecret key fields).accepts (.updated old new) = false ↔
      new.annotations.isEnabled key = old.annotations.isEnabled key ∧
        (old.annotations.isEnabled key = true → SameFields fields (some old) (some new)) := by
  simp only [EventFilter.accepts, EventFilter.annotatedTlsSecret, htls, Bool.true_and,
    Bool.or_eq_false_iff, bne_eq_false_iff_eq, Bool.and_eq_false_imp, fieldsDiffer_eq_false]
  constructor
  · rintro ⟨henabled, hfields⟩
    exact ⟨henabled.symm, fun hold => hfields (henabled ▸ hold)⟩
  · rintro ⟨henabled, hfields⟩
    exact ⟨henabled.symm, fun hnew => hfields (henabled ▸ hnew)⟩

theorem Lawful.holds_of_rejected (hm : m.Lawful)
    (he : (EventFilter.tlsSourceChanged m.fields).accepts e = false)
    (hexists : ∀ o, e ≠ .deleted o)
    (hstored : c.store.find? .secret e.object.key = some e.object)
    (htls : e.object.content.isTls = true)
    (htarget : c.store.find? m.controller.kind target.key = some target)
    (hsources : m.controller.sync.sources target = .ok sources)
    (hnames : .secret e.object.key ∈ sources)
    (hbefore : ∀ old new, e = .updated old new →
      (Kind.secret, new.key) ≠ (m.controller.kind, target.key) →
        m.holds (old.among new.key (c.store.find? .secret)) target target) :
    m.holds (c.store.find? .secret) target target := by
  obtain ⟨old, new, rfl, hsame⟩ := sameFields_of_rejected he hexists htls
  by_cases hself : (Kind.secret, new.key) = (m.controller.kind, target.key)
  · exact hm.holds_self hself htarget hsources hnames
  · refine hm.holds_congr hsources (fun ref _ => ?_) (hbefore old new rfl hself)
    by_cases href : ref = new.key
    · subst href
      rw [show c.store.find? .secret new.key = some new from hstored, Secret.among, if_pos rfl]
      exact hsame
    · rw [Secret.among, if_neg href]
      exact fun _ _ => rfl

/-- What holds of every target after the runs that a change of a secret calls for. -/
theorem Lawful.exists_holds_after (hlawful : m.Lawful)
    (hexists : ∀ o, e ≠ .deleted o)
    (hstored : c.store.find? .secret e.object.key = some e.object)
    (htls : e.object.content.isTls = true) (hlist : c.refusals.list m.controller.kind = none)
    (horder : (order.map Prod.snd).Perm (Worker.dependents c e (.controller m.controller)))
    (htarget : c.store.find? m.controller.kind target.key = some target)
    (happlies : m.controller.sync.applies target = true)
    (hsources : m.controller.sync.sources target = .ok sources)
    (hnames : .secret e.object.key ∈ sources)
    (hok : ∀ pre h post, order = pre ++ (h, target.ref) :: post → ∃ outcome,
      (m.controller.sync.sync (m.controller.sync.syncAll c pre) h target.key).1 = .ok outcome)
    (hbefore : ∀ old new, e = .updated old new →
      (Kind.secret, new.key) ≠ (m.controller.kind, target.key) →
        m.holds (old.among new.key (c.store.find? .secret)) target target) :
    (m.controller.sync.syncAll c order).store.find? .secret e.object.key = some e.object ∧
      ∃ after, (m.controller.sync.syncAll c order).store.find? m.controller.kind target.key
          = some after ∧
        m.holds (c.store.find? .secret) target after := by
  have hkeys : (order.map fun run => run.2.key).Nodup := by
    have hkeys := (horder.map ObjectRef.key).nodup_iff.mpr (hlawful.nodup_keys_dependents hlist)
    rwa [List.map_map] at hkeys
  have hrefs : ∀ run ∈ order, m.Names c run.2.key e.object.key := fun run hrun =>
    hlawful.names_of_mem_dependents hlist (horder.mem_iff.mp (List.mem_map_of_mem hrun))
  refine ⟨?_, ?_⟩
  · rw [hlawful.find?_secret_syncAll hkeys hrefs hsources hnames hnames, hstored]
  · by_cases haccepts : (EventFilter.tlsSourceChanged m.fields).accepts e = true
    · have hmem : target.ref ∈ order.map Prod.snd := by
        rw [horder.mem_iff, hlawful.dependents_eq, if_pos haccepts,
          SyncKind.mem_resolveSource hlawful.staysLocal hlist]
        have hdepends := SyncKind.dependsOn_iff.mpr ⟨happlies, sources, hsources, hnames⟩
        exact ⟨target, htarget, hdepends, rfl⟩
      exact hlawful.exists_holds_of_mem hkeys hrefs htarget happlies hsources hnames hmem hok
    · have hnone : order = [] := by
        rw [hlawful.dependents_eq, if_neg haccepts] at horder
        exact List.map_eq_nil_iff.mp horder.eq_nil
      subst hnone
      exact ⟨target, htarget, hlawful.holds_of_rejected (Bool.eq_false_iff.mpr haccepts) hexists
        hstored htls htarget hsources hnames hbefore⟩

end Mirror

/-- After the creation or an update of a secret that holds a certificate, and a run for each target
that is found to depend on it, in any order, every target that names the secret and whose run does
not fail holds what it should by the new content. A target that no run was called for has held this
already, if it has held what it should by the old content. -/
theorem converges_after_source_change :
    Mirror.all.map Mirror.controller
      = Controller.all.filter (fun c => c.sync.sourceFilter.isSome) ∧
    ∀ m ∈ Mirror.all, ∀ (c : Cluster) (e : ObjectEvent Secret), (∀ o, e ≠ .deleted o) →
      c.store.find? .secret e.object.key = some e.object → e.object.content.isTls = true →
      c.refusals.list m.controller.kind = none → ∀ order : List (Host × ObjectRef),
      (order.map Prod.snd).Perm (Worker.dependents c e (.controller m.controller)) →
      ∀ (target : Object m.controller.kind) (sources : List Source),
      c.store.find? m.controller.kind target.key = some target →
      m.controller.sync.applies target = true →
      m.controller.sync.sources target = .ok sources → .secret e.object.key ∈ sources →
      (∀ pre h post, order = pre ++ (h, target.ref) :: post → ∃ outcome,
        (m.controller.sync.sync (m.controller.sync.syncAll c pre) h target.key).1 = .ok outcome) →
      (∀ old new, e = .updated old new →
        (Kind.secret, new.key) ≠ (m.controller.kind, target.key) →
          m.holds (old.among new.key (c.store.find? .secret)) target target) →
        (m.controller.sync.syncAll c order).store.find? .secret e.object.key = some e.object ∧
          ∃ after, (m.controller.sync.syncAll c order).store.find? m.controller.kind target.key
              = some after ∧
            m.holds (c.store.find? .secret) target after :=
  ⟨rfl, fun _ hm _ _ hexists hstored htls hlist _ horder _ _ htarget happlies hsources hnames hok
    hbefore => (Mirror.lawful hm).exists_holds_after hexists hstored htls hlist horder htarget
      happlies hsources hnames hok hbefore⟩

namespace RenewedSecret

open CaTarget.NamedSecret

def old : Secret := (source [65]).withResourceVersion (some "1")

def new : Secret := (source [66]).withResourceVersion (some "2")

def target : ConfigMap :=
  ⟨{ metadata "cm" ((∅ : Annotations).insert Key.injectCaFromSecret "ns/ca") with
      resourceVersion := some "1" },
    ⟨some ((∅ : Dict String).insert Field.caCert "A"), none, ∅⟩⟩

def cluster : Cluster := .ofStore ((Store.empty.seed new).seed target)

def order : List (Host × ObjectRef) := [(host, target.ref)]

end RenewedSecret

open RenewedSecret in
theorem converges_after_source_change_renewed :
    ∃ after, (CaTarget.configMap.injection.syncAll cluster order).store.find? .configMap target.key
        = some after ∧
      CaTarget.configMap.bundles after = [some [66]] := by
  let m : Mirror := ⟨⟨_, CaTarget.configMap.injection⟩, [Field.caCert], CaTarget.configMap.Holds⟩
  have hm : m ∈ Mirror.all := .head _
  have hstored : cluster.store.find? .secret new.key = some new :=
    (Store.find?_insert_of_ne _ _ (by decide)).trans (Store.find?_insert _ _)
  have htarget : cluster.store.find? .configMap target.key = some target := Store.find?_insert _ _
  have horder : order.map Prod.snd
      = Worker.dependents cluster (.updated old new) (.controller m.controller) := by
    decide +kernel
  have hsources : CaTarget.configMap.sources target = .ok [.secret new.key] := rfl
  have hok : ∀ pre h post, order = pre ++ (h, target.ref) :: post → ∃ outcome,
      (CaTarget.configMap.injection.sync (CaTarget.configMap.injection.syncAll cluster pre) h
        target.key).1 = .ok outcome := by
    intro pre h post hsplit
    cases pre with
    | cons run pre =>
      have hlength := congrArg List.length hsplit
      simp [order] at hlength
    | nil =>
      cases hsplit
      have hupdated : (CaTarget.configMap.injection.sync cluster CaTarget.NamedSecret.host
          target.key).1.toOption = some .updated := by
        decide +kernel
      obtain ⟨c', hrun⟩ := SyncKind.exists_sync_eq hupdated
      exact ⟨.updated, congrArg Prod.fst hrun⟩
  have hbefore : CaTarget.configMap.Holds (old.among new.key (cluster.store.find? .secret)) target
      target := by
    refine ⟨new.key, hsources, ?_⟩
    decide +kernel
  obtain ⟨-, after, hafter, ref, href, hbundles⟩ :=
    converges_after_source_change.2 m hm cluster (.updated old new) (fun _ => by simp) hstored rfl
      rfl order (.of_eq horder) target _ htarget rfl hsources List.mem_cons_self hok
      (fun _ _ he _ => by cases he; exact hbefore)
  cases hsources.symm.trans href
  rw [hstored] at hbundles
  exact ⟨after, hafter, hbundles⟩
end CertKeeper
