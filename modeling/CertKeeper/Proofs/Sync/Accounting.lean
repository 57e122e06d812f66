import CertKeeper.Proofs.Sync.Frame
import CertKeeper.Proofs.Watch.Resolver
import CertKeeper.Sync.Reconcile

/-!
# What is recorded of runs

A run is counted when it starts and its error when it has ended, and a write is counted where the
outcome tells of one. These are the counts of what has happened, over any sequence of runs and
whatever else becomes of the cluster. A warning is given of each error that can be mended on the
object, and of nothing else. A run that a panic cuts off has not failed.
-/

namespace CertKeeper

theorem Metrics.getD_bump (c : Counter) (name other : String) :
    (bump c name).getD other 0 = c.getD other 0 + if name = other then 1 else 0 := by
  unfold bump
  rw [Std.ExtTreeMap.getD_insert]
  by_cases hname : name = other
  · subst hname
    simp
  · simp [hname]

theorem Plan.writes_carryOut {k : Kind} (p : Plan k) (c : Cluster) :
    (p.carryOut c).2.writes = c.writes + if (p.carryOut c).1 = .ok .updated then 1 else 0 := by
  cases p with
  | missing | skip | keep => rfl
  | write o =>
    rw [carryOut]
    cases hupdate : c.update o with
    | error e => rfl
    | ok c' =>
      obtain ⟨-, _, -, -, rfl⟩ := Cluster.update_eq_ok.mp hupdate
      rfl

/-- A run of a controller while others change the cluster. -/
structure Call where
  controller : Controller
  /-- What it has decided from what it has read, at whatever times. -/
  plan : Except SyncError (Plan controller.kind)
  /-- The cluster that its update meets. -/
  met : Cluster
  ref : ObjectRef

namespace Call

def alone (c : Controller) (cluster : Cluster) (h : Host) (ref : ObjectRef) : Call :=
  ⟨c, c.sync.plan cluster h ref.key, cluster, ref⟩

def result (call : Call) : Except SyncError Outcome × Cluster :=
  match call.plan with
  | .error e => (.error e, call.met)
  | .ok p => p.carryOut call.met

/-- All that is recorded of a run. -/
def reconcile (call : Call) (m : Metrics) : Reconciliation :=
  (call.controller.record m call.ref call.result).close call.controller.name

/-- How many updates the cluster has carried out for a run. -/
def updates (call : Call) : Nat := call.result.2.writes - call.met.writes

def failure? (call : Call) : Option SyncError :=
  match call.result.1 with
  | .ok _ | .error (.panic _) => none
  | .error e => some e

/-- Whether a run has failed on an error that is neither one of the API nor one of a watch. -/
def failsOnObject (call : Call) : Bool :=
  match call.failure? with
  | none | some (.api _) | some (.watch _) => false
  | some _ => true

/-- Whether a warning tells of the error of a run, on its object. -/
structure Warns (call : Call) (w : Warning) : Prop where
  kind : w.kind = call.controller.kind
  ref : w.ref = call.ref
  error : ∃ e, call.failure? = some e ∧ w.reason = e.reason ∧ e.message? = some w.note

def warnings (call : Call) : List Warning :=
  (call.failure?.bind fun e => e.warning? call.controller.kind call.ref).toList

variable {call : Call} {m : Metrics} {e : SyncError} {name : String}

theorem reconcile_alone (c : Controller) (cluster : Cluster) (h : Host) (ref : ObjectRef)
    (m : Metrics) : (alone c cluster h ref).reconcile m = c.reconcile cluster h m ref := by
  have hresult : (alone c cluster h ref).result = c.sync.sync cluster h ref.key := by
    unfold result alone SyncKind.sync
    cases c.sync.plan cluster h ref.key <;> rfl
  rw [reconcile, hresult]
  rfl

theorem updates_eq (call : Call) :
    call.updates = if call.result.1 = .ok .updated then 1 else 0 := by
  unfold updates result
  cases call.plan with
  | error e => simp
  | ok p => simp only [Plan.writes_carryOut, Nat.add_sub_cancel_left]

theorem failure?_eq_some : call.failure? = some e ↔
    call.result.1 = .error e ∧ ∀ cause, e ≠ .panic cause := by
  unfold failure?
  cases call.result.1 with
  | ok outcome => simp
  | error found =>
    cases found with
    | panic cause =>
      simp only [reduceCtorEq, Except.error.injEq, false_iff, not_and, not_forall]
      exact fun h => ⟨cause, not_not.mpr h.symm⟩
    | _ =>
      simp only [Option.some.injEq, Except.error.injEq, iff_self_and]
      rintro rfl cause h
      cases h

theorem outcome_reconcile (call : Call) (m : Metrics) :
    (call.reconcile m).outcome = call.result.1 := by
  rw [reconcile, Reconciliation.outcome_close]
  unfold Controller.record
  split <;> (rename_i hresult; rw [hresult])

theorem warnings_reconcile (call : Call) (m : Metrics) :
    (call.reconcile m).warnings = call.warnings := by
  rw [reconcile, Reconciliation.warnings_close]
  unfold Controller.record warnings failure?
  rcases call.result with ⟨e | outcome, cluster⟩
  · cases e <;> rfl
  · rfl

/-- Errors of the API and of watches are the only ones of which no warning is given. -/
theorem exists_warning_of_failsOnObject (h : call.failsOnObject = true) :
    ∃ w, call.warnings = [w] ∧ call.Warns w := by
  unfold failsOnObject at h
  cases hfailure : call.failure? with
  | none => simp [hfailure] at h
  | some e =>
    rw [hfailure] at h
    cases e with
    | api _ | watch _ => cases h
    | panic cause => exact absurd rfl ((failure?_eq_some.mp hfailure).2 cause)
    | malformedReference _ _ | missingSource _ | keystore _ | systemCa _ _ =>
      refine ⟨_, by rw [warnings, hfailure]; rfl, rfl, rfl, _, hfailure, rfl, rfl⟩

theorem warnings_eq_nil (h : call.failsOnObject = false) : call.warnings = [] := by
  unfold failsOnObject at h
  cases hfailure : call.failure? with
  | none => rw [warnings, hfailure]; rfl
  | some e =>
    rw [hfailure] at h
    cases e with
    | api _ | watch _ | panic _ => rw [warnings, hfailure]; rfl
    | malformedReference _ _ | missingSource _ | keystore _ | systemCa _ _ => cases h

/-- An error that was warned of is tried again later than one that was not. -/
theorem next?_reconcile (h : call.failure? = some e) : (call.reconcile m).next?
    = some ((if call.failsOnObject then 60 else 10) * Duration.second) := by
  obtain ⟨hresult, hpanic⟩ := failure?_eq_some.mp h
  simp only [Reconciliation.next?, outcome_reconcile, hresult, failsOnObject, h]
  cases e with
  | panic cause => exact absurd rfl (hpanic cause)
  | _ => rfl

theorem metrics_reconcile (call : Call) (m : Metrics) :
    (call.reconcile m).metrics =
      let started := m.reconciled call.controller.name
      match call.result.1 with
      | .ok outcome =>
        if outcome = .updated then started.wrote call.controller.name else started
      | .error (.panic _) => started
      | .error _ => started.failed call.controller.name := by
  unfold reconcile Controller.record Reconciliation.close
  rcases call.result with ⟨e | outcome, cluster⟩
  · cases e <;> rfl
  · rfl

/-- Whether all that is recorded of a run is what there is to record of it. -/
structure Recorded (call : Call) (r : Reconciliation) : Prop where
  outcome : r.outcome = call.result.1
  warned : call.failsOnObject = true → ∃ w, r.warnings = [w] ∧ call.Warns w
  silent : call.failsOnObject = false → r.warnings = []
  requeue : ∀ e, call.failure? = some e →
    r.next? = some ((if r.warnings = [] then 10 else 60) * Duration.second)
  cutOff : ∀ cause, call.result.1 = .error (.panic cause) → r.next? = none

theorem recorded_reconcile (call : Call) (m : Metrics) : call.Recorded (call.reconcile m) where
  outcome := outcome_reconcile call m
  warned h := warnings_reconcile call m ▸ exists_warning_of_failsOnObject h
  silent h := warnings_reconcile call m ▸ warnings_eq_nil h
  requeue e he := by
    rw [next?_reconcile he, warnings_reconcile]
    cases hobject : call.failsOnObject with
    | true =>
      obtain ⟨w, hw, -⟩ := exists_warning_of_failsOnObject hobject
      rw [hw]
      rfl
    | false =>
      rw [warnings_eq_nil hobject]
      rfl
  cutOff cause h := by
    rw [Reconciliation.next?, outcome_reconcile, h]
    rfl

def ofController (name : String) (calls : List Call) : List Call :=
  calls.filter fun call => call.controller.name = name

/-- Whether the counters of a controller count its runs, their updates and their failures. -/
structure Counted (name : String) (calls : List Call) (m : Metrics) : Prop where
  runs : m.reconciliations.getD name 0 = (ofController name calls).length
  updates : m.writes.getD name 0 = ((ofController name calls).map updates).sum
  failures : m.errors.getD name 0 = ((ofController name calls).filterMap failure?).length

theorem counted_empty (name : String) : Counted name [] .empty := ⟨rfl, rfl, rfl⟩

theorem runs_reconcile (call : Call) (m : Metrics) (name : String) :
    (call.reconcile m).metrics.reconciliations.getD name 0
      = m.reconciliations.getD name 0 + if call.controller.name = name then 1 else 0 := by
  rw [← Metrics.getD_bump, metrics_reconcile]
  cases call.result.1 with
  | ok outcome => cases outcome <;> rfl
  | error e => cases e <;> rfl

theorem writes_reconcile (call : Call) (m : Metrics) (name : String) :
    (call.reconcile m).metrics.writes.getD name 0
      = m.writes.getD name 0 + if call.controller.name = name then call.updates else 0 := by
  rw [metrics_reconcile, updates_eq]
  cases call.result.1 with
  | ok outcome =>
    by_cases houtcome : outcome = .updated
    · subst houtcome
      exact Metrics.getD_bump _ _ _
    · simp [houtcome, Metrics.reconciled]
  | error e => cases e <;> simp [Metrics.reconciled, Metrics.failed]

theorem errors_reconcile (call : Call) (m : Metrics) (name : String) :
    (call.reconcile m).metrics.errors.getD name 0 = m.errors.getD name 0
      + if call.controller.name = name then call.failure?.toList.length else 0 := by
  rw [metrics_reconcile, failure?]
  cases call.result.1 with
  | ok outcome => cases outcome <;> simp [Metrics.reconciled, Metrics.wrote]
  | error e =>
    cases e with
    | panic cause => simp [Metrics.reconciled]
    | _ => exact Metrics.getD_bump _ _ _

theorem Counted.concat {calls : List Call} (hm : Counted name calls m) (call : Call) :
    Counted name (calls ++ [call]) (call.reconcile m).metrics := by
  have hnew : ofController name (calls ++ [call])
      = ofController name calls ++ if call.controller.name = name then [call] else [] := by
    simp [ofController, List.filter_append, List.filter_singleton]
  constructor
  · rw [runs_reconcile, hm.runs, hnew, List.length_append]
    split <;> rfl
  · rw [writes_reconcile, hm.updates, hnew, List.map_append, List.sum_append]
    split <;> simp
  · rw [errors_reconcile, hm.failures, hnew, List.filterMap_append, List.length_append]
    split
    · cases hfailure : call.failure? <;> simp [hfailure]
    · rfl

end Call

/-- What a sequence of runs has recorded. -/
structure Books where
  metrics : Metrics
  /-- The warnings, the oldest first. -/
  warnings : List Warning

namespace Books

open Call

def enter (b : Books) (call : Call) : Books :=
  let r := call.reconcile b.metrics
  ⟨r.metrics, b.warnings ++ r.warnings⟩

/-- The books of a sequence of runs, which start empty. -/
def ofCalls (calls : List Call) : Books := calls.foldl enter ⟨.empty, []⟩

theorem ofCalls_concat (calls : List Call) (call : Call) :
    ofCalls (calls ++ [call]) = (ofCalls calls).enter call :=
  List.foldl_concat ..

theorem counted_ofCalls (name : String) (calls : List Call) :
    Counted name calls (ofCalls calls).metrics := by
  induction calls using List.reverseRecOn with
  | nil => exact counted_empty name
  | append_singleton calls call ih =>
    rw [ofCalls_concat]
    exact ih.concat call

/-- There is one warning for each run that has failed on its object, in the order of the runs. -/
theorem forall₂_warnings_ofCalls (calls : List Call) :
    List.Forall₂ Warns (calls.filter failsOnObject) (ofCalls calls).warnings := by
  induction calls using List.reverseRecOn with
  | nil => exact .nil
  | append_singleton calls call ih =>
    have hlast : List.Forall₂ Warns ([call].filter failsOnObject) call.warnings := by
      cases hobject : call.failsOnObject with
      | true =>
        obtain ⟨w, hw, hwarns⟩ := exists_warning_of_failsOnObject hobject
        simpa [hobject, hw] using hwarns
      | false => simp [hobject, warnings_eq_nil hobject]
    rw [List.filter_append, ofCalls_concat, enter, warnings_reconcile]
    exact List.rel_append ih hlast

/-- The counters of each controller count its runs, the updates that they made and their failures.
Of each failure on an object there is one warning, after which the next run is due in a minute.
After any other failure it is due in ten seconds. -/
theorem books_agree :
    (Controller.all.map Controller.name).Nodup ∧
    ((Expiry.controller :: Controller.all.map Controller.name).map fun name =>
      Digest.Fnv1a.hash (Bytes.ofString name)).Nodup ∧
    (∀ c cluster h ref m, (alone c cluster h ref).reconcile m = c.reconcile cluster h m ref) ∧
    (∀ (call : Call) m, call.Recorded (call.reconcile m)) ∧
    ∀ calls, (∀ name, Counted name calls (ofCalls calls).metrics) ∧
      List.Forall₂ Warns (calls.filter failsOnObject) (ofCalls calls).warnings :=
  ⟨by decide, by decide +kernel, reconcile_alone, recorded_reconcile,
    fun calls => ⟨fun name => counted_ofCalls name calls, forall₂_warnings_ofCalls calls⟩⟩

end Books

namespace ThreeRuns

open MissingSpec

def controller : Controller := ⟨_, CaTarget.apiService.injection⟩

def updating : Call := .alone controller cluster CaTarget.NamedSecret.host service.ref

/-- A run that has read an older version than its update meets. -/
def late : Call :=
  ⟨controller, .ok (.write (service.withResourceVersion (some "0"))), cluster, service.ref⟩

def unnamed : Call :=
  ⟨controller, .error (.malformedReference Key.injectCaFromSecret "ca"), cluster, service.ref⟩

def calls : List Call := [updating, late, unnamed]

end ThreeRuns

open ThreeRuns in
/-- Both failures are counted, and the one that can be mended on the service is a warning on it. -/
theorem Books.books_agree_three_runs :
    let books := Books.ofCalls calls
    books.metrics.reconciliations.getD controller.name 0 = 3 ∧
      books.metrics.writes.getD controller.name 0 = 1 ∧
      books.metrics.errors.getD controller.name 0 = 2 ∧
      books.metrics.reconciliations.getD Expiry.controller 0 = 0 ∧
      ∃ w, books.warnings = [w] ∧ w.ref = MissingSpec.service.ref ∧
        w.reason = "InvalidAnnotation" := by
  intro books
  obtain ⟨-, -, -, -, hbooks⟩ := Books.books_agree
  obtain ⟨hcounted, hwarnings⟩ := hbooks calls
  obtain ⟨hruns, hupdates, hfailures⟩ := hcounted controller.name
  have hall : Call.ofController controller.name calls = calls := rfl
  rw [hall] at hruns hupdates hfailures
  refine ⟨hruns, hupdates.trans (by decide +kernel), hfailures.trans (by decide +kernel),
    (hcounted Expiry.controller).runs, ?_⟩
  have hobject : calls.filter Call.failsOnObject = [unnamed] := by
    have hupdating : updating.failsOnObject = false := by decide +kernel
    have hlate : late.failsOnObject = false := by decide +kernel
    have hunnamed : unnamed.failsOnObject = true := rfl
    simp [calls, hupdating, hlate, hunnamed]
  rw [hobject] at hwarnings
  obtain ⟨w, rest, hw, hrest, hbooks⟩ := List.forall₂_cons_left_iff.mp hwarnings
  rw [List.forall₂_nil_left_iff.mp hrest] at hbooks
  obtain ⟨e, he, hreason, -⟩ := hw.error
  cases he
  exact ⟨w, hbooks, hw.ref, hreason⟩

end CertKeeper
