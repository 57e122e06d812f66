import CertKeeper.Sync.Reconcile

/-!
# Policies are read from annotations

Each parameter of a policy is what its own annotation says, or its default where that says nothing
that can be read. A time between checks that is below a second does not count as read, so no
annotation makes the checks of a secret follow each other within a second.
-/

namespace CertKeeper.Expiry

namespace Policy

variable {α : Type} {a b : Annotations} {key : String} {read? : String → Option α}
  {default value value' : α}

/-- Whether a parameter is what `read?` makes of the annotation `key`, or the default where there is
no such annotation, or none that can be read. -/
structure TakenFrom (a : Annotations) (key : String) (read? : String → Option α)
    (default value : α) : Prop where
  read : ∀ raw v, a[key]? = some raw → read? raw = some v → value = v
  fallback : (∀ raw, a[key]? = some raw → read? raw = none) → value = default

def threshold? (raw : String) : Option Int := (Duration.parseSigned raw).toOption

/-- A time between checks has no sign and is at least a second. -/
def frequency? (raw : String) : Option Nat :=
  (Duration.parse raw).toOption.filter fun n => Duration.second ≤ n

theorem takenFrom_bind_getD (a : Annotations) (key : String) (read? : String → Option α)
    (default : α) : TakenFrom a key read? default ((a[key]?.bind read?).getD default) where
  read raw v hraw hv := by rw [hraw, Option.bind_some, hv, Option.getD_some]
  fallback hnone := by
    cases hraw : a[key]? with
    | none => rfl
    | some raw => rw [Option.bind_some, hnone raw hraw, Option.getD_none]

theorem TakenFrom.cases (h : TakenFrom a key read? default value) :
    (∃ raw, a[key]? = some raw ∧ read? raw = some value)
      ∨ (∀ raw, a[key]? = some raw → read? raw = none) ∧ value = default := by
  by_cases hread : ∃ raw v, a[key]? = some raw ∧ read? raw = some v
  · obtain ⟨raw, v, hraw, hv⟩ := hread
    exact .inl ⟨raw, hraw, h.read raw v hraw hv ▸ hv⟩
  · have hnone (raw : String) (hraw : a[key]? = some raw) : read? raw = none :=
      Option.eq_none_iff_forall_ne_some.mpr fun v hv => hread ⟨raw, v, hraw, hv⟩
    exact .inr ⟨hnone, h.fallback hnone⟩

theorem TakenFrom.eq (h : TakenFrom a key read? default value)
    (h' : TakenFrom b key read? default value') (hkey : a[key]? = b[key]?) : value = value' := by
  rcases h.cases with ⟨raw, hraw, hv⟩ | ⟨hnone, rfl⟩
  · exact (h'.read raw value (hkey ▸ hraw) hv).symm
  · exact (h'.fallback fun raw hraw => hnone raw (hkey ▸ hraw)).symm

theorem threshold?_eq_some {raw : String} {v : Int} :
    threshold? raw = some v ↔ Duration.parseSigned raw = .ok v := by
  unfold threshold?
  cases Duration.parseSigned raw <;> simp [Except.toOption]

theorem takenFrom_signedDurationOr (a : Annotations) (key : String) (default : Int) :
    TakenFrom a key threshold? default (a.signedDurationOr key default) := by
  have heq : a.signedDurationOr key default = (a[key]?.bind threshold?).getD default := by
    unfold Annotations.signedDurationOr
    cases a[key]? with
    | none => rfl
    | some raw => simp only [Option.bind_some, threshold?]
  exact heq ▸ takenFrom_bind_getD a key threshold? default

theorem takenFrom_frequencyOr (a : Annotations) (key : String) (default : Nat) :
    TakenFrom a key frequency? default (frequencyOr a key default) := by
  have heq : frequencyOr a key default = (a[key]?.bind frequency?).getD default := by
    unfold frequencyOr Annotations.durationOr minFrequency
    cases a[key]? with
    | none => simp
    | some raw =>
      cases hparse : (Duration.parse raw).toOption with
      | none => simp [frequency?, hparse]
      | some n =>
        by_cases hn : n < Duration.second
        · simp [frequency?, hparse, Option.filter, hn, Nat.not_le.mpr hn]
        · simp [frequency?, hparse, Option.filter, hn, Nat.le_of_not_lt hn]
  exact heq ▸ takenFrom_bind_getD a key frequency? default

/-- Whether each parameter of a policy is taken from an annotation of its own. -/
structure IsOf (p : Policy) (a : Annotations) : Prop where
  threshold : TakenFrom a Key.certSoonToExpireThreshold threshold? (90 * day) p.threshold
  soonFrequency :
    TakenFrom a Key.certSoonToExpireCheckFrequency frequency? hour p.soonFrequency
  normalFrequency :
    TakenFrom a Key.certExpiryCheckFrequency frequency? (7 * day) p.normalFrequency

theorem isOf_ofAnnotations (a : Annotations) : (ofAnnotations a).IsOf a where
  threshold := takenFrom_signedDurationOr a _ _
  soonFrequency := takenFrom_frequencyOr a _ _
  normalFrequency := takenFrom_frequencyOr a _ _

theorem second_le_of_frequency? {raw : String} {n : Nat} (h : frequency? raw = some n) :
    Duration.second ≤ n := by
  obtain ⟨-, hn⟩ := Option.filter_eq_some_iff.mp h
  exact of_decide_eq_true hn

theorem TakenFrom.second_le {default value : Nat} (h : TakenFrom a key frequency? default value)
    (hdefault : Duration.second ≤ default) : Duration.second ≤ value := by
  rcases h.cases with ⟨raw, -, hread⟩ | ⟨-, rfl⟩
  · exact second_le_of_frequency? hread
  · exact hdefault

end Policy

/-- After how many nanoseconds a secret in some state is checked again. -/
def State.after? : State → Option Nat
  | noCheck => none
  | normal after | soonToExpire after _ => some after

theorem second_le_of_stateAt {s : Secret} {now : Instant} {after : Nat}
    (h : (stateAt s now).after? = some after) : Duration.second ≤ after := by
  have hpolicy := Policy.isOf_ofAnnotations s.annotations
  unfold stateAt at h
  split at h
  · split at h
    · cases h
    · simp only at h
      split at h
      · cases h
        exact hpolicy.soonFrequency.second_le (by decide)
      · cases h
        exact hpolicy.normalFrequency.second_le (by decide)
  · cases h

variable {c : Cluster} {m : Metrics} {r : Reference} {now : Instant}

theorem outcome_reportOn (m : Metrics) (s : Secret) (now : Instant) :
    (reportOn m s now).outcome
      = .ok (((stateAt s now).after?.map Outcome.requeueAfter).getD .skipped) := by
  unfold reportOn
  cases stateAt s now <;> rfl

theorem second_le_of_check {after : Nat}
    (h : (check c m r now).outcome = .ok (.requeueAfter after)) : Duration.second ≤ after := by
  unfold check at h
  split at h
  · cases h
  · cases h
  · rename_i s _
    split at h
    · rw [outcome_reportOn] at h
      cases hafter : (stateAt s now).after? with
      | none => simp [hafter] at h
      | some n =>
        have hn : n = after := by simpa [hafter] using h
        exact hn ▸ second_le_of_stateAt hafter
    · cases h

theorem outcome_reconcile (c : Cluster) (h : Host) (m : Metrics) (ref : ObjectRef) :
    (reconcile c h m ref).outcome = (check c (m.reconciled controller) ⟨ref.ns.getD "", ref.name⟩
      ⟨h.now * 1000000⟩).outcome := by
  rw [reconcile, Reconciliation.outcome_close]

theorem second_le_of_next? {h : Host} {ref : ObjectRef} {after : Nat}
    (hnext : (reconcile c h m ref).next? = some after) : Duration.second ≤ after := by
  unfold Reconciliation.next? at hnext
  split at hnext
  · rename_i outcome houtcome
    cases outcome <;> try cases hnext
    exact second_le_of_check (outcome_reconcile c h m ref ▸ houtcome)
  · rename_i e _
    obtain ⟨seconds, hseconds, rfl⟩ := Option.map_eq_some_iff.mp hnext
    have hrequeue : 1 ≤ seconds := by
      unfold SyncError.requeueSeconds? at hseconds
      split at hseconds
      · cases hseconds
      · cases hseconds
        split <;> decide
    exact Nat.le_mul_of_pos_left _ hrequeue

/-- Each parameter is set by an annotation of its own, and none of them makes a check spin. -/
theorem overrides_independent :
    (∀ a : Annotations, (Policy.ofAnnotations a).IsOf a) ∧
    (∀ a b : Annotations,
      (a[Key.certSoonToExpireThreshold]? = b[Key.certSoonToExpireThreshold]? →
        (Policy.ofAnnotations a).threshold = (Policy.ofAnnotations b).threshold) ∧
      (a[Key.certSoonToExpireCheckFrequency]? = b[Key.certSoonToExpireCheckFrequency]? →
        (Policy.ofAnnotations a).soonFrequency = (Policy.ofAnnotations b).soonFrequency) ∧
      (a[Key.certExpiryCheckFrequency]? = b[Key.certExpiryCheckFrequency]? →
        (Policy.ofAnnotations a).normalFrequency = (Policy.ofAnnotations b).normalFrequency)) ∧
    (∀ c m r now after, (check c m r now).outcome = .ok (.requeueAfter after) →
      Duration.second ≤ after) ∧
    ∀ c h m ref after, (reconcile c h m ref).next? = some after → Duration.second ≤ after := by
  refine ⟨Policy.isOf_ofAnnotations, fun a b => ?_, fun _ _ _ _ _ => second_le_of_check,
    fun _ _ _ _ _ => second_le_of_next?⟩
  have ha := Policy.isOf_ofAnnotations a
  have hb := Policy.isOf_ofAnnotations b
  exact ⟨ha.threshold.eq hb.threshold, ha.soonFrequency.eq hb.soonFrequency,
    ha.normalFrequency.eq hb.normalFrequency⟩

end CertKeeper.Expiry
