import CertKeeper.Proofs.Expiry.GaugeMirror
import CertKeeper.Proofs.Expiry.Threshold
import CertKeeper.Proofs.Object.Content
import CertKeeper.Proofs.X509.Time
import CertKeeper.Store.Session

/-!
# Decisions on expiry are exact

A secret that has opted in is expiring exactly if its first expiry comes before the threshold,
counted from now on in whole nanoseconds. No certificate and no threshold leads out of the times
that can be named, so nothing is decided by an overflow. A check warns of what is expiring, asks for
another check of what can expire, and writes nothing.
-/

namespace CertKeeper

namespace Expiry

open X509

variable {s : Secret} {t : Int} {now later : Instant} {state : State}

/-- Whether a secret is to be checked. -/
def OptedIn (s : Secret) : Prop := s.annotations[Key.generateCertExpiryAlert]? = some "true"

/-- The certificates of a secret that can be read, whatever its type. -/
def readable (s : Secret) : List Certificate :=
  ((s.content.field Field.tlsCert).map Bundle.certificates).getD []

/-- Whether the first of them expires at `t`. -/
def Expires (s : Secret) (t : Int) : Prop := IsLeast {t | ∃ c ∈ readable s, c.notAfter = t} t

theorem expiry?_eq (s : Secret) : expiry? s = ((readable s).map (·.notAfter)).min? := by
  unfold expiry? readable Secret.Content.value
  cases s.content.field Field.tlsCert with
  | none => rfl
  | some pem =>
    by_cases hpem : pem = []
    · subst hpem
      rfl
    · rw [Option.bind_some, Bytes.nonEmpty?_of_ne_nil hpem, Option.bind_some, earliestExpiry?_eq]
      rfl

theorem expiry?_eq_some_iff : expiry? s = some t ↔ Expires s t := by
  simp only [expiry?_eq, List.min?_eq_some_iff, Expires, IsLeast, mem_lowerBounds, List.mem_map,
    Set.mem_ofPred_eq]

theorem expiry?_eq_none_iff : expiry? s = none ↔ readable s = [] := by
  rw [expiry?_eq, List.min?_eq_none_iff, List.map_eq_nil_iff]

theorem Expires.lt_bound (h : Expires s t) : t < Time.bound := by
  obtain ⟨⟨c, hc, rfl⟩, -⟩ := h
  unfold readable at hc
  cases hpem : s.content.field Field.tlsCert with
  | none => simp [hpem] at hc
  | some pem =>
    rw [hpem, Option.map_some, Option.getD_some, Bundle.certificates] at hc
    obtain ⟨block, -, hread⟩ := List.mem_filterMap.mp hc
    exact Certificate.notAfter_lt hread

/-- Days are made up of whole seconds and hours, but this makes no difference. -/
theorem daysUntil_eq (t : Int) (now : Instant) :
    daysUntil t now = (t * 1000000000 - now.nanos).tdiv Policy.day := by
  have hnat (n : Nat) :
      (((n : Int).tdiv 1000000000).tdiv 3600).tdiv 24 = (n : Int).tdiv Policy.day := by
    have hdiv : n / 1000000000 / 3600 / 24 = n / Policy.day := by
      rw [Nat.div_div_eq_div_mul, Nat.div_div_eq_div_mul]
      rfl
    exact congrArg Int.ofNat hdiv
  unfold daysUntil
  obtain ⟨n, h | h⟩ := Int.eq_nat_or_neg (t * 1000000000 - now.nanos)
  · rw [h, hnat]
  · simp only [h, Int.neg_tdiv, hnat]

def policyOf (s : Secret) : Policy := .ofAnnotations s.annotations

/-- Whether `t` comes before the threshold of a secret, as seen at `now`. -/
def ComesBefore (t : Int) (s : Secret) (now : Instant) : Prop :=
  t * 1000000000 < now.nanos + (policyOf s).threshold

instance (t : Int) (s : Secret) (now : Instant) : Decidable (ComesBefore t s now) :=
  inferInstanceAs (Decidable (_ < _))

/-- A threshold that falls on no point in time would have passed in any case. -/
theorem isSoon_iff (hnow : 0 ≤ now.nanos) (ht : t < Time.bound) :
    isSoon (policyOf s).threshold t now = true ↔ ComesBefore t s now := by
  have hthreshold := Policy.natAbs_threshold_le s.annotations
  simp only [Duration.top, UInt64.size] at hthreshold
  unfold Time.bound at ht
  unfold ComesBefore policyOf
  cases hlimit : now.add? (Policy.ofAnnotations s.annotations).threshold with
  | some limit =>
    rw [isSoon_of_add? hlimit, decide_eq_true_eq, nanos_of_add? hlimit]
  | none =>
    have houtside := outside_of_add?_eq_none hlimit
    simp only [isSoon, hlimit, true_iff]
    unfold startOfTime endOfTime at houtside
    omega

theorem stateAt_of_expires (h : OptedIn s) (ht : Expires s t) (hnow : 0 ≤ now.nanos) :
    stateAt s now = if ComesBefore t s now then
      .soonToExpire (policyOf s).soonFrequency ((t * 1000000000 - now.nanos).tdiv Policy.day)
      else .normal (policyOf s).normalFrequency := by
  have henabled : s.annotations.isEnabled Key.generateCertExpiryAlert = true :=
    Annotations.isEnabled_iff.mpr h
  have hstate : stateAt s now = if isSoon (policyOf s).threshold t now then
      .soonToExpire (policyOf s).soonFrequency (daysUntil t now)
      else .normal (policyOf s).normalFrequency := by
    simp only [stateAt, henabled, if_true, expiry?_eq_some_iff.mpr ht]
    rfl
  rw [hstate, daysUntil_eq]
  exact if_congr (isSoon_iff hnow ht.lt_bound) rfl rfl

theorem stateAt_eq_noCheck (h : ¬ OptedIn s ∨ readable s = []) : stateAt s now = .noCheck := by
  unfold stateAt
  split
  · rename_i henabled
    have hopted : OptedIn s := Annotations.isEnabled_iff.mp henabled
    rw [expiry?_eq_none_iff.mpr (h.resolve_left (not_not_intro hopted))]
  · rfl

theorem exists_expires (h : readable s ≠ []) : ∃ t, Expires s t := by
  obtain ⟨t, ht⟩ := Option.ne_none_iff_exists'.mp (mt expiry?_eq_none_iff.mp h)
  exact ⟨t, expiry?_eq_some_iff.mp ht⟩

/-- Whether `state` is what is to be said of a secret at `now`. -/
structure Exact (s : Secret) (now : Instant) (state : State) : Prop where
  noCheck : state = .noCheck ↔ ¬ OptedIn s ∨ readable s = []
  soon : ∀ after days, state = .soonToExpire after days ↔
    OptedIn s ∧ ∃ t, Expires s t ∧ ComesBefore t s now ∧ after = (policyOf s).soonFrequency ∧
      days = (t * 1000000000 - now.nanos).tdiv Policy.day
  normal : ∀ after, state = .normal after ↔
    OptedIn s ∧ ∃ t, Expires s t ∧ ¬ ComesBefore t s now ∧ after = (policyOf s).normalFrequency

theorem exact_stateAt (s : Secret) (hnow : 0 ≤ now.nanos) : Exact s now (stateAt s now) := by
  by_cases hnone : ¬ OptedIn s ∨ readable s = []
  · have hno : ¬ (OptedIn s ∧ ∃ t, Expires s t) := by
      rintro ⟨hopted, t, ⟨c, hc, -⟩, -⟩
      rw [hnone.resolve_left (not_not_intro hopted)] at hc
      cases hc
    rw [stateAt_eq_noCheck hnone]
    exact {
      noCheck := iff_of_true rfl hnone
      soon after days := iff_of_false nofun fun ⟨hopted, t, ht, _⟩ => hno ⟨hopted, t, ht⟩
      normal after := iff_of_false nofun fun ⟨hopted, t, ht, _⟩ => hno ⟨hopted, t, ht⟩ }
  · obtain ⟨hopted, hreadable⟩ := not_or.mp hnone
    have hopted := not_not.mp hopted
    obtain ⟨t, ht⟩ := exists_expires hreadable
    have hunique {u : Int} (hu : Expires s u) : u = t := hu.unique ht
    rw [stateAt_of_expires hopted ht hnow]
    by_cases hbefore : ComesBefore t s now
    · rw [if_pos hbefore]
      refine {
        noCheck := iff_of_false nofun hnone
        soon after days := ⟨?_, ?_⟩
        normal after := iff_of_false nofun fun ⟨_, u, hu, hnot, _⟩ => hnot (hunique hu ▸ hbefore) }
      · rintro ⟨⟩
        exact ⟨hopted, t, ht, hbefore, rfl, rfl⟩
      · rintro ⟨-, u, hu, -, rfl, rfl⟩
        rw [hunique hu]
    · rw [if_neg hbefore]
      refine {
        noCheck := iff_of_false nofun hnone
        soon after days := iff_of_false nofun fun ⟨_, u, hu, hyes, _⟩ => hbefore (hunique hu ▸ hyes)
        normal after := ⟨?_, ?_⟩ }
      · rintro ⟨⟩
        exact ⟨hopted, t, ht, hbefore, rfl⟩
      · rintro ⟨-, u, hu, -, rfl⟩
        rfl

def State.IsSoon (state : State) : Prop := ∃ after days, state = .soonToExpire after days

theorem ComesBefore.of_le (h : ComesBefore t s now) (houtsider : now.nanos ≤ later.nanos) :
    ComesBefore t s later := by
  unfold ComesBefore at h ⊢
  omega

theorem isSoon_later (hnow : 0 ≤ now.nanos) (houtsider : now.nanos ≤ later.nanos)
    (h : (stateAt s now).IsSoon) : (stateAt s later).IsSoon := by
  obtain ⟨_, _, h⟩ := h
  obtain ⟨hopted, t, ht, hbefore, -, -⟩ := ((exact_stateAt s hnow).soon _ _).mp h
  exact ⟨_, _, ((exact_stateAt s (hnow.trans houtsider)).soon _ _).mpr
    ⟨hopted, t, ht, hbefore.of_le houtsider, rfl, rfl⟩⟩

/-- Whether a report says what there is to say of a secret in some state. -/
structure Report.Tells (report : Report) (s : Secret) (state : State) : Prop where
  warnings : ∀ w, w ∈ report.warnings ↔ ∃ after days, state = .soonToExpire after days ∧
    w = warning s days
  one : report.warnings.length = 1 ↔ state.IsSoon
  none : report.warnings = [] ↔ ¬ state.IsSoon
  requeues : (∃ after, report.outcome = .ok (.requeueAfter after)) ↔ state ≠ .noCheck
  after : ∀ after, report.outcome = .ok (.requeueAfter after) ↔ state.after? = some after

theorem tells_reportOn (m : Metrics) (s : Secret) (now : Instant) :
    (reportOn m s now).Tells s (stateAt s now) := by
  unfold reportOn
  cases stateAt s now <;> constructor <;> simp [State.IsSoon, State.after?]

theorem check_of_get {c : Cluster} {r : Reference} (m : Metrics)
    (h : c.get .secret r = .ok (some s)) (htls : s.content.isTls = true) :
    check c m r now = reportOn m s now := by
  simp only [check, h, htls, if_true]

end Expiry

namespace Session

theorem writes_interfere (σ : Session) (k : Kind) (r : Reference) :
    (σ.interfere k r).cluster.writes = σ.cluster.writes := by
  unfold interfere
  split
  · split <;> rfl
  · rfl

theorem cluster_interfere {σ : Session} {k : Kind} (h : σ.contested ≠ some k) (r : Reference) :
    (σ.interfere k r).cluster = σ.cluster := by
  rw [interfere, if_neg h]

theorem writes_check (σ : Session) (r : Reference) (now : Expiry.Instant) :
    (σ.check r now).2.2.cluster.writes = σ.cluster.writes := by
  simp only [check]
  split
  · exact writes_interfere _ _ _
  · rfl

/-- A change of the store while a secret is checked is the work of the other writer. -/
theorem cluster_check {σ : Session} (h : σ.contested ≠ some .secret) (r : Reference)
    (now : Expiry.Instant) : (σ.check r now).2.2.cluster = σ.cluster := by
  simp only [check]
  split
  · apply cluster_interfere
    exact h
  · rfl

end Session

namespace Expiry

variable {now : Instant}

theorem cluster_reconcile (c : Cluster) (h : Host) (m : Metrics) (ref : ObjectRef) :
    (reconcile c h m ref).cluster = c := by
  rw [reconcile, Reconciliation.cluster_close]

/-- A secret that has opted in is expiring exactly if its first expiry comes before its threshold,
and remains so. A check warns of this once, asks for the next check, and writes nothing. -/
theorem decision_exact (s : Secret) (hnow : 0 ≤ now.nanos) :
    Exact s now (stateAt s now) ∧
    (∀ later : Instant, now.nanos ≤ later.nanos →
      (stateAt s now).IsSoon → (stateAt s later).IsSoon) ∧
    (s.content.isTls = true → ∀ c m r, c.get .secret r = .ok (some s) →
      (check c m r now).Tells s (stateAt s now)) ∧
    (∀ (σ : Session) r, (σ.check r now).2.2.cluster.writes = σ.cluster.writes ∧
      (σ.contested ≠ some .secret → (σ.check r now).2.2.cluster = σ.cluster)) ∧
    ∀ c h m ref, (reconcile c h m ref).cluster = c := by
  refine ⟨exact_stateAt s hnow, fun later houtsider h => isSoon_later hnow houtsider h, ?_, ?_,
    cluster_reconcile⟩
  · intro htls c m r hget
    rw [check_of_get m hget htls]
    exact tells_reportOn m s now
  · intro σ r
    exact ⟨σ.writes_check r now, fun h => Session.cluster_check h r now⟩

namespace OptedLeaf

open Leaf

def secret : Secret where
  metadata := { Metadata.empty with
    annotations := some ((∅ : Annotations).insert Key.generateCertExpiryAlert "true") }
  content := (Leaf.secret "ns" "tls").content

theorem optedIn_secret : OptedIn secret :=
  Std.ExtTreeMap.getElem?_insert_self

theorem expires_secret : Expires secret 1893456000 := by
  have hfield : secret.content.field Field.tlsCert = some pem :=
    Std.ExtTreeMap.getElem?_insert_self
  have hearliest : Bundle.earliestExpiry? pem = some 1893456000 := by
    decide +kernel
  rw [← expiry?_eq_some_iff, expiry?_eq, readable, hfield, Option.map_some, Option.getD_some,
    ← earliestExpiry?_eq, hearliest]

theorem policyOf_secret : policyOf secret = .default := by
  decide +kernel

end OptedLeaf

open OptedLeaf in
/-- Ninety days before it expires a certificate is not expiring yet. A nanosecond later it is, and
then there are only 89 whole days left. -/
theorem decision_exact_at_threshold :
    let limit : Int := 1893456000 * 1000000000 - 90 * Policy.day
    0 ≤ limit ∧ stateAt secret ⟨limit⟩ = .normal (7 * Policy.day) ∧
      stateAt secret ⟨limit + 1⟩ = .soonToExpire Policy.hour 89 := by
  intro limit
  have hlimit : 0 ≤ limit := by decide
  refine ⟨hlimit, ((decision_exact secret hlimit).1.normal _).mpr ?_,
    ((decision_exact secret (Int.le_add_one hlimit)).1.soon _ _).mpr ?_⟩
  · refine ⟨optedIn_secret, 1893456000, expires_secret, ?_, ?_⟩
    · rw [ComesBefore, policyOf_secret]
      decide
    · rw [policyOf_secret]
      rfl
  · refine ⟨optedIn_secret, 1893456000, expires_secret, ?_, ?_, ?_⟩
    · rw [ComesBefore, policyOf_secret]
      decide
    · rw [policyOf_secret]
      rfl
    · decide

end Expiry
end CertKeeper
