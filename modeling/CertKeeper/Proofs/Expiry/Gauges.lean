import CertKeeper.Expiry.Check
import CertKeeper.Proofs.Metrics.Gauge
import Mathlib.Order.Bounds.Basic

/-!
# The gauges of a secret

A secret has gauges if it is a TLS secret with a certificate that can be read. They show when the
last of its certificates was issued and when the first one expires. A check and a change both come
down to one `put` in each of the two gauges, so these always carry the same labels.
-/

namespace CertKeeper

namespace Metrics

def Names (m : Metrics) (labels : GaugeLabels) : Prop :=
  (∃ t, m.issueTime.Shows labels t) ∨ ∃ t, m.expiryTime.Shows labels t

/-- Whether both certificate gauges are in order and carry the same labels. -/
structure Coherent (m : Metrics) : Prop where
  issueTime : m.issueTime.Keyed
  expiryTime : m.expiryTime.Keyed
  labels : ∀ key, m.issueTime.labels? key = m.expiryTime.labels? key

theorem Coherent.empty : Coherent .empty where
  issueTime := .empty
  expiryTime := .empty
  labels _ := rfl

theorem Coherent.shows_iff {m : Metrics} (hm : m.Coherent) (labels : GaugeLabels) :
    (∃ t, m.issueTime.Shows labels t) ↔ ∃ t, m.expiryTime.Shows labels t := by
  rw [hm.issueTime.exists_shows_iff, hm.expiryTime.exists_shows_iff, hm.labels]

theorem Coherent.names_iff {m : Metrics} (hm : m.Coherent) {labels : GaugeLabels} :
    m.Names labels ↔ m.issueTime.labels? labels.key = some labels := by
  rw [Names, ← hm.shows_iff, or_self, hm.issueTime.exists_shows_iff]

/-- Sets the values of some labels in both certificate gauges, or removes them. -/
def put (m : Metrics) (labels : GaugeLabels) (issued expires : Option Int) : Metrics :=
  { m with
    issueTime := m.issueTime.put labels issued
    expiryTime := m.expiryTime.put labels expires }

theorem Coherent.put {m : Metrics} (hm : m.Coherent) (labels : GaugeLabels)
    {issued expires : Option Int} (h : issued.isSome = expires.isSome) :
    (m.put labels issued expires).Coherent where
  issueTime := hm.issueTime.put labels issued
  expiryTime := hm.expiryTime.put labels expires
  labels key := by
    simp only [Metrics.put, Gauge.labels?_put, hm.labels]
    cases issued <;> cases expires <;> first | rfl | cases h

theorem Coherent.names_of_put {m : Metrics} (hm : m.Coherent) {labels l : GaugeLabels}
    {issued expires : Option Int} (h : issued.isSome = expires.isSome)
    (hl : (m.put labels issued expires).Names l) :
    if l = labels then issued.isSome else m.Names l := by
  rw [(hm.put labels h).names_iff, Metrics.put, Gauge.labels?_put] at hl
  rw [hm.names_iff]
  split at hl
  · obtain ⟨value, rfl, hshown⟩ := Option.map_eq_some_iff.mp hl
    split
    · rfl
    · rename_i hne
      cases hfound : m.issueTime.labels? l.key with
      | none =>
        rw [hfound] at hshown
        exact absurd hshown.symm hne
      | some found =>
        rw [hfound] at hshown
        exact congrArg some hshown
  · rename_i hkey
    have hne : l ≠ labels := fun h => hkey (congrArg GaugeLabels.key h.symm)
    rwa [if_neg hne]

theorem Coherent.names_put {m : Metrics} (hm : m.Coherent) {labels : GaugeLabels}
    {issued expires : Option Int} (h : issued.isSome = expires.isSome) (hissued : issued.isSome)
    (hnone : m.issueTime.labels? labels.key = none) :
    (m.put labels issued expires).Names labels := by
  rw [(hm.put labels h).names_iff, Metrics.put, Gauge.labels?_put, if_pos rfl, hnone]
  obtain ⟨t, rfl⟩ := Option.isSome_iff_exists.mp hissued
  rfl

end Metrics

namespace Expiry

open Watch X509

variable {m : Metrics} {s : Secret} {t : Int}

/-- The certificates of a TLS secret that can be read. -/
def certificates (s : Secret) : List Certificate :=
  if s.content.isTls then ((s.content.field Field.tlsCert).map Bundle.certificates).getD [] else []

/-- Whether the last of the certificates of a secret was issued at `t`. -/
def LastIssued (s : Secret) (t : Int) : Prop :=
  IsGreatest {t | ∃ c ∈ certificates s, c.notBefore = t} t

/-- Whether the first of the certificates of a secret expires at `t`. -/
def FirstExpires (s : Secret) (t : Int) : Prop :=
  IsLeast {t | ∃ c ∈ certificates s, c.notAfter = t} t

def issued? (s : Secret) : Option Int := ((certificates s).map (·.notBefore)).max?

def expires? (s : Secret) : Option Int := ((certificates s).map (·.notAfter)).min?

theorem issued?_eq_some_iff : issued? s = some t ↔ LastIssued s t := by
  simp only [issued?, List.max?_eq_some_iff, LastIssued, IsGreatest, mem_upperBounds, List.mem_map,
    Set.mem_ofPred_eq]

theorem expires?_eq_some_iff : expires? s = some t ↔ FirstExpires s t := by
  simp only [expires?, List.min?_eq_some_iff, FirstExpires, IsLeast, mem_lowerBounds, List.mem_map,
    Set.mem_ofPred_eq]

theorem isSome_issued?_iff : (issued? s).isSome ↔ certificates s ≠ [] := by
  simp [issued?, List.isSome_max?_iff]

theorem isSome_expires?_iff : (expires? s).isSome ↔ certificates s ≠ [] := by
  simp [expires?, List.isSome_min?_iff]

theorem latestIssue?_eq (pem : Bytes) :
    Bundle.latestIssue? pem = ((Bundle.certificates pem).map (·.notBefore)).max? := by
  rw [Bundle.latestIssue?, Bundle.validities, List.map_map]
  rfl

theorem earliestExpiry?_eq (pem : Bytes) :
    Bundle.earliestExpiry? pem = ((Bundle.certificates pem).map (·.notAfter)).min? := by
  rw [Bundle.earliestExpiry?, Bundle.validities, List.map_map]
  rfl

theorem window?_eq (s : Secret) :
    window? s = (issued? s).bind fun issued => (expires? s).map (issued, ·) := by
  unfold window? issued? expires? certificates
  split
  · rw [Secret.Content.value]
    cases hfield : s.content.field Field.tlsCert with
    | none => rfl
    | some pem =>
      by_cases hpem : pem = []
      · subst hpem
        rfl
      · have hvalue : Bytes.nonEmpty? pem = some pem := by simp [Bytes.nonEmpty?, hpem]
        simp only [Option.bind_some, hvalue, latestIssue?_eq, earliestExpiry?_eq,
          Option.getD_some, bind, Option.map_eq_bind, Function.comp_def]
  · rfl

theorem isSome_issued?_eq (s : Secret) : (issued? s).isSome = (expires? s).isSome :=
  Bool.eq_iff_iff.mpr (isSome_issued?_iff.trans isSome_expires?_iff.symm)

theorem observe_eq (m : Metrics) (s : Secret) :
    observe m s = m.put (labels s) (issued? s) (expires? s) := by
  have hsome := isSome_issued?_eq s
  rw [observe, window?_eq]
  cases hissued : issued? s <;> cases hexpires : expires? s
  · rfl
  · simp [hissued, hexpires] at hsome
  · simp [hissued, hexpires] at hsome
  · rfl

/-- What a change tells of its secret. Of one that was deleted there is nothing to tell. -/
def told (value : Secret → Option Int) : ObjectEvent Secret → Option Int
  | .deleted _ => none
  | e => value e.object

theorem isSome_told_eq (e : ObjectEvent Secret) :
    (told issued? e).isSome = (told expires? e).isSome := by
  cases e with
  | created s | updated _ s => exact isSome_issued?_eq s
  | deleted s => rfl

theorem track_eq (m : Metrics) (e : ObjectEvent Secret) :
    track m e = m.put (labels e.object) (told issued? e) (told expires? e) := by
  cases e with
  | created s | updated _ s => exact observe_eq m s
  | deleted s => rfl

theorem coherent_foldl_track (hm : m.Coherent) (changes : List (ObjectEvent Secret)) :
    (changes.foldl track m).Coherent := by
  induction changes generalizing m with
  | nil => exact hm
  | cons e changes ih =>
    rw [List.foldl_cons, track_eq]
    exact ih (hm.put _ (isSome_told_eq e))

end Expiry
end CertKeeper
