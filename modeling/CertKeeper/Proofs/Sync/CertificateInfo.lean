import CertKeeper.Proofs.Bundle.Version
import CertKeeper.Proofs.Object.Content
import CertKeeper.Proofs.Sync.Frame
import CertKeeper.Proofs.Sync.Independence
import CertKeeper.Sync.CertificateInfo

/-!
# Descriptions are those of the certificates

A secret that has opted in holds descriptions of its certificate and of its CA. What is written is
read back, so that the descriptions are in line with the secret after every run that is done. A run
is cut off where one of the certificates cannot be described.
-/

namespace CertKeeper.CertificateInfo

/-- Whether the field `info` of a secret holds the description of what stands under `key`: exactly
if the secret has opted in and there is something to describe. Empty content counts as absent. -/
structure Described (s : Secret) (key info : String) : Prop where
  exists_text : s.annotations[Key.generateCertInfo]? = some "true" →
    ∀ pem, s.content.field key = some pem → ∃ text, Bundle.describe pem = .ok text
  field_iff : ∀ b, b ≠ [] → (s.content.field info = some b ↔
    s.annotations[Key.generateCertInfo]? = some "true" ∧ ∃ pem text,
      s.content.field key = some pem ∧ Bundle.describe pem = .ok text ∧ Bytes.ofString text = b)

structure InLine (s : Secret) : Prop where
  certificate : Described s Field.tlsCert Field.certInfo
  ca : Described s Field.caCert Field.caInfo

/-- Whether the certificates of a secret can be described, if it has opted in. -/
def Describable (s : Secret) : Prop :=
  s.annotations[Key.generateCertInfo]? = some "true" →
    ∀ key ∈ [Field.tlsCert, Field.caCert], ∀ pem, s.content.field key = some pem →
      ∀ c ∈ Bundle.certificates pem, c.version ≠ 0xFFFFFFFF

variable {s s' : Secret} {h : Host} {loaded : Sources} {key info : String}

def wanted (s : Secret) (key : String) : Except Panic (Option Bytes) :=
  if s.annotations.isEnabled Key.generateCertInfo then describe s key else .ok none

theorem desired_eq_ok {i : Info} : desired s = .ok i ↔
    wanted s Field.tlsCert = .ok i.certificate ∧ wanted s Field.caCert = .ok i.ca := by
  rcases i with ⟨certificate, ca⟩
  unfold desired wanted
  split
  · simp only [bind_eq_ok, Except.ok.injEq, Info.mk.injEq]
    constructor
    · rintro ⟨_, hcertificate, _, hca, rfl, rfl⟩
      exact ⟨hcertificate, hca⟩
    · rintro ⟨hcertificate, hca⟩
      exact ⟨_, hcertificate, _, hca, rfl, rfl⟩
  · simp only [Except.ok.injEq, Info.mk.injEq]

/-- There is nothing to describe in an empty bundle. -/
theorem describe_of_field {pem : Bytes} (hpem : s.content.field key = some pem) : describe s key
    = (Bundle.describe pem).map fun text => Bytes.nonEmpty? (Bytes.ofString text) := by
  rw [describe, Secret.Content.value, hpem]
  cases pem <;> rfl

theorem describe_eq_ok {found : Option Bytes} : describe s key = .ok found ↔
    s.content.field key = none ∧ found = none ∨ ∃ pem text, s.content.field key = some pem ∧
      Bundle.describe pem = .ok text ∧ Bytes.nonEmpty? (Bytes.ofString text) = found := by
  cases hfield : s.content.field key with
  | none => simp [describe, Secret.Content.value, hfield, eq_comm]
  | some pem => simp [describe_of_field hfield, map_eq_ok]

theorem wanted_eq_ok_some {b : Bytes} : wanted s key = .ok (some b) ↔
    b ≠ [] ∧ s.annotations[Key.generateCertInfo]? = some "true" ∧ ∃ pem text,
      s.content.field key = some pem ∧ Bundle.describe pem = .ok text ∧
        Bytes.ofString text = b := by
  rw [← Annotations.isEnabled_iff]
  unfold wanted
  split
  · rename_i henabled
    simp only [describe_eq_ok, reduceCtorEq, and_false, false_or, Bytes.nonEmpty?_eq_some,
      henabled, true_and]
    constructor
    · rintro ⟨pem, text, hpem, htext, hne, rfl⟩
      exact ⟨hne, pem, text, hpem, htext, rfl⟩
    · rintro ⟨hne, pem, text, hpem, htext, rfl⟩
      exact ⟨pem, text, hpem, htext, hne, rfl⟩
  · simp [*]

theorem exists_wanted_iff : (∃ found, wanted s key = .ok found) ↔
    (s.annotations[Key.generateCertInfo]? = some "true" →
      ∀ pem, s.content.field key = some pem → ∃ text, Bundle.describe pem = .ok text) := by
  rw [← Annotations.isEnabled_iff]
  unfold wanted
  split
  · rename_i henabled
    simp only [describe_eq_ok, henabled, true_implies]
    cases s.content.field key <;> simp
  · simp [*]

theorem described_iff : Described s key info ↔ wanted s key = .ok (s.content.value info) := by
  constructor
  · rintro ⟨htext, hfield⟩
    obtain ⟨found, hfound⟩ := exists_wanted_iff.mpr htext
    rw [hfound, Except.ok.injEq]
    refine Option.ext fun b => ?_
    have hwanted : found = some b ↔ wanted s key = .ok (some b) := by
      rw [hfound, Except.ok.injEq]
    rw [hwanted, wanted_eq_ok_some, Secret.Content.value_eq_some, and_comm (b := b ≠ [])]
    exact and_congr_right fun hne => (hfield b hne).symm
  · intro hwanted
    refine ⟨exists_wanted_iff.mp ⟨_, hwanted⟩, fun b hne => ?_⟩
    have hvalue : s.content.value info = some b ↔ wanted s key = .ok (some b) := by
      rw [hwanted, Except.ok.injEq]
    rwa [Secret.Content.value_eq_some, wanted_eq_ok_some, and_iff_left hne,
      and_iff_right hne] at hvalue

theorem Described.congr (hs : Described s key info) (ha : s'.annotations = s.annotations)
    (hkey : s'.content.field key = s.content.field key)
    (hinfo : s'.content.field info = s.content.field info) : Described s' key info where
  exists_text := by
    rw [ha, hkey]
    exact hs.exists_text
  field_iff := by
    rw [ha, hkey, hinfo]
    exact hs.field_iff

theorem inLine_iff : InLine s ↔ desired s = .ok (current s) := by
  rw [desired_eq_ok, current, ← described_iff, ← described_iff]
  exact ⟨fun hs => ⟨hs.certificate, hs.ca⟩, fun hs => ⟨hs.1, hs.2⟩⟩

theorem exists_desired_iff : (∃ i, desired s = .ok i) ↔ Describable s := by
  have hwanted (key : String) : (∃ found, wanted s key = .ok found) ↔
      (s.annotations[Key.generateCertInfo]? = some "true" → ∀ pem,
        s.content.field key = some pem → ∀ c ∈ Bundle.certificates pem, c.version ≠ 0xFFFFFFFF) := by
    simp only [exists_wanted_iff, Bundle.exists_describe_iff]
  simp only [desired_eq_ok, Describable, List.forall_mem_cons]
  constructor
  · rintro ⟨i, hcertificate, hca⟩ henabled
    exact ⟨(hwanted _).mp ⟨_, hcertificate⟩ henabled, (hwanted _).mp ⟨_, hca⟩ henabled,
      fun _ h => by cases h⟩
  · intro hs
    obtain ⟨certificate, hcertificate⟩ := (hwanted Field.tlsCert).mpr fun henabled =>
      (hs henabled).1
    obtain ⟨ca, hca⟩ := (hwanted Field.caCert).mpr fun henabled => (hs henabled).2.1
    exact ⟨⟨certificate, ca⟩, hcertificate, hca⟩

theorem InLine.describable (hs : InLine s) : Describable s :=
  exists_desired_iff.mp ⟨_, inLine_iff.mp hs⟩

theorem revise_eq_none_iff : derivation.revise h loaded s = .ok none ↔ InLine s := by
  rw [Derivation.revise_eq_none, inLine_iff]
  constructor
  · rintro ⟨i, hi, hunchanged⟩
    obtain rfl : current s = i := of_decide_eq_true hunchanged
    exact mapError_eq_ok.mp hi
  · intro hs
    exact ⟨current s, mapError_eq_ok.mpr hs, decide_eq_true rfl⟩

theorem desired_congr (ha : s'.annotations = s.annotations)
    (hcertificate : s'.content.value Field.tlsCert = s.content.value Field.tlsCert)
    (hca : s'.content.value Field.caCert = s.content.value Field.caCert) :
    desired s' = desired s := by
  simp only [desired, describe, ha, hcertificate, hca]

theorem bind_nonEmpty?_of_wanted {found : Option Bytes} (hs : wanted s key = .ok found) :
    found.bind Bytes.nonEmpty? = found := by
  cases found with
  | none => rfl
  | some b => exact Bytes.nonEmpty?_of_ne_nil (wanted_eq_ok_some.mp hs).1

theorem sameBut_write (i : Info) (s : Secret) (version : Option String) :
    s.SameBut [Field.certInfo, Field.caInfo] ((write i s).withResourceVersion version) :=
  ⟨⟨version, rfl⟩, s.content.sameBut_set_set (by decide) i.certificate i.ca⟩

theorem inLine_write {i : Info} (hs : desired s = .ok i) (version : Option String) :
    InLine ((write i s).withResourceVersion version) := by
  have hne : Field.certInfo ≠ Field.caInfo := by decide
  have hsame := sameBut_write i s version
  have hdesired : desired ((write i s).withResourceVersion version) = desired s :=
    desired_congr hsame.annotations (hsame.value (by decide)) (hsame.value (by decide))
  obtain ⟨hcertificate, hca⟩ := desired_eq_ok.mp hs
  rw [inLine_iff, hdesired, hs]
  simp only [current, write, Object.content_withResourceVersion]
  rw [Secret.Content.value_set_of_ne _ _ _ hne, Secret.Content.value_set,
    Secret.Content.value_set, bind_nonEmpty?_of_wanted hcertificate, bind_nonEmpty?_of_wanted hca]

/-- A run that is done leaves descriptions that are in line with the secret. It writes nothing
else. -/
theorem exists_after {c c' : Cluster} {r : Reference} {outcome : Outcome}
    (hs : c.store.find? .secret r = some s) (hrun : kind.sync c h r = (.ok outcome, c'))
    (hdone : outcome = .updated ∨ outcome = .unchanged) :
    ∃ s', c'.store.find? .secret r = some s' ∧ InLine s' ∧ (s' = s ∨ ∃ i version,
      desired s = .ok i ∧ s' = (write i s).withResourceVersion version) := by
  obtain ⟨target, loaded, i, s', hl, hi, hget, hafter⟩ := revisedBy.exists_after hrun hdone
  cases hs.symm.trans hl.find?
  refine ⟨s', (Cluster.get_eq_ok.mp hget).2, ?_⟩
  rcases hafter with ⟨hunchanged, rfl, -⟩ | ⟨version, rfl, -⟩
  · exact ⟨revise_eq_none_iff.mp (Derivation.revise_eq_none.mpr ⟨i, hi, hunchanged⟩), .inl rfl⟩
  · have hdesired : desired s = .ok i := mapError_eq_ok.mp hi
    exact ⟨inLine_write hdesired version, .inr ⟨i, version, hdesired, rfl⟩⟩

end CertKeeper.CertificateInfo
