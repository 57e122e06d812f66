import CertKeeper.Proofs.Sync.CertificateInfo
import CertKeeper.Proofs.Sync.Convergence
import CertKeeper.Proofs.Sync.SaltsAndTimes

/-!
# The controllers of one secret

Three controllers work on one secret: a bundle is injected into it, stores are made from it, and its
certificates are described. The last two do not look at what the other one writes, so that they may
run in either order. Both look out for a bundle that was injected, and make what they make from it.
-/

namespace CertKeeper

open KeyStore Watch

namespace JavaKeystores

variable {s s' : Secret}

theorem sameBut_write (f : Files) (s : Secret) (version : Option String) :
    s.SameBut [Field.keystore, Field.truststore] ((write f s).withResourceVersion version) :=
  ⟨⟨version, rfl⟩, s.content.sameBut_set_set (by decide) f.keystore f.truststore⟩

theorem seesAlike (hs : s.SameBut [Field.certInfo, Field.caInfo] s') :
    kind.SeesAlike derivation s s' where
  applies := hs.isTls
  desired h := by
    show desired h s' = desired h s
    have hcertificate : s'.content.value Field.tlsCert = s.content.value Field.tlsCert :=
      hs.value (by decide)
    have hkey : s'.content.value Field.tlsKey = s.content.value Field.tlsKey :=
      hs.value (by decide)
    have hca : s'.content.value Field.caCert = s.content.value Field.caCert := hs.value (by decide)
    simp only [desired, files, keystore, truststore, hs.creationTime, hs.annotations, hcertificate,
      hkey, hca]
  current := congrArg₂ Files.mk (hs.value (by decide)) (hs.value (by decide))
  unchanged := by
    funext f f'
    show unchanged s' f f' = unchanged s f f'
    rw [unchanged, unchanged, hs.annotations]

end JavaKeystores

namespace CertificateInfo

variable {s s' : Secret}

theorem seesAlike (hs : s.SameBut [Field.keystore, Field.truststore] s') :
    kind.SeesAlike derivation s s' where
  applies := hs.isTls
  desired _ := congrArg (Except.mapError SyncError.panic)
    (desired_congr hs.annotations (hs.value (by decide)) (hs.value (by decide)))
  current := congrArg₂ Info.mk (hs.value (by decide)) (hs.value (by decide))
  unchanged := rfl

theorem sourceless : kind.Sourceless derivation := ⟨revisedBy, fun _ => rfl⟩

theorem sync_host (c : Cluster) (h h' : Host) (r : Reference) :
    kind.sync c h' r = kind.sync c h r := by
  have hplan (s : Secret) : kind.planFor c h' s = kind.planFor c h s :=
    SyncKind.planFor_congr rfl fun _ _ hsources _ hsource => by
      cases hsources
      cases hsource
  simp only [SyncKind.sync, SyncKind.plan, hplan]

end CertificateInfo

/-- Neither controller looks at what the other one writes, and they write under different names. -/
theorem JavaKeystores.apart_certificateInfo :
    SyncKind.Apart kind derivation CertificateInfo.kind CertificateInfo.derivation where
  left i s version := seesAlike (CertificateInfo.sameBut_write i s version)
  right f s version := CertificateInfo.seesAlike (sameBut_write f s version)
  write f i s version version' := by
    have h₁ : Field.caInfo ≠ Field.keystore := by decide
    have h₂ : Field.certInfo ≠ Field.keystore := by decide
    have h₃ : Field.caInfo ≠ Field.truststore := by decide
    have h₄ : Field.certInfo ≠ Field.truststore := by decide
    have hcontent :
        (((s.content.set Field.certInfo i.certificate).set Field.caInfo i.ca).set Field.keystore
            f.keystore).set Field.truststore f.truststore
          = (((s.content.set Field.keystore f.keystore).set Field.truststore
              f.truststore).set Field.certInfo i.certificate).set Field.caInfo i.ca := by
      rw [Secret.Content.set_comm _ _ _ h₁, Secret.Content.set_comm _ _ _ h₂,
        Secret.Content.set_comm _ _ _ h₃, Secret.Content.set_comm _ _ _ h₄]
    exact congrArg (Object.mk { s.metadata with resourceVersion := version' }) hcontent

/-- The controllers that make something of the CA of a secret. -/
inductive CaUser where
  | stores
  | descriptions
  deriving DecidableEq

namespace CaUser

def sync : CaUser → SyncKind .secret
  | stores => JavaKeystores.kind
  | descriptions => CertificateInfo.kind

def optIn : CaUser → String
  | stores => Key.generateJavaKeystores
  | descriptions => Key.generateCertInfo

def managed : CaUser → List String
  | stores => [Field.keystore, Field.truststore]
  | descriptions => [Field.certInfo, Field.caInfo]

def file : CaUser → String
  | stores => Field.truststore
  | descriptions => Field.caInfo

/-- Whether a secret holds what is to be made of its CA. -/
def Derived : CaUser → Secret → Prop
  | stores, s => ∃ password, s.annotations.Sets Key.javaKeystorePassword "changeme" password ∧
      KeptTruststore (s.content.value Field.truststore) password
        (s.annotations[Key.generateJavaKeystores]? = some "true") (s.content.value Field.caCert)
  | descriptions, s => CertificateInfo.Described s Field.caCert Field.caInfo

variable {w w' : CaUser} {c c' : Cluster} {h : Host} {r : Reference} {outcome : Outcome}
  {s s' : Secret}

theorem notMem_managed (hw : w' ≠ w) : w'.file ∉ w.managed := by
  cases w <;> cases w' <;> first | exact absurd rfl hw | decide

theorem caCert_notMem_managed (w : CaUser) : Field.caCert ∉ w.managed := by
  cases w <;> decide

theorem Derived.congr (hs : w.Derived s) (ha : s'.annotations = s.annotations)
    (hca : s'.content.field Field.caCert = s.content.field Field.caCert)
    (hfile : s'.content.field w.file = s.content.field w.file) : w.Derived s' := by
  cases w with
  | stores =>
    have hfile : s'.content.field Field.truststore = s.content.field Field.truststore := hfile
    simp only [Derived, Secret.Content.value, ha, hca, hfile] at hs ⊢
    exact hs
  | descriptions => exact CertificateInfo.Described.congr hs ha hca hfile

theorem Derived.value_eq_none (hs : w.Derived s) (hca : s.content.field Field.caCert = none) :
    s.content.value w.file = none := by
  cases w with
  | stores =>
    have hnone : s.content.value Field.caCert = none := by rw [Secret.Content.value, hca]; rfl
    obtain ⟨_, -, hkept⟩ := hs
    have hiff := hkept.isSome_iff
    rw [hnone] at hiff
    show s.content.value Field.truststore = none
    simpa using hiff
  | descriptions =>
    refine Option.eq_none_iff_forall_ne_some.mpr fun text htext => ?_
    obtain ⟨hfield, hne⟩ := Secret.Content.value_eq_some.mp htext
    obtain ⟨-, pem, _, hpem, -⟩ := (hs.field_iff text hne).mp hfield
    cases hca.symm.trans hpem

/-- What becomes of a secret by a run that does not fail. -/
structure Done (w : CaUser) (s s' : Secret) : Prop where
  sameBut : s.SameBut w.managed s'
  derived : w.Derived s'
  /-- What is made is not left empty. -/
  file : s'.content.field w.file = s.content.field w.file ∨
    s'.content.field w.file = s'.content.value w.file

theorem exists_done_stores (hs : c.store.find? .secret r = some s)
    (hrun : JavaKeystores.kind.sync c h r = (.ok outcome, c'))
    (hdone : outcome = .updated ∨ outcome = .unchanged) :
    ∃ s', c'.store.find? .secret r = some s' ∧ stores.Done s s' := by
  obtain ⟨target, loaded, f, s', hl, hf, hget, hafter⟩ :=
    JavaKeystores.stable.toRevisedBy.exists_after hrun hdone
  obtain ⟨sources, hsources, hloaded⟩ := hl.readAll
  cases (JavaKeystores.stable.sources target).symm.trans hsources
  cases hloaded
  cases hs.symm.trans hl.find?
  refine ⟨s', (Cluster.get_eq_ok.mp hget).2, ?_⟩
  rcases hafter with ⟨hunchanged, rfl, -⟩ | ⟨version, rfl, -⟩
  · have hright := JavaKeystores.right_of_revise
      (Derivation.revise_eq_none.mpr ⟨f, hf, hunchanged⟩)
    exact ⟨.refl _ _, ⟨_, Annotations.sets_textOr _ _ _, hright.truststore⟩, .inl rfl⟩
  · have hright := JavaKeystores.desired_right hf
    have hsame := JavaKeystores.sameBut_write f s version
    have hvalue := congrArg JavaKeystores.Files.truststore
      (JavaKeystores.current_write hright version)
    refine ⟨hsame, ?_, .inr ?_⟩
    · have htruststore := hright.truststore
      rw [← hvalue, ← hsame.annotations, ← hsame.value (by decide)] at htruststore
      exact ⟨_, Annotations.sets_textOr _ _ _, htruststore⟩
    · exact (Secret.Content.field_set _ _ _).trans hvalue.symm

theorem exists_done_descriptions (hs : c.store.find? .secret r = some s)
    (hrun : CertificateInfo.kind.sync c h r = (.ok outcome, c'))
    (hdone : outcome = .updated ∨ outcome = .unchanged) :
    ∃ s', c'.store.find? .secret r = some s' ∧ descriptions.Done s s' := by
  obtain ⟨s', hs', hinLine, rfl | ⟨i, version, hdesired, rfl⟩⟩ :=
    CertificateInfo.exists_after hs hrun hdone
  · exact ⟨s', hs', .refl _ _, hinLine.ca, .inl rfl⟩
  · have hfield : ((CertificateInfo.write i s).withResourceVersion version).content.field
        Field.caInfo = i.ca := Secret.Content.field_set _ _ _
    refine ⟨_, hs', CertificateInfo.sameBut_write _ s version, hinLine.ca, .inr ?_⟩
    show _ = Secret.Content.value _ Field.caInfo
    obtain ⟨-, hca⟩ := CertificateInfo.desired_eq_ok.mp hdesired
    rw [Secret.Content.value, hfield, CertificateInfo.bind_nonEmpty?_of_wanted hca]
    exact hfield

theorem exists_done (hs : c.store.find? .secret r = some s) (htls : s.content.isTls = true)
    (hrun : w.sync.sync c h r = (.ok outcome, c')) :
    ∃ s', c'.store.find? .secret r = some s' ∧ w.Done s s' := by
  have happlies : w.sync.applies s = true := by cases w <;> exact htls
  obtain ⟨c'', hrun', hdone⟩ := SyncKind.done_of_ok hs happlies (congrArg Prod.fst hrun)
  cases hrun.symm.trans hrun'
  cases w with
  | stores => exact exists_done_stores hs hrun hdone
  | descriptions => exact exists_done_descriptions hs hrun hdone

/-- Runs of these controllers for one secret, none of which fails. -/
inductive Runs (r : Reference) : List CaUser → Cluster → Cluster → Prop where
  | nil (c : Cluster) : Runs r [] c c
  | cons {w : CaUser} {ws : List CaUser} {h : Host} {outcome : Outcome} {c c' c'' : Cluster}
      (hrun : w.sync.sync c h r = (.ok outcome, c')) (hrest : Runs r ws c' c'') :
      Runs r (w :: ws) c c''

/-- What becomes of a secret by such runs. -/
structure Followed (ws : List CaUser) (s s' : Secret) : Prop where
  annotations : s'.annotations = s.annotations
  ca : s'.content.field Field.caCert = s.content.field Field.caCert
  derived : ∀ w ∈ ws, w.Derived s'
  /-- What was right before still is. -/
  stays : ∀ w : CaUser, w.Derived s → w.Derived s'
  file : ∀ w : CaUser, s'.content.field w.file = some [] → s.content.field w.file = some []

theorem Done.followed (hs : w.Done s s') : Followed [w] s s' := by
  have hfield {w' : CaUser} (hw : w' ≠ w) :
      s'.content.field w'.file = s.content.field w'.file :=
    hs.sameBut.field (notMem_managed hw)
  have hca := hs.sameBut.field w.caCert_notMem_managed
  refine ⟨hs.sameBut.annotations, hca, ?_, fun w' hw' => ?_, fun w' hempty => ?_⟩
  · simpa using hs.derived
  · by_cases hw : w' = w
    · exact hw ▸ hs.derived
    · exact hw'.congr hs.sameBut.annotations hca (hfield hw)
  · by_cases hw : w' = w
    · subst hw
      rcases hs.file with hfile | hfile
      · rwa [← hfile]
      · rw [hfile, Secret.Content.value_eq_some] at hempty
        exact absurd rfl hempty.2
    · rwa [← hfield hw]

theorem Runs.exists_followed {ws : List CaUser} (hruns : Runs r ws c c')
    (hs : c.store.find? .secret r = some s) (htls : s.content.isTls = true) :
    ∃ s', c'.store.find? .secret r = some s' ∧ Followed ws s s' := by
  induction hruns generalizing s with
  | nil c =>
    exact ⟨s, hs, rfl, rfl, (fun _ hw => by cases hw), fun _ => id, fun _ => id⟩
  | cons hrun hrest ih =>
    obtain ⟨s₁, hs₁, hdone⟩ := exists_done hs htls hrun
    obtain ⟨s', hs', hfollowed⟩ := ih hs₁ (hdone.sameBut.isTls.trans htls)
    have hfirst := hdone.followed
    refine ⟨s', hs', hfollowed.annotations.trans hfirst.annotations,
      hfollowed.ca.trans hfirst.ca, fun w hw => ?_, fun w hw => ?_, fun w hempty => ?_⟩
    · rcases List.mem_cons.mp hw with rfl | hw
      · exact hfollowed.stays w hdone.derived
      · exact hfollowed.derived w hw
    · exact hfollowed.stays w (hfirst.stays w hw)
    · exact hfirst.file w (hfollowed.file w hempty)

/-- Who opted in looks out for another CA, be it empty or not. -/
theorem accepts_of_ca_ne (htls : s'.content.isTls = true)
    (hoptIn : s.annotations[w.optIn]? = some "true")
    (hca : s.content.field Field.caCert ≠ s'.content.field Field.caCert) :
    w.sync.targetFilter.accepts (.updated s s') = true := by
  have henabled : s.annotations.isEnabled w.optIn = true := Annotations.isEnabled_iff.mpr hoptIn
  by_contra hrejected
  rw [Bool.not_eq_true] at hrejected
  cases w with
  | stores =>
    obtain ⟨-, hsame⟩ := (Mirror.annotatedTlsSecret_eq_false htls).mp hrejected
    exact hca (hsame henabled Field.caCert (by simp))
  | descriptions =>
    obtain ⟨-, hsame⟩ := (Mirror.annotatedTlsSecret_eq_false htls).mp hrejected
    exact hca (hsame henabled Field.caCert (by simp))

end CaUser

namespace CaTarget

variable {c c' : Cluster} {h : Host} {r : Reference}

theorem exists_injected_secret (hrun : secret.injection.sync c h r = (.ok .updated, c')) :
    ∃ old new : Secret, c.store.find? .secret r = some old ∧
      c'.store.find? .secret r = some new ∧ old.SameBut [Field.caCert] new ∧
        old.content.isTls = true ∧ new.content.field Field.caCert = secret.asked c h old ∧
          old.content.field Field.caCert ≠ new.content.field Field.caCert := by
  obtain ⟨old, new, loaded, hi⟩ := exists_injected rfl hrun
  have hvalue : new.content.value Field.caCert = secret.asked c h old := by
    have hbundles : [new.content.value Field.caCert]
        = [(secret.asked c h old).map (held .secret)] := hi.bundles
    rw [held_of_ne (by decide), Option.map_id_fun, id_eq] at hbundles
    exact (List.cons.inj hbundles).1
  have hchanged : old.content.value Field.caCert ≠ secret.asked c h old := by
    intro heq
    refine hi.changed ?_
    show [old.content.value Field.caCert] = [secret.asked c h old]
    rw [heq]
  have hne : old.content.field Field.caCert ≠ new.content.field Field.caCert := by
    intro heq
    rw [← hvalue, Secret.Content.value, Secret.Content.value, heq] at hchanged
    exact hchanged rfl
  obtain ⟨slots, version, -, hnew⟩ := hi.update
  have hfield : new.content.field Field.caCert = (slots.findSome? id).bind Bytes.nonEmpty? := by
    rw [hnew]
    exact Secret.Content.field_set _ _ _
  have hread : new.content.value Field.caCert = new.content.field Field.caCert := by
    rw [Secret.Content.value, hfield, Bytes.bind_nonEmpty?_bind]
  refine ⟨old, new, hi.loads.find?, (Cluster.get_eq_ok.mp hi.get).2, ?_, hi.loads.applies,
    hread.symm.trans hvalue, hne⟩
  rw [hnew]
  exact ⟨⟨version, rfl⟩, old.content.sameBut_set _ _⟩

end CaTarget

/-- How the other controllers follow when a bundle was injected into a secret or removed from it,
which took the cluster from `c` to `c₁` and the secret from `old` to `new`. -/
structure CaTarget.InjectionFollowed (c c₁ : Cluster) (h : Host) (r : Reference)
    (old new : Secret) : Prop where
  before : c.store.find? .secret r = some old
  after : c₁.store.find? .secret r = some new
  injected : new.content.field Field.caCert = secret.asked c h old
  noticed : ∀ w : CaUser, old.annotations[w.optIn]? = some "true" →
    w.sync.targetFilter.accepts (.updated old new) = true
  followed : ∀ ws c₂, CaUser.Runs r ws c₁ c₂ → ∃ last : Secret,
    c₂.store.find? .secret r = some last ∧ last.annotations = old.annotations ∧
    last.content.field Field.caCert = new.content.field Field.caCert ∧
    (∀ w ∈ ws, w.Derived last) ∧
    (new.content.field Field.caCert = none → ∀ w ∈ ws,
      last.content.field w.file = none ∨
        last.content.field w.file = some [] ∧ old.content.field w.file = some [])

theorem CaTarget.injection_followed {c c₁ : Cluster} {h : Host} {r : Reference}
    (hrun : secret.injection.sync c h r = (.ok .updated, c₁)) :
    ∃ old new, InjectionFollowed c c₁ h r old new := by
  obtain ⟨old, new, hold, hnew, hsame, htls, hasked, hne⟩ := exists_injected_secret hrun
  have htls' : new.content.isTls = true := hsame.isTls.trans htls
  refine ⟨old, new, hold, hnew, hasked, fun w hoptIn => ?_, fun ws c₂ hruns => ?_⟩
  · exact CaUser.accepts_of_ca_ne htls' hoptIn hne
  · obtain ⟨last, hlast, hfollowed⟩ := hruns.exists_followed hnew htls'
    refine ⟨last, hlast, hfollowed.annotations.trans hsame.annotations, hfollowed.ca,
      hfollowed.derived, fun hremoved w hw => ?_⟩
    have hgone := (hfollowed.derived w hw).value_eq_none (hfollowed.ca.trans hremoved)
    refine (Secret.Content.value_eq_none.mp hgone).imp_right fun hempty => ⟨hempty, ?_⟩
    have hfile : w.file ∉ [Field.caCert] := by cases w <;> decide
    rw [← hsame.field hfile]
    exact hfollowed.file w hempty

/-- The controller of the stores and that of the descriptions may run for a secret in either order,
at whatever times: each ends as it would have ended alone, and what is left behind differs at most
in the salts and the creation times inside of the stores. When a bundle was injected into a secret
or removed from it, each of the two by which the secret has opted in takes notice of it, and after
any of their runs, as long as none fails, the secret holds what is to be made of the new bundle, and
nothing if there is none. -/
theorem secret_controllers_compose (c : Cluster) (r : Reference) :
    (∀ h₁ h₂ h₃ h₄ : Host,
      let stores (c : Cluster) (h : Host) := JavaKeystores.kind.sync c h r
      let descriptions (c : Cluster) (h : Host) := CertificateInfo.kind.sync c h r
      (stores (descriptions c h₃).2 h₂).1 = (stores c h₁).1 ∧
      (descriptions (stores c h₁).2 h₄).1 = (descriptions c h₃).1 ∧
      Cluster.SameButSalts r (descriptions (stores c h₁).2 h₄).2
        (stores (descriptions c h₃).2 h₂).2 ∧
      (h₁ = h₂ → (descriptions (stores c h₁).2 h₄).2 = (stores (descriptions c h₃).2 h₂).2)) ∧
    ∀ h c₁, CaTarget.secret.injection.sync c h r = (.ok .updated, c₁) →
      ∃ old new, CaTarget.InjectionFollowed c c₁ h r old new := by
  refine ⟨fun h₁ h₂ h₃ h₄ => ?_, fun h c₁ hrun => CaTarget.injection_followed hrun⟩
  intro stores descriptions
  have hapart := JavaKeystores.apart_certificateInfo
  have hstores := JavaKeystores.stable.sourceless
  have hdescriptions := CertificateInfo.sourceless
  have hhost (c : Cluster) : descriptions c h₄ = descriptions c h₃ :=
    CertificateInfo.sync_host c h₃ h₄ r
  have hcomm : (stores (descriptions c h₃).2 h₁).2 = (descriptions (stores c h₁).2 h₄).2 := by
    rw [hhost]
    exact hapart.sync_comm hstores hdescriptions c h₁ h₃ r
  -- the hosts of the stores are made the same before the orders are compared
  obtain ⟨houtcome, hsalts⟩ := JavaKeystores.sync_salts (descriptions c h₃).2 h₁ h₂ r
  refine ⟨?_, ?_, ?_, ?_⟩
  · exact houtcome.trans (hapart.fst_sync_after hstores hdescriptions c h₁ h₃ r)
  · rw [hhost]
    exact hapart.symm.fst_sync_after hdescriptions hstores c h₃ h₁ r
  · exact hcomm ▸ hsalts
  · rintro rfl
    exact hcomm.symm

namespace FollowedSecret

open CaTarget.NamedSecret

def place : Reference := ⟨"ns", "tls"⟩

def follower : Secret :=
  ⟨metadata place.name ((((∅ : Annotations).insert Key.injectCaFromSecret "ns/ca").insert
      Key.generateJavaKeystores "true").insert Key.generateCertInfo "true"),
    { type := some Field.tlsSecretType, data := none, extra := ∅ }⟩

def start : Cluster := .ofStore ((Store.empty.seed (source [65])).seed follower)

def inject (c : Cluster) : Except SyncError Outcome × Cluster :=
  CaTarget.secret.injection.sync c host place

def run (w : CaUser) (c : Cluster) : Except SyncError Outcome × Cluster := w.sync.sync c host place

end FollowedSecret

open FollowedSecret in
/-- Both controllers take notice of the bundle and follow. The run for the descriptions would have
ended alike before that for the stores. -/
theorem secret_controllers_compose_followed :
    ∃ old new last c₁ c₂, inject start = (.ok .updated, c₁) ∧
      CaUser.Runs place [.stores, .descriptions] c₁ c₂ ∧
      CaUser.stores.sync.targetFilter.accepts (.updated old new) = true ∧
      CaUser.descriptions.sync.targetFilter.accepts (.updated old new) = true ∧
      c₂.store.find? .secret place = some last ∧ CaUser.stores.Derived last ∧
      CaUser.descriptions.Derived last ∧
      (run .descriptions (run .stores c₁).2).1 = (run .descriptions c₁).1 := by
  have hinjected : (inject start).1.toOption = some .updated := by
    decide +kernel
  have hstored : (run .stores (inject start).2).1.toOption = some .updated := by
    decide +kernel
  have hdescribed : (run .descriptions (run .stores (inject start).2).2).1.toOption
      = some .unchanged := by
    decide +kernel
  have hoptIn : ∀ w : CaUser, ((start.store.find? .secret place).bind fun s =>
      s.annotations[w.optIn]?) = some "true" := by
    intro w
    cases w <;> decide +kernel
  obtain ⟨c₁, hrun⟩ := SyncKind.exists_sync_eq hinjected
  have hinject : inject start = (.ok .updated, c₁) := hrun
  rw [hinject] at hstored hdescribed
  obtain ⟨c₁', hstores⟩ := SyncKind.exists_sync_eq hstored
  have hrun' : run .stores c₁ = (.ok .updated, c₁') := hstores
  rw [hrun'] at hdescribed
  obtain ⟨c₂, hdescriptions⟩ := SyncKind.exists_sync_eq hdescribed
  obtain ⟨-, hfollows⟩ := secret_controllers_compose start place
  obtain ⟨hcomm, -⟩ := secret_controllers_compose c₁ place
  obtain ⟨old, new, hinjection⟩ := hfollows CaTarget.NamedSecret.host c₁ hrun
  have hruns : CaUser.Runs place [.stores, .descriptions] c₁ c₂ :=
    .cons hstores (.cons hdescriptions (.nil c₂))
  obtain ⟨last, hlast, -, -, hderived, -⟩ := hinjection.followed _ c₂ hruns
  have hnoticed (w : CaUser) : w.sync.targetFilter.accepts (.updated old new) = true := by
    refine hinjection.noticed w ?_
    have h := hoptIn w
    rwa [hinjection.before] at h
  obtain ⟨-, hsame, -⟩ := hcomm CaTarget.NamedSecret.host CaTarget.NamedSecret.host
    CaTarget.NamedSecret.host CaTarget.NamedSecret.host
  exact ⟨old, new, last, c₁, c₂, hinject, hruns, hnoticed .stores, hnoticed .descriptions, hlast,
    hderived .stores (by simp), hderived .descriptions (by simp), hsame⟩

end CertKeeper
