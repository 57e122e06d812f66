import CertKeeper.Proofs.Keystore.Equivalence
import CertKeeper.Proofs.Object.Content
import CertKeeper.Proofs.Sync.Run
import CertKeeper.Sync.JavaKeystores

/-!
# Keystores and truststores are right and stay as they are

Every encoding of a store differs from the last one in its salts, and perhaps in its time, so a run
compares what the stored file and a new one hold. A file that holds what it should is left alone by
every further run, at whatever time and with whatever salts.
-/

namespace CertKeeper

namespace Annotations

variable {a : Annotations} {key default value value' : String}

/-- Whether a parameter has the value of an annotation, or its default where there is no such
annotation or an empty one. -/
def Sets (a : Annotations) (key default value : String) : Prop :=
  a[key]? = some value ∧ value ≠ "" ∨ (a[key]? = none ∨ a[key]? = some "") ∧ value = default

theorem sets_textOr (a : Annotations) (key default : String) :
    a.Sets key default (a.textOr key default) := by
  unfold Sets textOr
  cases a[key]? with
  | none => exact .inr ⟨.inl rfl, rfl⟩
  | some raw =>
    by_cases hraw : raw = ""
    · exact .inr ⟨.inr (congrArg some hraw), if_pos hraw⟩
    · simp [hraw]

theorem Sets.eq_of_getElem? (hset : a.Sets key default value) (hvalue : a[key]? = some value')
    (hne : value' ≠ "") : value = value' := by
  rcases hset with ⟨hfound, -⟩ | ⟨hnone | hempty, -⟩
  · exact Option.some.inj (hfound.symm.trans hvalue)
  · cases hnone.symm.trans hvalue
  · exact absurd (Option.some.inj (hvalue.symm.trans hempty)) hne

end Annotations

namespace KeyStore

open Keystore

/-- Whether a file is there exactly if it is wanted, and is a keystore with the right entries. -/
structure Kept (file : Option Bytes) (password : String) (wanted : Prop)
    (right : List (String × Entry) → Prop) : Prop where
  isSome_iff : file.isSome ↔ wanted
  decodes : ∀ data, file = some data →
    ∃ ks es, decode data password = .ok ks ∧ right es ∧ ks.Holds es

section

variable {file file' : Option Bytes} {password : String} {wanted enabled : Prop}
  {right : List (String × Entry) → Prop}

theorem Kept.none_of_not (h : ¬ wanted) : Kept none password wanted right :=
  ⟨by simpa using h, by simp⟩

theorem Kept.and_left (hk : Kept file password wanted right) (h : enabled) :
    Kept file password (enabled ∧ wanted) right :=
  ⟨by rw [hk.isSome_iff, and_iff_right h], hk.decodes⟩

theorem decode_nil : decode [] password = .error .truncated := by
  simp [decode, Digest.Sha1.size]

/-- A file that can be decoded is not empty, so that it is read back when it has been written. -/
theorem Kept.bind_nonEmpty? (hk : Kept file password wanted right) :
    file.bind Bytes.nonEmpty? = file := by
  cases file with
  | none => rfl
  | some data =>
    obtain ⟨ks, es, hdecode, -⟩ := hk.decodes data rfl
    refine Bytes.nonEmpty?_of_ne_nil fun hnil => ?_
    rw [hnil, decode_nil] at hdecode
    cases hdecode

theorem Kept.of_upToDate (hk : Kept file password wanted right)
    (hu : upToDate file' file password = true) : Kept file' password wanted right := by
  cases file <;> cases file' <;> simp only [upToDate, Bool.false_eq_true] at hu
  · exact hk
  · rename_i data data'
    obtain ⟨x, y, hx, hy, hxy⟩ := equivalent_iff.mp hu
    refine ⟨hk.isSome_iff, fun data'' hdata => ?_⟩
    cases hdata
    obtain ⟨ks, es, hdecode, hright, hholds⟩ := hk.decodes data rfl
    cases hy.symm.trans hdecode
    have hx' : x.Holds es := by
      rw [Holds, hxy]
      exact hholds
    exact ⟨x, es, hx, hright, hx'⟩

end

section

variable {h : Host} {created : Int64} {password : String}

theorem encodeKeyPair_kept {certificates key data : Bytes}
    (he : encodeKeyPair h created password certificates key = .ok data) :
    ∃ ks block, decode data password = .ok ks ∧ (Pem.blocks key).head? = some block ∧
      ks.Holds (keyPairEntries certificates block) := by
  obtain ⟨ks, hks, hdata⟩ := bind_eq_ok.mp he
  obtain ⟨block, hblock, hholds⟩ := ofKeyPair_holds hks
  exact ⟨ks, block, decode_encode hdata, hblock, hholds⟩

/-- One content is encoded again under any password, at any time and with any salts. -/
theorem Alike.of_encode {a b : KeyStore} (hab : a.contents = b.contents) {salts : Nat → Salt}
    {data : Bytes} (ha : a.encode password salts = .ok data) (password' : String)
    (salts' : Nat → Salt) : ∃ data', b.encode password' salts' = .ok data' ∧
      Alike password password' (some data) (some data') := by
  obtain ⟨data', hb⟩ := exists_encode_of_contents_eq hab ha password' salts'
  exact ⟨data', hb, a, b, decode_encode ha, decode_encode hb, hab⟩

theorem encodeKeyPair_alike {certificates key data : Bytes}
    (he : encodeKeyPair h created password certificates key = .ok data) (h' : Host)
    (created' : Int64) (password' : String) : ∃ data',
      encodeKeyPair h' created' password' certificates key = .ok data' ∧
        Alike password password' (some data) (some data') := by
  obtain ⟨ks, hks, hdata⟩ := bind_eq_ok.mp he
  obtain ⟨ks', hks'⟩ := ofKeyPair_of_created hks created'
  obtain ⟨block, hblock, hholds⟩ := ofKeyPair_holds hks
  obtain ⟨block', hblock', hholds'⟩ := ofKeyPair_holds hks'
  cases hblock.symm.trans hblock'
  obtain ⟨data', hdata', halike⟩ :=
    Alike.of_encode (hholds.contents_eq hholds') hdata password' h'.salts
  exact ⟨data', bind_eq_ok.mpr ⟨ks', hks', hdata'⟩, halike⟩

/-- Whether a file is the truststore of a bundle, wherever that is enabled and there is a bundle. -/
def KeptTruststore (file : Option Bytes) (password : String) (enabled : Prop)
    (bundle : Option Bytes) : Prop :=
  Kept file password (enabled ∧ bundle.isSome) fun es => ∃ b, bundle = some b ∧ es = bundleEntries b

theorem encodeBundle_kept {bundle file : Option Bytes}
    (he : encodeBundle h created password bundle = .ok file) {enabled : Prop} (hen : enabled) :
    KeptTruststore file password enabled bundle := by
  cases bundle with
  | none =>
    cases he
    exact Kept.none_of_not (by simp)
  | some b =>
    obtain ⟨data, hdata, rfl⟩ := map_eq_ok.mp he
    refine Kept.and_left ⟨by simp, fun data' hdata' => ?_⟩ hen
    cases hdata'
    exact ⟨_, _, decode_encode hdata, ⟨b, rfl, rfl⟩, ofBundle_holds b created⟩

theorem encodeBundle_alike {bundle file : Option Bytes}
    (he : encodeBundle h created password bundle = .ok file) (h' : Host) (created' : Int64)
    (password' : String) : ∃ file', encodeBundle h' created' password' bundle = .ok file' ∧
      Alike password password' file file' := by
  cases bundle with
  | none =>
    cases he
    exact ⟨none, rfl, trivial⟩
  | some b =>
    obtain ⟨data, hdata, rfl⟩ := map_eq_ok.mp he
    have hcontents := (ofBundle_holds b created).contents_eq (ofBundle_holds b created')
    obtain ⟨data', hdata', halike⟩ := Alike.of_encode hcontents hdata password' h'.salts
    exact ⟨some data', map_eq_ok.mpr ⟨data', hdata', rfl⟩, halike⟩

end

end KeyStore

namespace JavaKeystores

open Keystore KeyStore

/-- Whether a file is the keystore of a secret: the first block of its key with all blocks of its
certificates, wherever that is enabled and there are both. -/
def KeptKeystore (s : Secret) (file : Option Bytes) (password : String) (enabled : Prop) : Prop :=
  Kept file password
    (enabled ∧ (s.content.value Field.tlsCert).isSome ∧ (s.content.value Field.tlsKey).isSome)
    fun es => ∃ certificates key block, s.content.value Field.tlsCert = some certificates ∧
      s.content.value Field.tlsKey = some key ∧ (Pem.blocks key).head? = some block ∧
        es = keyPairEntries certificates block

/-- Whether files are those of a secret, which are made only if it has opted in. -/
structure Right (s : Secret) (password : String) (f : Files) : Prop where
  keystore : KeptKeystore s f.keystore password
    (s.annotations[Key.generateJavaKeystores]? = some "true")
  truststore : KeptTruststore f.truststore password
    (s.annotations[Key.generateJavaKeystores]? = some "true") (s.content.value Field.caCert)

/-- Whether a version of a secret differs from an earlier one at most in its stores. -/
structure SameButStores (s s' : Secret) : Prop where
  metadata : ∃ version, s'.metadata = (s.withResourceVersion version).metadata
  type : s'.content.type = s.content.type
  field : ∀ key, key ≠ Field.keystore → key ≠ Field.truststore →
    s'.content.field key = s.content.field key

variable {s s' : Secret} {h : Host}

theorem SameButStores.refl (s : Secret) : SameButStores s s :=
  ⟨⟨s.metadata.resourceVersion, rfl⟩, rfl, fun _ _ _ => rfl⟩

theorem SameButStores.annotations (hs : SameButStores s s') : s'.annotations = s.annotations :=
  Object.annotations_eq_of_metadata hs.metadata

theorem SameButStores.value (hs : SameButStores s s') {key : String} (hk : key ≠ Field.keystore)
    (ht : key ≠ Field.truststore) : s'.content.value key = s.content.value key := by
  rw [Secret.Content.value, Secret.Content.value, hs.field key hk ht]

theorem keystore_kept {file : Option Bytes} (hf : keystore h s = .ok file) {enabled : Prop}
    (hen : enabled) : KeptKeystore s file s.annotations.keystorePassword enabled := by
  unfold keystore at hf
  split at hf
  · rename_i certificates key hcert hkey
    obtain ⟨data, hdata, rfl⟩ := map_eq_ok.mp hf
    refine Kept.and_left ⟨by simp [hcert, hkey], fun data' hdata' => ?_⟩ hen
    cases hdata'
    obtain ⟨ks, block, hdecode, hblock, hholds⟩ := encodeKeyPair_kept hdata
    exact ⟨ks, _, hdecode, ⟨certificates, key, block, hcert, hkey, hblock, rfl⟩, hholds⟩
  · rename_i hnot
    cases hf
    refine Kept.none_of_not ?_
    rintro ⟨-, hcert, hkey⟩
    obtain ⟨certificates, hcert⟩ := Option.isSome_iff_exists.mp hcert
    obtain ⟨key, hkey⟩ := Option.isSome_iff_exists.mp hkey
    exact hnot certificates key hcert hkey

/-- Whether two secrets agree on what stores are made from, if they are to have any. The passwords
may differ. -/
structure SameSources (s s' : Secret) : Prop where
  enabled : s'.annotations.isEnabled Key.generateJavaKeystores
    = s.annotations.isEnabled Key.generateJavaKeystores
  value : s.annotations.isEnabled Key.generateJavaKeystores = true →
    ∀ key ∈ [Field.tlsCert, Field.tlsKey, Field.caCert],
      s'.content.value key = s.content.value key

theorem SameButStores.sameSources (hs : SameButStores s s') : SameSources s s' := by
  refine ⟨by rw [hs.annotations], fun _ key hkey => ?_⟩
  simp only [List.mem_cons, List.not_mem_nil, or_false] at hkey
  rcases hkey with rfl | rfl | rfl <;> exact hs.value (by decide) (by decide)

theorem keystore_alike {file : Option Bytes} (hf : keystore h s = .ok file) (h' : Host)
    (hcert : s'.content.value Field.tlsCert = s.content.value Field.tlsCert)
    (hkey : s'.content.value Field.tlsKey = s.content.value Field.tlsKey) :
    ∃ file', keystore h' s' = .ok file' ∧
      Alike s.annotations.keystorePassword s'.annotations.keystorePassword file file' := by
  unfold keystore at hf ⊢
  rw [hcert, hkey]
  split at hf
  · obtain ⟨data, hdata, rfl⟩ := map_eq_ok.mp hf
    obtain ⟨data', hdata', halike⟩ := encodeKeyPair_alike hdata h' (h'.creationTime s')
      s'.annotations.keystorePassword
    exact ⟨some data', map_eq_ok.mpr ⟨data', hdata', rfl⟩, halike⟩
  · cases hf
    exact ⟨none, rfl, trivial⟩

theorem desired_right {f : Files} (hf : desired h s = .ok f) :
    Right s s.annotations.keystorePassword f := by
  unfold desired at hf
  split at hf
  · rename_i henabled
    have henabled := Annotations.isEnabled_iff.mp henabled
    obtain ⟨file, hfile, hf⟩ := bind_eq_ok.mp (mapError_eq_ok.mp hf)
    obtain ⟨bundle, hbundle, hf⟩ := bind_eq_ok.mp hf
    cases hf
    exact ⟨keystore_kept hfile henabled, encodeBundle_kept hbundle henabled⟩
  · rename_i hdisabled
    have hdisabled := fun hen => hdisabled (Annotations.isEnabled_iff.mpr hen)
    cases hf
    exact ⟨Kept.none_of_not fun hw => hdisabled hw.1, Kept.none_of_not fun hw => hdisabled hw.1⟩

structure Files.Alike (s s' : Secret) (f f' : Files) : Prop where
  keystore : KeyStore.Alike s.annotations.keystorePassword s'.annotations.keystorePassword
    f.keystore f'.keystore
  truststore : KeyStore.Alike s.annotations.keystorePassword s'.annotations.keystorePassword
    f.truststore f'.truststore

theorem Files.alike_self_iff {f f' : Files} : f.Alike s s f' ↔ unchanged s f f' = true := by
  simp only [unchanged, Bool.and_eq_true, ← KeyStore.alike_self_iff]
  exact ⟨fun h => ⟨h.keystore, h.truststore⟩, fun h => ⟨h.1, h.2⟩⟩

theorem desired_alike {f : Files} (hf : desired h s = .ok f) (h' : Host) (hs : SameSources s s') :
    ∃ f', desired h' s' = .ok f' ∧ f.Alike s s' f' := by
  unfold desired at hf ⊢
  rw [hs.enabled]
  split at hf
  · rename_i henabled
    obtain ⟨file, hfile, hf⟩ := bind_eq_ok.mp (mapError_eq_ok.mp hf)
    obtain ⟨bundle, hbundle, hf⟩ := bind_eq_ok.mp hf
    cases hf
    have hvalue := hs.value henabled
    obtain ⟨file', hfile', hkeystore⟩ := keystore_alike hfile h' (hvalue _ (by simp))
      (hvalue _ (by simp))
    obtain ⟨bundle', hbundle', htruststore⟩ := encodeBundle_alike hbundle h' (h'.creationTime s')
      s'.annotations.keystorePassword
    rw [← hvalue _ (by simp)] at hbundle'
    have hfiles : files h' s' = .ok ⟨file', bundle'⟩ :=
      bind_eq_ok.mpr ⟨file', hfile', bind_eq_ok.mpr ⟨bundle', hbundle', rfl⟩⟩
    refine ⟨⟨file', bundle'⟩, ?_, hkeystore, htruststore⟩
    rw [if_pos henabled, hfiles]
    rfl
  · rename_i hdisabled
    cases hf
    exact ⟨Files.none, if_neg hdisabled, trivial, trivial⟩

theorem desired_again {f : Files} (hf : desired h s = .ok f) (h' : Host)
    (hs : SameButStores s s') : ∃ f', desired h' s' = .ok f' ∧ unchanged s' f f' = true := by
  obtain ⟨f', hf', hkeystore, htruststore⟩ := desired_alike hf h' hs.sameSources
  rw [← hs.annotations] at hkeystore htruststore
  exact ⟨f', hf', Files.alike_self_iff.mp ⟨hkeystore, htruststore⟩⟩

theorem right_of_revise (hr : derivation.revise h [] s = .ok none) :
    Right s s.annotations.keystorePassword (current s) := by
  obtain ⟨f, hf, hu⟩ := Derivation.revise_eq_none.mp hr
  have hu : unchanged s (current s) f = true := hu
  obtain ⟨hkeystore, htruststore⟩ := desired_right hf
  simp only [unchanged, Bool.and_eq_true] at hu
  exact ⟨hkeystore.of_upToDate hu.1, htruststore.of_upToDate hu.2⟩

theorem unchanged_trans {f₁ f₂ f₃ : Files} (h₁ : unchanged s f₁ f₂ = true)
    (h₂ : unchanged s f₂ f₃ = true) : unchanged s f₁ f₃ = true := by
  simp only [unchanged, Bool.and_eq_true] at *
  exact ⟨upToDate_trans h₁.1 h₂.1, upToDate_trans h₁.2 h₂.2⟩

theorem sameButStores_write (f : Files) (s : Secret) (version : Option String) :
    SameButStores s ((write f s).withResourceVersion version) := by
  refine ⟨⟨version, rfl⟩, ?_, fun key hk ht => ?_⟩
  · cases hk : f.keystore <;> cases ht : f.truststore <;>
      simp [write, Secret.Content.set, hk, ht]
  · simp only [write, Object.content_withResourceVersion]
    rw [Secret.Content.field_set_of_ne _ _ _ ht, Secret.Content.field_set_of_ne _ _ _ hk]

theorem current_write {f : Files} {password : String} (hf : Right s password f)
    (version : Option String) :
    current ((write f s).withResourceVersion version) = f := by
  have hne : Field.keystore ≠ Field.truststore := by decide
  simp only [current, write, Object.content_withResourceVersion]
  rw [Secret.Content.value_set_of_ne _ _ _ hne, Secret.Content.value_set,
    Secret.Content.value_set, hf.keystore.bind_nonEmpty?, hf.truststore.bind_nonEmpty?]

theorem stable : kind.Stable derivation SameButStores where
  revise := rfl
  metadata _ _ := rfl
  sources _ := rfl
  refl := .refl
  write := sameButStores_write
  applies s s' hs := by
    show (s'.content.type == _) = (s.content.type == _)
    rw [hs.type]
  current_write _ _ _ version hf := current_write (desired_right hf) version
  desired_again _ h' _ _ _ hs hf := desired_again hf h' hs
  unchanged_trans _ _ _ _ := unchanged_trans

end JavaKeystores

end CertKeeper
