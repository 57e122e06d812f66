import CertKeeper.Proofs.Sync.Convergence
import CertKeeper.Proofs.Sync.Independence

/-!
# Which changes of objects with stores are passed on

A store is made from fields of its object and is protected by the password that the object names. The
filters compare the fields but not the password. So a change that they pass over leaves the stores
right if the password stays, and otherwise only as far as they can still be read.
-/

namespace CertKeeper

open Watch

namespace KeyStore

variable {password password' : String} {stored made made' : Option Bytes}

/-- Whether a file, if there is one, holds the same entries when it is read under either password. -/
def ReadsAlike (password password' : String) (file : Option Bytes) : Prop :=
  Alike password password' file file

/-- A file that was like what was made under the old password is like what is made under the new one
exactly if it can be read under both. -/
theorem alike_iff_readsAlike (hstored : Alike password password stored made)
    (hmade : Alike password password' made made') :
    Alike password' password' stored made' ↔ ReadsAlike password password' stored := by
  have hacross : Alike password password' stored made' := hstored.trans hmade
  constructor
  · intro hnew
    exact hacross.trans hnew.symm
  · intro hreads
    exact Alike.trans hreads.symm hacross

theorem readsAlike_self (hstored : Alike password password stored made) :
    ReadsAlike password password stored :=
  hstored.trans hstored.symm

end KeyStore

open KeyStore

namespace JavaKeystores

variable {h h' : Host} {old new : Secret}

def StoresReadAlike (old new : Secret) : Prop :=
  ReadsAlike old.annotations.keystorePassword new.annotations.keystorePassword
      (current new).keystore ∧
    ReadsAlike old.annotations.keystorePassword new.annotations.keystorePassword
      (current new).truststore

theorem sameSources_of_rejected (he : kind.targetFilter.accepts (.updated old new) = false)
    (htls : new.content.isTls = true) : SameSources old new := by
  obtain ⟨henabled, hfields⟩ := (Mirror.annotatedTlsSecret_eq_false htls).mp he
  exact ⟨henabled, fun hold key hkey => ((hfields hold).value hkey).symm⟩

theorem revise_eq_none_iff (hold : derivation.revise h [] old = .ok none)
    (hs : SameSources old new) (hcurrent : current new = current old) :
    derivation.revise h' [] new = .ok none ↔ StoresReadAlike old new := by
  obtain ⟨made, hmade, hu⟩ := Derivation.revise_eq_none.mp hold
  obtain ⟨made', hmade', halike⟩ := desired_alike hmade h' hs
  have hstored : (current new).Alike old old made := by
    rw [hcurrent]
    exact Files.alike_self_iff.mpr hu
  rw [Derivation.revise_eq_none_iff_of_desired hmade', StoresReadAlike,
    ← alike_iff_readsAlike hstored.keystore halike.keystore,
    ← alike_iff_readsAlike hstored.truststore halike.truststore]
  show unchanged new (current new) made' = true ↔ _
  rw [← Files.alike_self_iff]
  exact ⟨fun h => ⟨h.keystore, h.truststore⟩, fun h => ⟨h.1, h.2⟩⟩

/-- What is stored can be read under the password under which it was found right. -/
theorem storesReadAlike_of_password (hold : derivation.revise h [] old = .ok none)
    (hcurrent : current new = current old)
    (hpassword : new.annotations.keystorePassword = old.annotations.keystorePassword) :
    StoresReadAlike old new := by
  obtain ⟨made, -, hu⟩ := Derivation.revise_eq_none.mp hold
  have hstored : (current old).Alike old old made := Files.alike_self_iff.mpr hu
  rw [StoresReadAlike, hpassword, hcurrent]
  exact ⟨readsAlike_self hstored.keystore, readsAlike_self hstored.truststore⟩

end JavaKeystores

namespace Truststore

variable {h h' : Host} {old new : ConfigMap}

def StoreReadsAlike (old new : ConfigMap) : Prop :=
  ReadsAlike old.annotations.keystorePassword new.annotations.keystorePassword (current new)

theorem sameSources_of_rejected (he : kind.targetFilter.accepts (.updated old new) = false) :
    SameSources old new := by
  simp only [kind, EventFilter.accepts, EventFilter.truststoreConfigMap, Bool.or_eq_false_iff,
    bne_eq_false_iff_eq] at he
  obtain ⟨henabled, hsource⟩ := he
  refine ⟨henabled.symm, fun hold => ?_⟩
  rw [← henabled, hold, Bool.true_and, bne_eq_false_iff_eq] at hsource
  have hfield : new.content.field new.annotations.sourceCaKey
      = old.content.field old.annotations.sourceCaKey := hsource.symm
  rw [bundle, bundle, ConfigMap.Content.value, ConfigMap.Content.value, hfield]

theorem revise_eq_none_iff (hold : derivation.revise h [] old = .ok none)
    (hm : SameSources old new) (hcurrent : current new = current old) :
    derivation.revise h' [] new = .ok none ↔ StoreReadsAlike old new := by
  obtain ⟨made, hmade, hu⟩ := Derivation.revise_eq_none.mp hold
  obtain ⟨made', hmade', halike⟩ := desired_alike hmade h' hm
  have hstored : Alike old.annotations.keystorePassword old.annotations.keystorePassword
      (current new) made := by
    rw [hcurrent]
    exact alike_self_iff.mpr hu
  rw [Derivation.revise_eq_none_iff_of_desired hmade', StoreReadsAlike,
    ← alike_iff_readsAlike hstored halike]
  exact alike_self_iff.symm

theorem storeReadsAlike_of_password (hold : derivation.revise h [] old = .ok none)
    (hcurrent : current new = current old)
    (hpassword : new.annotations.keystorePassword = old.annotations.keystorePassword) :
    StoreReadsAlike old new := by
  obtain ⟨made, -, hu⟩ := Derivation.revise_eq_none.mp hold
  rw [StoreReadsAlike, hpassword, hcurrent]
  exact readsAlike_self (alike_self_iff.mpr hu)

end Truststore

/-- A change that the filter passes over, of an object whose stores are right and stay as they are,
leaves nothing to do exactly if the stores can still be read, under the new password and with the same
entries. If the password stays, there is nothing to do. -/
theorem dropped_change_leaves_stores_iff (c c' : Cluster) (h h' : Host) (r : Reference) :
    (∀ old new : Secret, c.get .secret r = .ok (some old) → c'.get .secret r = .ok (some new) →
      new.content.isTls = true → JavaKeystores.current new = JavaKeystores.current old →
      JavaKeystores.kind.targetFilter.accepts (.updated old new) = false →
      JavaKeystores.kind.sync c h r = (.ok .unchanged, c) →
        (JavaKeystores.kind.sync c' h' r = (.ok .unchanged, c') ↔
          JavaKeystores.StoresReadAlike old new) ∧
        (new.annotations.keystorePassword = old.annotations.keystorePassword →
          JavaKeystores.kind.sync c' h' r = (.ok .unchanged, c'))) ∧
    (∀ old new : ConfigMap, c.get .configMap r = .ok (some old) →
      c'.get .configMap r = .ok (some new) → Truststore.current new = Truststore.current old →
      Truststore.kind.targetFilter.accepts (.updated old new) = false →
      Truststore.kind.sync c h r = (.ok .unchanged, c) →
        (Truststore.kind.sync c' h' r = (.ok .unchanged, c') ↔
          Truststore.StoreReadsAlike old new) ∧
        (new.annotations.keystorePassword = old.annotations.keystorePassword →
          Truststore.kind.sync c' h' r = (.ok .unchanged, c'))) := by
  constructor
  · intro old new hold hnew htls hcurrent he hrun
    obtain ⟨-, hrevise⟩ := (JavaKeystores.stable.sourceless.sync_eq_unchanged_iff hold).mp hrun
    have hiff : JavaKeystores.kind.sync c' h' r = (.ok .unchanged, c') ↔
        JavaKeystores.StoresReadAlike old new := by
      rw [JavaKeystores.stable.sourceless.sync_eq_unchanged_iff hnew,
        ← JavaKeystores.revise_eq_none_iff hrevise
          (JavaKeystores.sameSources_of_rejected he htls) hcurrent]
      exact and_iff_right htls
    refine ⟨hiff, fun hpassword => hiff.mpr ?_⟩
    exact JavaKeystores.storesReadAlike_of_password hrevise hcurrent hpassword
  · intro old new hold hnew hcurrent he hrun
    obtain ⟨-, hrevise⟩ := (Truststore.stable.sourceless.sync_eq_unchanged_iff hold).mp hrun
    have hiff : Truststore.kind.sync c' h' r = (.ok .unchanged, c') ↔
        Truststore.StoreReadsAlike old new := by
      rw [Truststore.stable.sourceless.sync_eq_unchanged_iff hnew, ← Truststore.revise_eq_none_iff
        hrevise (Truststore.sameSources_of_rejected he) hcurrent]
      exact and_iff_right rfl
    refine ⟨hiff, fun hpassword => hiff.mpr ?_⟩
    exact Truststore.storeReadsAlike_of_password hrevise hcurrent hpassword

namespace StoredTruststore

open OptedIn

def bare : Secret :=
  ⟨metadata "tls" Key.generateJavaKeystores, {
    type := some Field.tlsSecretType
    data := some ((∅ : Dict Bytes).insert Field.caCert (.ofString certificate))
    extra := ∅ }⟩

def old : Secret :=
  JavaKeystores.write ⟨none, (JavaKeystores.truststore host bare).toOption.join⟩ bare

def annotated (key value : String) : Secret :=
  { old with metadata := { old.metadata with annotations := old.annotations.insert key value } }

def holding (s : Secret) : Cluster := .ofStore (Store.empty.insert s)

def run (s : Secret) : Except SyncError Outcome × Cluster :=
  JavaKeystores.kind.sync (holding s) host ⟨"ns", "tls"⟩

def accepts (s : Secret) : Bool := JavaKeystores.kind.targetFilter.accepts (.updated old s)

theorem content_annotated (key value : String) : (annotated key value).content = old.content := rfl

theorem current_annotated (key value : String) :
    JavaKeystores.current (annotated key value) = JavaKeystores.current old := by
  rw [JavaKeystores.current, JavaKeystores.current, content_annotated]

theorem isTls_annotated (key value : String) : (annotated key value).content.isTls = true := by
  rw [content_annotated, old, JavaKeystores.write, Secret.Content.isTls_set,
    Secret.Content.isTls_set]
  rfl

theorem get_holding {s : Secret} (hkey : s.key = ⟨"ns", "tls"⟩) :
    (holding s).get .secret ⟨"ns", "tls"⟩ = .ok (some s) :=
  Cluster.get_eq_ok.mpr ⟨rfl, hkey ▸ Store.find?_insert _ s⟩

theorem run_old : (run old).1.toOption = some .unchanged := by
  decide +kernel

end StoredTruststore

open StoredTruststore in
/-- Any other annotation may be set. -/
theorem dropped_change_leaves_stores_iff_annotated :
    run (annotated "note" "checked") = (.ok .unchanged, holding (annotated "note" "checked")) := by
  have hdropped : accepts (annotated "note" "checked") = false := by
    decide +kernel
  have hpassword : (annotated "note" "checked").annotations.keystorePassword
      = old.annotations.keystorePassword := by
    decide +kernel
  obtain ⟨c', hrun⟩ := SyncKind.exists_sync_eq run_old
  obtain ⟨rfl, -⟩ := SyncKind.sync_eq_unchanged.mp hrun
  have hsecrets := (dropped_change_leaves_stores_iff (holding old)
    (holding (annotated "note" "checked")) OptedIn.host OptedIn.host ⟨"ns", "tls"⟩).1
  exact (hsecrets _ _ (get_holding rfl) (get_holding rfl) (isTls_annotated _ _)
    (current_annotated _ _) hdropped hrun).2 hpassword

open StoredTruststore in
/-- Another password is not noticed, although the truststore has to be made anew. -/
theorem new_password_dropped :
    let new := annotated Key.javaKeystorePassword "rotated"
    JavaKeystores.current new = JavaKeystores.current old ∧ accepts new = false ∧
      (run old).1.toOption = some .unchanged ∧ (run new).1.toOption = some .updated := by
  intro new
  refine ⟨current_annotated _ _, ?_, run_old, ?_⟩
  · decide +kernel
  · decide +kernel

end CertKeeper
