import CertKeeper.Proofs.Keystore.Reencoding
import CertKeeper.Proofs.Sync.JavaKeystores
import CertKeeper.Proofs.Watch.Dependents

/-!
# Salts and times do not decide how a run ends

Two runs for the keystores of one secret, at different times and with different salts, end alike,
with the same error if they fail. What they leave behind differs at most in the salts and the
creation times inside of the stores.
-/

namespace CertKeeper

section

variable {k : Kind} {c : Cluster} {o o' : Object k} {R : Object k → Object k → Prop}

/-- Whether an object can be stored, and under which version, is known from its metadata. -/
theorem Cluster.agree_update (hmetadata : o'.metadata = o.metadata) :
    Agree (fun d d' => ∃ version,
        d = { c with store := c.store.insert (o.withResourceVersion version)
                     writes := c.writes + 1 } ∧
        d' = { c with store := c.store.insert (o'.withResourceVersion version)
                      writes := c.writes + 1 })
      (c.update o) (c.update o') := by
  have hkey : o'.key = o.key := Object.key_eq_of_metadata hmetadata
  have hversion : o'.resourceVersion = o.resourceVersion := by
    rw [Object.resourceVersion, Object.resourceVersion, hmetadata]
  unfold update Store.replace
  rw [hkey, hversion, hmetadata]
  cases c.refusals.update k o.key with
  | some e => exact .error e
  | none =>
    cases c.store.find? k o.key with
    | none => exact .error _
    | some stored =>
      by_cases hstored : stored.resourceVersion = o.resourceVersion
      · simp only [hstored, ne_eq, not_true_eq_false, if_false]
        exact .ok ⟨_, rfl, rfl⟩
      · simp only [hstored, ne_eq, not_false_eq_true, if_true]
        exact .error _

/-- Whether two plans are the same, or write objects that are related. -/
inductive Plan.Alike (R : Object k → Object k → Prop) : Plan k → Plan k → Prop where
  | same (p : Plan k) : Plan.Alike R p p
  | write {o o' : Object k} (h : R o o') : Plan.Alike R (.write o) (.write o')

end

namespace JavaKeystores

open KeyStore

/-- Files are encodings of one content, or missing, each under the password of the secret. -/
structure Files.Reencoded (s : Secret) (f f' : Files) : Prop where
  keystore : KeyStore.Reencoded s.annotations.keystorePassword f.keystore f'.keystore
  truststore : KeyStore.Reencoded s.annotations.keystorePassword f.truststore f'.truststore

/-- Whether two secrets differ at most in the salts and the creation times inside of their
stores. -/
structure SameButSalts (s s' : Secret) : Prop where
  metadata : s'.metadata = s.metadata
  type : s'.content.type = s.content.type
  extra : s'.content.extra = s.content.extra
  isSome_data : s'.content.data.isSome = s.content.data.isSome
  other : ∀ key ∉ [Field.keystore, Field.truststore],
    s'.content.field key = s.content.field key
  store : ∀ key ∈ [Field.keystore, Field.truststore],
    s'.content.field key = s.content.field key ∨
      KeyStore.Reencoded s.annotations.keystorePassword (s.content.field key)
        (s'.content.field key)

variable {s s' : Secret} {h h' : Host} {f f' : Files}

theorem SameButSalts.refl (s : Secret) : SameButSalts s s :=
  ⟨rfl, rfl, rfl, rfl, fun _ _ => rfl, fun _ _ => .inl rfl⟩

theorem agree_keystore (h h' : Host) (s : Secret) :
    Agree (KeyStore.Reencoded s.annotations.keystorePassword) (keystore h s) (keystore h' s) := by
  unfold keystore
  split
  · exact (agree_encodeKeyPair h h' _ _ _ _ _).map fun _ _ hfiles => hfiles
  · exact .ok trivial

theorem agree_desired (h h' : Host) (s : Secret) :
    Agree (Files.Reencoded s) (desired h s) (desired h' s) := by
  unfold desired
  split
  · refine Agree.mapError _ ((agree_keystore h h' s).bind fun _ _ hkeystore => ?_)
    exact (agree_encodeBundle h h' _ _ _ _).bind fun _ _ htruststore =>
      .ok ⟨hkeystore, htruststore⟩
  · exact .ok ⟨trivial, trivial⟩

theorem Files.Reencoded.alike (hf : f.Reencoded s f') : f.Alike s s f' := by
  have halike {password : String} {a b : Option Bytes} (hab : KeyStore.Reencoded password a b) :
      KeyStore.Alike password password a b := by
    cases a <;> cases b <;> simp only [KeyStore.Reencoded] at hab
    · trivial
    · obtain ⟨x, y, salts, salts', hx, hy, hxy⟩ := hab
      exact ⟨x, y, decode_encode hx, decode_encode hy, hxy⟩
  exact ⟨halike hf.keystore, halike hf.truststore⟩

theorem unchanged_congr (hf : f.Reencoded s f') (stored : Files) :
    unchanged s stored f = unchanged s stored f' := by
  have halike := hf.alike
  have hback : f'.Alike s s f := ⟨halike.keystore.symm, halike.truststore.symm⟩
  rw [Bool.eq_iff_iff]
  exact ⟨fun hu => unchanged_trans hu (Files.alike_self_iff.mp halike),
    fun hu => unchanged_trans hu (Files.alike_self_iff.mp hback)⟩

theorem isSome_congr {password : String} {a b : Option Bytes}
    (hab : KeyStore.Reencoded password a b) : b.isSome = a.isSome := by
  cases a <;> cases b <;> first | rfl | cases hab

theorem isSome_data_set (c : Secret.Content) (key : String) (value : Option Bytes) :
    (c.set key value).data.isSome = (c.data.isSome || value.isSome) := by
  cases value <;> cases hd : c.data <;> simp [Secret.Content.set, hd]

theorem sameButSalts_write (hf : f.Reencoded s f') : SameButSalts (write f s) (write f' s) := by
  have hne : Field.keystore ≠ Field.truststore := by decide
  have hsame := s.content.sameBut_set_set hne f.keystore f.truststore
  have hsame' := s.content.sameBut_set_set hne f'.keystore f'.truststore
  refine ⟨rfl, hsame'.type.trans hsame.type.symm, hsame'.extra.trans hsame.extra.symm, ?_,
    fun key hkey => ?_, fun key hkey => .inr ?_⟩
  · simp only [write, isSome_data_set, isSome_congr hf.keystore, isSome_congr hf.truststore]
  · exact (hsame'.data.other key hkey).trans (hsame.data.other key hkey).symm
  · simp only [List.mem_cons, List.not_mem_nil, or_false] at hkey
    rcases hkey with rfl | rfl
    · simp only [write]
      rw [Secret.Content.field_set_of_ne _ _ _ hne, Secret.Content.field_set_of_ne _ _ _ hne,
        Secret.Content.field_set, Secret.Content.field_set]
      exact hf.keystore
    · simp only [write, Secret.Content.field_set]
      exact hf.truststore

/-- Whether two secrets for one place differ at most in salts and times. -/
def SameFor (r : Reference) (s s' : Secret) : Prop := s.key = r ∧ SameButSalts s s'

theorem agree_revise (h h' : Host) (s : Secret) :
    Agree (Option.Rel (SameFor s.key)) (derivation.revise h [] s) (derivation.revise h' [] s) := by
  refine (agree_desired h h' s).bind fun f f' hf => .ok ?_
  show Option.Rel _ (if unchanged s (current s) f then none else some (write f s))
    (if unchanged s (current s) f' then none else some (write f' s))
  rw [unchanged_congr hf]
  split
  · exact .none
  · exact .some ⟨rfl, sameButSalts_write hf⟩

theorem agree_plan (c : Cluster) (h h' : Host) (r : Reference) :
    Agree (Plan.Alike (SameFor r)) (kind.plan c h r) (kind.plan c h' r) := by
  unfold SyncKind.plan
  cases hget : c.get .secret r with
  | error e => exact .error _
  | ok found =>
    cases found with
    | none => exact .ok (.same _)
    | some s =>
      obtain rfl : s.key = r := Store.key_of_find? (Cluster.get_eq_ok.mp hget).2
      simp only [SyncKind.planFor]
      split
      · exact .ok (.same _)
      · refine (agree_revise h h' s).bind fun _ _ hrevised => ?_
        cases hrevised with
        | none => exact .ok (.same _)
        | some hs => exact .ok (.write hs)

end JavaKeystores

/-- Whether two clusters are the same, but for the salts and the creation times inside of the stores
of one secret. -/
structure Cluster.SameButSalts (r : Reference) (c c' : Cluster) : Prop
    extends c.SameButSecret r c' where
  writes : c'.writes = c.writes
  secret : Option.Rel JavaKeystores.SameButSalts (c.store.find? .secret r)
    (c'.store.find? .secret r)

theorem Cluster.SameButSalts.refl (r : Reference) (c : Cluster) : c.SameButSalts r c := by
  refine ⟨⟨rfl, fun _ _ _ => rfl⟩, rfl, ?_⟩
  cases c.store.find? .secret r with
  | none => exact .none
  | some s => exact .some (.refl s)

theorem Cluster.sameButSalts_insert {c : Cluster} {s s' : Secret}
    (hs : JavaKeystores.SameButSalts s s') (version : Option String) (writes : Nat) :
    Cluster.SameButSalts s.key
      { c with store := c.store.insert (s.withResourceVersion version), writes }
      { c with store := c.store.insert (s'.withResourceVersion version), writes } := by
  have hkey : s'.key = s.key := Object.key_eq_of_metadata hs.metadata
  have hstored := Store.find?_insert c.store (s.withResourceVersion version)
  have hstored' := Store.find?_insert c.store (s'.withResourceVersion version)
  have hsalts : JavaKeystores.SameButSalts (s.withResourceVersion version)
      (s'.withResourceVersion version) :=
    { hs with metadata := by simp only [Object.withResourceVersion, hs.metadata] }
  refine ⟨⟨rfl, fun k r hne => ?_⟩, rfl, ?_⟩
  · have hne' : (k, r) ≠ (.secret, s'.key) := hkey ▸ hne
    exact (Store.find?_insert_of_ne c.store (s'.withResourceVersion version) hne').trans
      (Store.find?_insert_of_ne c.store (s.withResourceVersion version) hne).symm
  · have hkey' : (s'.withResourceVersion version).key = (s.withResourceVersion version).key := hkey
    rw [hkey'] at hstored'
    exact hstored ▸ hstored' ▸ Option.Rel.some hsalts

namespace JavaKeystores

theorem carryOut_alike {c : Cluster} {r : Reference} {p p' : Plan .secret}
    (hp : Plan.Alike (SameFor r) p p') : (p'.carryOut c).1 = (p.carryOut c).1 ∧
      Cluster.SameButSalts r (p.carryOut c).2 (p'.carryOut c).2 := by
  cases hp with
  | same p => exact ⟨rfl, .refl r _⟩
  | write hs =>
    rename_i s s'
    obtain ⟨rfl, hs⟩ := hs
    have hupdate := Cluster.agree_update (c := c) hs.metadata
    rw [Plan.carryOut, Plan.carryOut]
    generalize c.update s = x, c.update s' = y at hupdate
    cases hupdate with
    | error e => exact ⟨rfl, .refl _ _⟩
    | ok hstored =>
      obtain ⟨version, rfl, rfl⟩ := hstored
      exact ⟨rfl, Cluster.sameButSalts_insert hs version _⟩

/-- A run ends alike at whatever time and with whatever salts, and what it leaves behind differs in
these at most. -/
theorem sync_salts (c : Cluster) (h h' : Host) (r : Reference) :
    (kind.sync c h' r).1 = (kind.sync c h r).1 ∧
      Cluster.SameButSalts r (kind.sync c h r).2 (kind.sync c h' r).2 := by
  have hplan := agree_plan c h h' r
  unfold SyncKind.sync
  generalize kind.plan c h r = x, kind.plan c h' r = y at hplan
  cases hplan with
  | error e => exact ⟨rfl, .refl r c⟩
  | ok hp => exact carryOut_alike hp

end JavaKeystores
end CertKeeper
