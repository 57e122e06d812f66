import CertKeeper.Keystore.OfPem
import CertKeeper.Proofs.Keystore.Codec
import Std.Data.String.ToNat

/-!
# What keystores made from PEM bundles hold

A keystore holds the first block of a key with all blocks of its certificates, a truststore the
blocks of a bundle under numbered aliases. Neither what it holds nor whether it can be encoded
depends on the time at which it was made, on the password or on salts, so that a new encoding always
holds what the last one does.
-/

namespace CertKeeper.KeyStore

open Keystore

theorem contents_eq_toList (ks : KeyStore) :
    ks.contents = (ks.entries.map fun _ e => e.entry).toList := by
  rw [Std.ExtTreeMap.toList_map]
  rfl

theorem length_contents (ks : KeyStore) : ks.contents.length = ks.size := by
  simp [contents, size]

theorem mem_contents {ks : KeyStore} {name : String} {entry : Entry} :
    (name, entry) ∈ ks.contents ↔ ∃ e, ks.entries[name]? = some e ∧ e.entry = entry := by
  simp [contents_eq_toList]

/-- Contents stand in the order of their aliases, so that they are determined up to order. -/
theorem contents_eq_of_perm {a b : KeyStore} (h : a.contents.Perm b.contents) :
    a.contents = b.contents := by
  rw [contents_eq_toList, contents_eq_toList] at h
  rw [contents_eq_toList, contents_eq_toList, Std.ExtTreeMap.ext_toList h]

/-- Whether a keystore holds these entries under these aliases and no others. -/
def Holds (ks : KeyStore) (es : List (String × Entry)) : Prop := ks.contents.Perm es

theorem Holds.contents_eq {a b : KeyStore} {es : List (String × Entry)} (ha : a.Holds es)
    (hb : b.Holds es) : a.contents = b.contents :=
  contents_eq_of_perm (ha.trans hb.symm)

theorem holds_ofList {l : List (String × StoredEntry)} (h : (l.map Prod.fst).Nodup) :
    (KeyStore.mk (Std.ExtTreeMap.ofList l)).Holds (l.map fun e => (e.1, e.2.entry)) :=
  (Dict.toList_ofList_perm h).map _

def keyPairEntries (certificates : Bytes) (key : Pem) : List (String × Entry) :=
  [("alias", .privateKey key.contents ((Pem.blocks certificates).map (·.contents)))]

/-- What the truststore of a bundle holds: its blocks in order, numbered from 0. -/
def bundleEntries (bundle : Bytes) : List (String × Entry) :=
  (Pem.blocks bundle).zipIdx.map fun b =>
    (certificateAlias b.2, .trustedCertificate b.1.contents)

theorem holds_insert_empty (name : String) (created : Int64) (entry : Entry) :
    (empty.insert name created entry).Holds [(name, entry)] := by
  let l : List (String × StoredEntry) := [(name, ⟨created, entry⟩)]
  have hlist : empty.insert name created entry = ⟨Std.ExtTreeMap.ofList l⟩ := by
    rw [Std.ExtTreeMap.ofList_singleton]
    rfl
  have hnodup : (l.map Prod.fst).Nodup := List.nodup_singleton name
  rw [hlist]
  exact holds_ofList hnodup

theorem occursIn_iff {needle hay : List Char} : occursIn needle hay = true ↔ needle <:+: hay := by
  induction hay with
  | nil => simp [occursIn]
  | cons c rest ih => simp [occursIn, List.infix_cons_iff, ih]

def IsKey (b : Pem) : Prop := "PRIVATE KEY".toList <:+: b.label.toList

theorem isKeyLabel_iff {b : Pem} : isKeyLabel b.label = true ↔ IsKey b := occursIn_iff

theorem isKeyLabel_eq_false_iff {b : Pem} : isKeyLabel b.label = false ↔ ¬ IsKey b := by
  rw [← isKeyLabel_iff, Bool.not_eq_true]

instance : DecidablePred IsKey := fun _ => decidable_of_iff _ isKeyLabel_iff

section

variable {certificates key : Bytes} {created : Int64} {ks : KeyStore}

/-- There is a keystore exactly if there is a certificate and the first block is a private key. -/
theorem ofKeyPair_eq_ok : ofKeyPair certificates key created = .ok ks ↔
    Pem.blocks certificates ≠ [] ∧ ∃ block, (Pem.blocks key).head? = some block ∧ IsKey block ∧
      ks = empty.insert "alias" created
        (.privateKey block.contents ((Pem.blocks certificates).map (·.contents))) := by
  unfold ofKeyPair
  cases Pem.blocks key with
  | nil => simp
  | cons block others =>
    rw [List.head?_cons]
    by_cases hkey : IsKey block
    · cases Pem.blocks certificates with
      | nil => simp [isKeyLabel_eq_false_iff, hkey]
      | cons c cs => simp [isKeyLabel_eq_false_iff, hkey, eq_comm (b := ks)]
    · simp [isKeyLabel_eq_false_iff, hkey]

theorem ofKeyPair_holds (h : ofKeyPair certificates key created = .ok ks) :
    ∃ block, (Pem.blocks key).head? = some block ∧
      ks.Holds (keyPairEntries certificates block) := by
  obtain ⟨-, block, hblock, -, rfl⟩ := ofKeyPair_eq_ok.mp h
  exact ⟨block, hblock, holds_insert_empty ..⟩

theorem ofKeyPair_of_created (h : ofKeyPair certificates key created = .ok ks) (created' : Int64) :
    ∃ ks', ofKeyPair certificates key created' = .ok ks' := by
  obtain ⟨hcertificates, block, hblock, hkey, -⟩ := ofKeyPair_eq_ok.mp h
  exact ⟨_, ofKeyPair_eq_ok.mpr ⟨hcertificates, block, hblock, hkey, rfl⟩⟩

end

theorem certificateAlias_injective {i j : Nat} (h : certificateAlias i = certificateAlias j) :
    i = j := by
  have hrepr : i.repr = j.repr := by simpa [certificateAlias] using h
  exact Nat.repr_injective hrepr

theorem nodup_certificateAlias {α : Type} (l : List α) :
    (l.zipIdx.map fun b => certificateAlias b.2).Nodup := by
  have hindex : (l.zipIdx.map Prod.snd).Nodup := by
    rw [List.zipIdx_map_snd]
    exact List.nodup_range'
  have hmap := hindex.map fun _ _ => certificateAlias_injective
  rwa [List.map_map] at hmap

def storedBlocks (bundle : Bytes) (created : Int64) : List (String × StoredEntry) :=
  (Pem.blocks bundle).zipIdx.map fun b =>
    (certificateAlias b.2, ⟨created, .trustedCertificate b.1.contents⟩)

theorem ofBundle_eq_ofList (bundle : Bytes) (created : Int64) :
    ofBundle bundle created = ⟨Std.ExtTreeMap.ofList (storedBlocks bundle created)⟩ := by
  let put (d : Dict StoredEntry) (b : Pem × Nat) : Dict StoredEntry :=
    d.insert (certificateAlias b.2) ⟨created, .trustedCertificate b.1.contents⟩
  have hfold : ofBundle bundle created = ⟨(Pem.blocks bundle).zipIdx.foldl put ∅⟩ :=
    List.foldl_hom KeyStore.mk fun _ _ => rfl
  rw [hfold, storedBlocks, Std.ExtTreeMap.ofList_eq_foldl, List.foldl_map]

theorem ofBundle_holds (bundle : Bytes) (created : Int64) :
    (ofBundle bundle created).Holds (bundleEntries bundle) := by
  have hnodup : ((storedBlocks bundle created).map Prod.fst).Nodup := by
    rw [storedBlocks, List.map_map]
    exact nodup_certificateAlias (Pem.blocks bundle)
  have h := holds_ofList hnodup
  rw [storedBlocks, List.map_map] at h
  rw [ofBundle_eq_ofList]
  exact h

theorem equivalent_iff {a b : Bytes} {password : String} :
    equivalent a b password = true ↔ ∃ x y, decode a password = .ok x ∧
      decode b password = .ok y ∧ x.contents = y.contents := by
  cases ha : decode a password with
  | error e => simp [equivalent, ha]
  | ok x =>
    cases hb : decode b password with
    | error e => simp [equivalent, ha, hb]
    | ok y => simp [equivalent, ha, hb, sameContent]

theorem Fits.of_contents_eq {a b : KeyStore} (h : a.contents = b.contents) {password : String}
    (ha : a.Fits password) (password' : String) : b.Fits password' := by
  refine ⟨?_, fun name e he => ?_⟩
  · rw [← length_contents, ← h, length_contents]
    exact ha.size_lt
  · have hmem : (name, e.entry) ∈ a.contents := h ▸ mem_contents.mpr ⟨e, he, rfl⟩
    obtain ⟨e', he', hentry⟩ := mem_contents.mp hmem
    obtain ⟨hname, hfits⟩ := ha.named_fits name e' he'
    rw [hentry] at hfits
    exact ⟨hname, hfits.of_password (passwordBytes password')⟩

theorem exists_encode_of_contents_eq {a b : KeyStore} (h : a.contents = b.contents)
    {password : String} {salts : Nat → Salt} {data : Bytes}
    (ha : a.encode password salts = .ok data) (password' : String) (salts' : Nat → Salt) :
    ∃ data', b.encode password' salts' = .ok data' :=
  exists_encode_iff.mpr ((exists_encode_iff.mp ⟨data, ha⟩).of_contents_eq h password')

end CertKeeper.KeyStore
