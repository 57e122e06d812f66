import CertKeeper.Proofs.Keystore.Layout

/-!
# Keystores are read back

Every part of an encoding has the layout of what it was made from. So a keystore that can be encoded
is decoded to itself, and it can be encoded exactly if all its lengths fit in their fields.
-/

namespace CertKeeper.Keystore

namespace Encoding

theorem text_certificateType_ok : ∃ b, text certificateType = .ok b :=
  ⟨_, text_eq_ok.mpr ⟨by decide, rfl⟩⟩

theorem certificate_ok_iff {c : Bytes} : (∃ b, certificate c = .ok b) ↔ c.length < UInt32.size := by
  obtain ⟨kind, hkind⟩ := text_certificateType_ok
  simp [certificate, hkind, bind_eq_ok, field_eq_ok]

theorem certificates_ok_iff {cs : List Bytes} :
    (∃ b, certificates cs = .ok b) ↔ ∀ c ∈ cs, c.length < UInt32.size := by
  induction cs with
  | nil => simp [certificates]
  | cons c cs ih =>
    rw [List.forall_mem_cons, ← ih, ← certificate_ok_iff]
    simp only [certificates, bind_eq_ok, Except.ok.injEq]
    constructor
    · rintro ⟨_, first, hfirst, others, hothers, _⟩
      exact ⟨⟨first, hfirst⟩, others, hothers⟩
    · rintro ⟨⟨first, hfirst⟩, others, hothers⟩
      exact ⟨_, first, hfirst, others, hothers, rfl⟩

end Encoding

/-- Whether the lengths of an entry fit in their fields. -/
def Entry.Fits (password : Bytes) : Entry → Prop
  | .privateKey key chain =>
    (∀ salt, (Protection.protect key password salt).length < UInt32.size) ∧
      chain.length < UInt32.size ∧ ∀ c ∈ chain, c.length < UInt32.size
  | .trustedCertificate c => c.length < UInt32.size

def NamedFits (password : Bytes) (e : String × StoredEntry) : Prop :=
  (Bytes.ofString e.1).length < UInt16.size ∧ e.2.entry.Fits password

theorem Entry.Fits.of_password {password : Bytes} {e : Entry} (he : e.Fits password)
    (password' : Bytes) : e.Fits password' := by
  cases e with
  | privateKey key chain =>
    refine ⟨fun salt => ?_, he.2⟩
    rw [Protection.length_protect_eq key password' password salt salt]
    exact he.1 salt
  | trustedCertificate c => exact he

namespace Encoding

theorem entry_ok_iff {password : Bytes} {salt : Salt} {name : String} {e : StoredEntry} :
    (∃ b, entry password salt name e = .ok b) ↔ NamedFits password (name, e) := by
  obtain ⟨created, e⟩ := e
  cases e with
  | privateKey key chain =>
    have hsalt : (∀ s, (Protection.protect key password s).length < UInt32.size) ↔
        (Protection.protect key password salt).length < UInt32.size :=
      ⟨fun h => h salt, fun h s => Protection.length_protect_eq key password password s salt ▸ h⟩
    simp only [NamedFits, Entry.Fits, hsalt, ← certificates_ok_iff]
    simp only [entry, bind_eq_ok, text_eq_ok, field_eq_ok, count_eq_ok, Except.ok.injEq]
    constructor
    · rintro ⟨_, _, ⟨hname, _⟩, _, ⟨hkey, _⟩, _, ⟨hchain, _⟩, certs, hcerts, _⟩
      exact ⟨hname, hkey, hchain, certs, hcerts⟩
    · rintro ⟨hname, hkey, hchain, certs, hcerts⟩
      exact ⟨_, _, ⟨hname, rfl⟩, _, ⟨hkey, rfl⟩, _, ⟨hchain, rfl⟩, certs, hcerts, rfl⟩
  | trustedCertificate c =>
    simp only [NamedFits, Entry.Fits, ← certificate_ok_iff]
    simp only [entry, bind_eq_ok, text_eq_ok, Except.ok.injEq]
    constructor
    · rintro ⟨_, _, ⟨hname, _⟩, body, hbody, _⟩
      exact ⟨hname, body, hbody⟩
    · rintro ⟨hname, body, hbody⟩
      exact ⟨_, _, ⟨hname, rfl⟩, body, hbody, rfl⟩

theorem entries_ok_iff {password : Bytes} {salts : Nat → Salt} {i : Nat}
    {es : List (String × StoredEntry)} :
    (∃ b, entries password salts i es = .ok b) ↔ ∀ e ∈ es, NamedFits password e := by
  induction es generalizing i with
  | nil => simp [entries]
  | cons e es ih =>
    obtain ⟨name, e⟩ := e
    have hentry : (∃ b, entry password (salts i) name e = .ok b) ↔ NamedFits password (name, e) :=
      entry_ok_iff
    rw [List.forall_mem_cons, ← ih (i := i + 1), ← hentry]
    simp only [entries, bind_eq_ok, Except.ok.injEq]
    constructor
    · rintro ⟨_, first, hfirst, others, hothers, _⟩
      exact ⟨⟨first, hfirst⟩, others, hothers⟩
    · rintro ⟨⟨first, hfirst⟩, others, hothers⟩
      exact ⟨_, first, hfirst, others, hothers, rfl⟩

end Encoding

namespace Encoding

open Layout

theorem isCertificate_of_ok {c w : Bytes} (h : certificate c = .ok w) : IsCertificate c w := by
  obtain ⟨kind, hkind, h⟩ := bind_eq_ok.mp h
  obtain ⟨f, hf, h⟩ := bind_eq_ok.mp h
  cases h
  exact ⟨_, kind, f, hkind, hf, rfl⟩

theorem exists_certificates {cs : List Bytes} {w : Bytes} (h : certificates cs = .ok w) :
    ∃ ws, List.Forall₂ IsCertificate cs ws ∧ w = ws.flatten := by
  induction cs generalizing w with
  | nil =>
    cases h
    exact ⟨[], .nil, rfl⟩
  | cons c cs ih =>
    obtain ⟨first, hfirst, h⟩ := bind_eq_ok.mp h
    obtain ⟨others, hothers, h⟩ := bind_eq_ok.mp h
    cases h
    obtain ⟨ws, hws, rfl⟩ := ih hothers
    exact ⟨first :: ws, .cons (isCertificate_of_ok hfirst) hws, rfl⟩

theorem isEntry_of_ok {password : Bytes} {salt : Salt} {name : String} {e : StoredEntry} {w : Bytes}
    (h : entry password salt name e = .ok w) : IsEntry password (name, e) w := by
  obtain ⟨created, e⟩ := e
  obtain ⟨encodedName, hname, h⟩ := bind_eq_ok.mp h
  cases e with
  | privateKey key chain =>
    obtain ⟨f, hf, h⟩ := bind_eq_ok.mp h
    obtain ⟨n, hn, h⟩ := bind_eq_ok.mp h
    obtain ⟨certs, hcerts, h⟩ := bind_eq_ok.mp h
    cases h
    have hkey : Protection.recover (Protection.protect key password salt) password = .ok key :=
      Protection.recover_protect (field_eq_ok.mp hf).1
    obtain ⟨hlen, rfl⟩ := count_eq_ok.mp hn
    obtain ⟨ws, hws, rfl⟩ := exists_certificates hcerts
    exact ⟨_, encodedName, _, hname, .privateKey hf hkey hlen hws, by simp [stamp]⟩
  | trustedCertificate c =>
    obtain ⟨body, hbody, h⟩ := bind_eq_ok.mp h
    cases h
    exact ⟨_, encodedName, body, hname, .trustedCertificate (isCertificate_of_ok hbody), rfl⟩

theorem exists_entries {password : Bytes} {salts : Nat → Salt} {i : Nat}
    {es : List (String × StoredEntry)} {w : Bytes} (h : entries password salts i es = .ok w) :
    ∃ ws, List.Forall₂ (IsEntry password) es ws ∧ w = ws.flatten := by
  induction es generalizing i w with
  | nil =>
    cases h
    exact ⟨[], .nil, rfl⟩
  | cons e es ih =>
    obtain ⟨first, hfirst, h⟩ := bind_eq_ok.mp h
    obtain ⟨others, hothers, h⟩ := bind_eq_ok.mp h
    cases h
    obtain ⟨ws, hws, rfl⟩ := ih hothers
    exact ⟨first :: ws, .cons (isEntry_of_ok hfirst) hws, rfl⟩

end Encoding

end CertKeeper.Keystore

namespace CertKeeper.KeyStore

open Keystore Layout

/-- Whether the lengths of a keystore fit in their fields, when `password` protects its keys. -/
structure Fits (ks : KeyStore) (password : String) : Prop where
  size_lt : ks.size < UInt32.size
  named_fits : ∀ name e, ks.entries[name]? = some e → NamedFits (passwordBytes password) (name, e)

theorem encode_eq_ok {ks : KeyStore} {password : String} {salts : Nat → Salt} {data : Bytes} :
    ks.encode password salts = .ok data ↔ ∃ body,
      ks.encodeBody (passwordBytes password) salts = .ok body ∧
        data = body ++ storeDigest (passwordBytes password) body := by
  simp only [encode, bind_eq_ok, Except.ok.injEq, eq_comm (b := data)]

theorem encodeBody_eq_ok {ks : KeyStore} {password : Bytes} {salts : Nat → Salt} {body : Bytes} :
    ks.encodeBody password salts = .ok body ↔ ks.size < UInt32.size ∧ ∃ es,
      Encoding.entries password salts 0 ks.entries.toList = .ok es ∧
        body = Encoding.u32 magic ++ Encoding.u32 version ++ Encoding.u32 ks.size ++ es := by
  simp only [encodeBody, bind_eq_ok, Encoding.count_eq_ok, Except.ok.injEq]
  constructor
  · rintro ⟨_, ⟨hsize, rfl⟩, es, hes, rfl⟩
    exact ⟨hsize, es, hes, rfl⟩
  · rintro ⟨hsize, es, hes, rfl⟩
    exact ⟨_, ⟨hsize, rfl⟩, es, hes, rfl⟩

theorem exists_encode_iff {ks : KeyStore} {password : String} {salts : Nat → Salt} :
    (∃ data, ks.encode password salts = .ok data) ↔ ks.Fits password := by
  have hentries : (∃ es, Encoding.entries (passwordBytes password) salts 0 ks.entries.toList
      = .ok es) ↔ ∀ e ∈ ks.entries.toList, NamedFits (passwordBytes password) e :=
    Encoding.entries_ok_iff
  constructor
  · rintro ⟨data, h⟩
    obtain ⟨body, hbody, -⟩ := encode_eq_ok.mp h
    obtain ⟨hsize, es, hes, -⟩ := encodeBody_eq_ok.mp hbody
    refine ⟨hsize, fun name e he => ?_⟩
    exact hentries.mp ⟨es, hes⟩ _ (Std.ExtTreeMap.mem_toList_iff_getElem?_eq_some.mpr he)
  · rintro ⟨hsize, hfits⟩
    obtain ⟨es, hes⟩ := hentries.mpr fun e he =>
      hfits e.1 e.2 (Std.ExtTreeMap.mem_toList_iff_getElem?_eq_some.mp he)
    exact ⟨_, encode_eq_ok.mpr ⟨_, encodeBody_eq_ok.mpr ⟨hsize, es, hes, rfl⟩, rfl⟩⟩

theorem announces_of_encodeBody {ks : KeyStore} {password : Bytes} {salts : Nat → Salt}
    {body : Bytes} (h : ks.encodeBody password salts = .ok body) :
    Announces password ks.entries.toList [] body := by
  obtain ⟨hsize, es, hes, rfl⟩ := encodeBody_eq_ok.mp h
  obtain ⟨ws, hws, rfl⟩ := Encoding.exists_entries hes
  have hlen : ks.entries.toList.length = ks.size := Std.ExtTreeMap.length_toList
  exact ⟨by rwa [hlen], ws, hws, by rw [hlen, List.append_nil]⟩

theorem decode_encode {ks : KeyStore} {password : String} {salts : Nat → Salt} {data : Bytes}
    (h : ks.encode password salts = .ok data) : decode data password = .ok ks := by
  obtain ⟨body, hbody, hdata⟩ := encode_eq_ok.mp h
  have hks : ks = ⟨Std.ExtTreeMap.ofList ks.entries.toList⟩ := by rw [Dict.ofList_toList]
  exact decode_eq_ok.mpr ⟨body, _, [], hdata, announces_of_encodeBody hbody, hks⟩

/-- An encoding is decoded to the keystore it was made from, with all its entries and creation
times, and there is one exactly if all lengths fit in their fields. -/
theorem encode_round_trip (ks : KeyStore) (password : String) (salts : Nat → Salt) :
    (∀ data, ks.encode password salts = .ok data → decode data password = .ok ks) ∧
      ((∃ data, ks.encode password salts = .ok data) ↔ ks.Fits password) :=
  ⟨fun _ h => decode_encode h, exists_encode_iff⟩

/-- A key with a chain of two certificates beside a trusted certificate. -/
theorem encode_round_trip_key_and_ca :
    let salts : Nat → Salt := fun _ => ⟨List.replicate 20 7, rfl⟩
    let ks := (empty.insert "alias" 7 (.privateKey [1, 2, 3] [[4], [5, 6]])).insert "ca" (-1)
      (.trustedCertificate [7])
    ∃ data, ks.encode "changeme" salts = .ok data ∧ decode data "changeme" = .ok ks := by
  intro salts ks
  have hkey : ∀ salt, (Protection.protect [1, 2, 3] (passwordBytes "changeme") salt).length
      < UInt32.size := by
    intro salt
    rw [Protection.protect_eq_element, Der.length_element, Protection.length_envelope]
    decide
  have hfits : ks.Fits "changeme" := by
    refine ⟨by decide, fun name e he => ?_⟩
    simp only [ks, insert, empty, Std.ExtTreeMap.getElem?_insert, Std.compare_eq_iff_eq,
      Std.ExtTreeMap.getElem?_empty] at he
    split at he
    · rename_i hname
      subst hname
      cases he
      have hcert : ([7] : Bytes).length < UInt32.size := by decide
      exact ⟨by decide, hcert⟩
    · split at he
      · rename_i hname
        subst hname
        cases he
        exact ⟨by decide, hkey, by decide, by decide⟩
      · cases he
  obtain ⟨data, h⟩ := (encode_round_trip ks "changeme" salts).2.mpr hfits
  exact ⟨data, h, (encode_round_trip ks "changeme" salts).1 data h⟩

end CertKeeper.KeyStore
