import CertKeeper.Keystore.Codec
import CertKeeper.Proofs.Dict
import CertKeeper.Proofs.Except
import CertKeeper.Proofs.Keystore.Protection
import CertKeeper.Proofs.Text.Utf8
import Mathlib.Data.List.Forall2

/-!
# What is decoded

The layout of an encoded keystore as a relation between entries and bytes, apart from the decoder. A
byte string is decoded exactly if it is sealed with its digest and what is sealed begins with a
header and the entries that the header announces. Several entries may have one alias, of which the
last one counts, and any bytes may follow the last entry.
-/

namespace CertKeeper.Keystore

namespace Encoding

theorem count_eq_ok {n : Nat} {what : String} {b : Bytes} :
    count n what = .ok b ↔ n < UInt32.size ∧ b = u32 n := by
  by_cases h : n < UInt32.size <;> simp [count, h, eq_comm]

theorem text_eq_ok {s : String} {b : Bytes} :
    text s = .ok b ↔ (Bytes.ofString s).length < UInt16.size ∧
      b = Bytes.ofNat 2 (Bytes.ofString s).length ++ Bytes.ofString s := by
  by_cases h : (Bytes.ofString s).length < UInt16.size <;> simp [text, h, eq_comm]

theorem field_eq_ok {c b : Bytes} :
    field c = .ok b ↔ c.length < UInt32.size ∧ b = u32 c.length ++ c := by
  by_cases h : c.length < UInt32.size <;> simp [field, count, h, eq_comm]

end Encoding

namespace Layout

def stamp (created : Int64) : Bytes := Bytes.ofNat 8 created.toUInt64.toNat

/-- Whether `w` is a certificate after the name of its type, which may be any text. -/
def IsCertificate (c w : Bytes) : Prop :=
  ∃ kind k f, Encoding.text kind = .ok k ∧ Encoding.field c = .ok f ∧ w = k ++ f

/-- Whether `w` is an entry after its tag. A key may be concealed in any bytes from which it is
recovered. -/
inductive IsBody (password : Bytes) : Nat → Entry → Bytes → Prop where
  | privateKey {concealed key f : Bytes} {chain ws : List Bytes}
      (hfield : Encoding.field concealed = .ok f)
      (hkey : Protection.recover concealed password = .ok key)
      (hcount : chain.length < UInt32.size) (hchain : List.Forall₂ IsCertificate chain ws) :
      IsBody password privateKeyTag (.privateKey key chain)
        (f ++ Encoding.u32 chain.length ++ ws.flatten)
  | trustedCertificate {c w : Bytes} (hc : IsCertificate c w) :
      IsBody password trustedCertificateTag (.trustedCertificate c) w

/-- Whether `w` is an entry with its alias. -/
def IsEntry (password : Bytes) (e : String × StoredEntry) (w : Bytes) : Prop :=
  ∃ tag name body, Encoding.text e.1 = .ok name ∧ IsBody password tag e.2.entry body ∧
    w = Encoding.u32 tag ++ name ++ stamp e.2.created ++ body

/-- Whether a body begins with a header and the entries that the header announces, before `unread`. -/
def Announces (password : Bytes) (es : List (String × StoredEntry)) (unread body : Bytes) : Prop :=
  es.length < UInt32.size ∧ ∃ ws, List.Forall₂ (IsEntry password) es ws ∧
    body = Encoding.u32 magic ++ Encoding.u32 version ++ Encoding.u32 es.length ++ ws.flatten
      ++ unread

theorem IsBody.tag_lt {password : Bytes} {tag : Nat} {e : Entry} {w : Bytes}
    (h : IsBody password tag e w) : tag < UInt32.size := by
  cases h <;> decide

end Layout

namespace Decoding

open Layout

theorem take_append {n : Nat} {b : Bytes} (h : b.length = n) (rest : Bytes) :
    take n (b ++ rest) = .ok (b, rest) := by
  subst h
  simp [take]

theorem number_append {w n : Nat} (h : n < 256 ^ w) (rest : Bytes) :
    number w (Bytes.ofNat w n ++ rest) = .ok (n, rest) := by
  simp only [number, take_append (Bytes.length_ofNat w n), ok_bind, Bytes.toNat_ofNat_of_lt h]

theorem number_u32 {n : Nat} (h : n < UInt32.size) (rest : Bytes) :
    number 4 (Encoding.u32 n ++ rest) = .ok (n, rest) :=
  number_append (by simpa [UInt32.size] using h) rest

theorem text_append {s : String} {b : Bytes} (h : Encoding.text s = .ok b) (rest : Bytes) :
    text (b ++ rest) = .ok (s, rest) := by
  obtain ⟨hlen, rfl⟩ := Encoding.text_eq_ok.mp h
  have hnumber : (Bytes.ofString s).length < 256 ^ 2 := by simpa [UInt16.size] using hlen
  simp only [text, List.append_assoc, number_append hnumber, take_append rfl, ok_bind,
    Bytes.text?_ofString]

theorem field_append {c b : Bytes} (h : Encoding.field c = .ok b) (rest : Bytes) :
    field (b ++ rest) = .ok (c, rest) := by
  obtain ⟨hlen, rfl⟩ := Encoding.field_eq_ok.mp h
  simp only [field, List.append_assoc, number_u32 hlen, take_append rfl, ok_bind]

variable {b rest : Bytes}

theorem take_eq_ok {n : Nat} {x : Bytes} :
    take n b = .ok (x, rest) ↔ x.length = n ∧ b = x ++ rest := by
  constructor
  · intro h
    unfold take at h
    split at h
    · cases h
    · rename_i hlen
      cases h
      exact ⟨List.length_take_of_le (Nat.le_of_not_lt hlen), (List.take_append_drop n b).symm⟩
  · rintro ⟨hlen, rfl⟩
    exact take_append hlen rest

theorem number_eq_ok {w n : Nat} :
    number w b = .ok (n, rest) ↔ n < 256 ^ w ∧ b = Bytes.ofNat w n ++ rest := by
  constructor
  · intro h
    simp only [number, bind_eq_ok, Prod.exists] at h
    obtain ⟨x, _, hx, ⟨⟩⟩ := h
    obtain ⟨rfl, rfl⟩ := take_eq_ok.mp hx
    exact ⟨Bytes.toNat_lt x, by rw [Bytes.ofNat_toNat]⟩
  · rintro ⟨hlt, rfl⟩
    exact number_append hlt rest

theorem u32_eq_ok {n : Nat} :
    number 4 b = .ok (n, rest) ↔ n < UInt32.size ∧ b = Encoding.u32 n ++ rest := by
  have hsize : UInt32.size = 256 ^ 4 := by decide
  rw [hsize]
  exact number_eq_ok

theorem text_eq_ok {s : String} :
    text b = .ok (s, rest) ↔ ∃ w, Encoding.text s = .ok w ∧ b = w ++ rest := by
  constructor
  · intro h
    simp only [text, bind_eq_ok, Prod.exists] at h
    obtain ⟨n, _, hn, x, _, hx, h⟩ := h
    obtain ⟨hlt, rfl⟩ := number_eq_ok.mp hn
    obtain ⟨rfl, rfl⟩ := take_eq_ok.mp hx
    split at h
    · rename_i hs
      cases h
      obtain rfl := Bytes.text?_eq_some.mp hs
      exact ⟨_, Encoding.text_eq_ok.mpr ⟨by simpa [UInt16.size] using hlt, rfl⟩,
        (List.append_assoc ..).symm⟩
    · cases h
  · rintro ⟨w, hw, rfl⟩
    exact text_append hw rest

theorem field_eq_ok {c : Bytes} :
    field b = .ok (c, rest) ↔ ∃ w, Encoding.field c = .ok w ∧ b = w ++ rest := by
  constructor
  · intro h
    simp only [field, bind_eq_ok, Prod.exists] at h
    obtain ⟨n, _, hn, hc⟩ := h
    obtain ⟨hlt, rfl⟩ := u32_eq_ok.mp hn
    obtain ⟨rfl, rfl⟩ := take_eq_ok.mp hc
    exact ⟨_, Encoding.field_eq_ok.mpr ⟨hlt, rfl⟩, (List.append_assoc ..).symm⟩
  · rintro ⟨w, hw, rfl⟩
    exact field_append hw rest

theorem certificate_eq_ok {c : Bytes} :
    certificate b = .ok (c, rest) ↔ ∃ w, IsCertificate c w ∧ b = w ++ rest := by
  constructor
  · intro h
    simp only [certificate, bind_eq_ok, Prod.exists] at h
    obtain ⟨kind, _, hkind, hc⟩ := h
    obtain ⟨k, hk, rfl⟩ := text_eq_ok.mp hkind
    obtain ⟨f, hf, rfl⟩ := field_eq_ok.mp hc
    exact ⟨k ++ f, ⟨kind, k, f, hk, hf, rfl⟩, (List.append_assoc ..).symm⟩
  · rintro ⟨_, ⟨kind, k, f, hk, hf, rfl⟩, rfl⟩
    simp only [certificate, List.append_assoc, text_append hk, field_append hf, ok_bind]

/-- A reader that reads one thing after the other reads a series of what is read one by one. -/
theorem series_eq_ok {α : Type} {R : α → Bytes → Prop} {one : Bytes → Except Error (α × Bytes)}
    {many : Nat → Bytes → Except Error (List α × Bytes)}
    (hzero : ∀ b, many 0 b = .ok ([], b))
    (hsucc : ∀ n b, many (n + 1) b = one b >>= fun p => many n p.2 >>= fun q =>
      .ok (p.1 :: q.1, q.2))
    (hone : ∀ {x b rest}, one b = .ok (x, rest) ↔ ∃ w, R x w ∧ b = w ++ rest)
    {n : Nat} {xs : List α} : many n b = .ok (xs, rest) ↔
      xs.length = n ∧ ∃ ws, List.Forall₂ R xs ws ∧ b = ws.flatten ++ rest := by
  induction n generalizing xs b with
  | zero =>
    rw [hzero, List.length_eq_zero_iff]
    constructor
    · rintro ⟨⟩
      exact ⟨rfl, [], .nil, rfl⟩
    · rintro ⟨rfl, ws, hws, rfl⟩
      cases hws
      rfl
  | succ n ih =>
    rw [hsucc]
    constructor
    · intro h
      simp only [bind_eq_ok, Prod.exists] at h
      obtain ⟨x, _, hx, others, _, hothers, ⟨⟩⟩ := h
      obtain ⟨w, hw, rfl⟩ := hone.mp hx
      obtain ⟨rfl, ws, hws, rfl⟩ := ih.mp hothers
      exact ⟨rfl, w :: ws, .cons hw hws, by simp⟩
    · rintro ⟨hlen, ws, hws, rfl⟩
      cases hws with
      | nil => cases hlen
      | @cons x w xs ws hw hws =>
        have hx : one ((w :: ws).flatten ++ rest) = .ok (x, ws.flatten ++ rest) :=
          hone.mpr ⟨w, hw, by simp⟩
        have hxs : many n (ws.flatten ++ rest) = .ok (xs, rest) :=
          ih.mpr ⟨Nat.succ.inj hlen, ws, hws, rfl⟩
        simp only [hx, hxs, ok_bind]

theorem certificates_eq_ok {n : Nat} {cs : List Bytes} : certificates n b = .ok (cs, rest) ↔
    cs.length = n ∧ ∃ ws, List.Forall₂ IsCertificate cs ws ∧ b = ws.flatten ++ rest :=
  series_eq_ok (fun _ => rfl) (fun _ _ => rfl) certificate_eq_ok

theorem body_eq_ok {password : Bytes} {tag : Nat} {e : Entry} :
    body password tag b = .ok (e, rest) ↔ ∃ w, IsBody password tag e w ∧ b = w ++ rest := by
  constructor
  · intro h
    unfold body at h
    split at h
    · rename_i htag
      subst htag
      simp only [bind_eq_ok, Prod.exists] at h
      obtain ⟨concealed, _, hfield, key, hkey, n, _, hn, chain, _, hchain, ⟨⟩⟩ := h
      obtain ⟨f, hf, rfl⟩ := field_eq_ok.mp hfield
      obtain ⟨hlt, rfl⟩ := u32_eq_ok.mp hn
      obtain ⟨rfl, ws, hws, rfl⟩ := certificates_eq_ok.mp hchain
      exact ⟨_, .privateKey hf hkey hlt hws, by simp only [List.append_assoc]⟩
    · split at h
      · rename_i htag
        subst htag
        simp only [bind_eq_ok, Prod.exists] at h
        obtain ⟨c, _, hc, ⟨⟩⟩ := h
        obtain ⟨w, hw, rfl⟩ := certificate_eq_ok.mp hc
        exact ⟨w, .trustedCertificate hw, rfl⟩
      · cases h
  · rintro ⟨w, hw, rfl⟩
    cases hw with
    | @privateKey concealed key f chain ws hf hkey hlt hws =>
      have hchain : certificates chain.length (ws.flatten ++ rest) = .ok (chain, rest) :=
        certificates_eq_ok.mpr ⟨rfl, ws, hws, rfl⟩
      simp only [body, if_true, List.append_assoc, field_append hf, hkey, number_u32 hlt, hchain,
        ok_bind]
    | trustedCertificate hc =>
      have hne : trustedCertificateTag ≠ privateKeyTag := by decide
      simp only [body, if_neg hne, if_true, certificate_eq_ok.mpr ⟨_, hc, rfl⟩, ok_bind]

theorem number_stamp (created : Int64) (rest : Bytes) :
    number 8 (stamp created ++ rest) = .ok (created.toUInt64.toNat, rest) :=
  number_append (by simpa using created.toUInt64.toNat_lt) rest

theorem entry_eq_ok {password : Bytes} {e : String × StoredEntry} :
    entry password b = .ok (e, rest) ↔ ∃ w, IsEntry password e w ∧ b = w ++ rest := by
  constructor
  · intro h
    simp only [entry, bind_eq_ok, Prod.exists] at h
    obtain ⟨tag, _, htag, name, _, hname, created, _, hcreated, stored, _, hbody, ⟨⟩⟩ := h
    obtain ⟨-, rfl⟩ := u32_eq_ok.mp htag
    obtain ⟨w, hw, rfl⟩ := text_eq_ok.mp hname
    obtain ⟨hlt, rfl⟩ := number_eq_ok.mp hcreated
    obtain ⟨v, hv, rfl⟩ := body_eq_ok.mp hbody
    have hstamp : stamp (UInt64.ofNat created).toInt64 = Bytes.ofNat 8 created := by
      have hlt : created < UInt64.size := by simpa [UInt64.size] using hlt
      simp [stamp, UInt64.toNat_ofNat_of_lt' hlt]
    exact ⟨_, ⟨tag, w, v, hw, hv, rfl⟩, by simp only [hstamp, List.append_assoc]⟩
  · rintro ⟨_, ⟨tag, name, w, hname, hbody, rfl⟩, rfl⟩
    have hrest : body password tag (w ++ rest) = .ok (e.2.entry, rest) :=
      body_eq_ok.mpr ⟨w, hbody, rfl⟩
    simp only [entry, List.append_assoc, number_u32 hbody.tag_lt, text_append hname, number_stamp,
      hrest, ok_bind]
    simp

theorem entries_eq_ok {password : Bytes} {n : Nat} {es : List (String × StoredEntry)} :
    entries password n b = .ok (es, rest) ↔
      es.length = n ∧ ∃ ws, List.Forall₂ (IsEntry password) es ws ∧ b = ws.flatten ++ rest :=
  series_eq_ok (fun _ => rfl) (fun _ _ => rfl) entry_eq_ok

theorem header_eq_ok {password : Bytes} {es : List (String × StoredEntry)} {unread : Bytes} :
    header password b = .ok (es, unread) ↔ Announces password es unread b := by
  constructor
  · intro h
    simp only [header, bind_eq_ok, Prod.exists] at h
    obtain ⟨found, _, hfound, h⟩ := h
    split at h
    · cases h
    · rename_i hmagic
      simp only [bind_eq_ok, Prod.exists] at h
      obtain ⟨found', _, hfound', h⟩ := h
      split at h
      · cases h
      · rename_i hversion
        simp only [bind_eq_ok, Prod.exists] at h
        obtain ⟨n, _, hn, h⟩ := h
        obtain rfl := not_not.mp hmagic
        obtain rfl := not_not.mp hversion
        obtain ⟨-, rfl⟩ := u32_eq_ok.mp hfound
        obtain ⟨-, rfl⟩ := u32_eq_ok.mp hfound'
        obtain ⟨hlt, rfl⟩ := u32_eq_ok.mp hn
        obtain ⟨rfl, ws, hws, rfl⟩ := entries_eq_ok.mp h
        exact ⟨hlt, ws, hws, by simp only [List.append_assoc]⟩
  · rintro ⟨hlt, ws, hws, rfl⟩
    have hmagic : magic < UInt32.size := by decide
    have hversion : version < UInt32.size := by decide
    have hentries : entries password es.length (ws.flatten ++ unread) = .ok (es, unread) :=
      entries_eq_ok.mpr ⟨rfl, ws, hws, rfl⟩
    simp only [header, List.append_assoc, number_u32 hmagic, number_u32 hversion, number_u32 hlt,
      ok_bind, ne_eq, not_true_eq_false, if_false, hentries]

end Decoding

end CertKeeper.Keystore

namespace CertKeeper.KeyStore

open Keystore Layout

theorem length_storeDigest (password body : Bytes) :
    (storeDigest password body).length = Digest.Sha1.size :=
  Digest.Sha1.length_digest _

/-- What decoding makes of a body and its digest is what it makes of the body. -/
theorem decode_sealed (password : String) (body : Bytes) :
    decode (body ++ storeDigest (passwordBytes password) body) password =
      (Decoding.header (passwordBytes password) body).bind fun p =>
        .ok ⟨p.1.foldl (fun d e => d.insert e.1 e.2) ∅⟩ := by
  let digest := storeDigest (passwordBytes password) body
  have hdigest : digest.length = Digest.Sha1.size := length_storeDigest _ body
  have hlen : (body ++ digest).length - Digest.Sha1.size = body.length := by
    rw [List.length_append, hdigest, Nat.add_sub_cancel]
  have hshort : ¬ (body ++ digest).length < Digest.Sha1.size := by
    rw [List.length_append, hdigest]
    omega
  show decode (body ++ digest) password = _
  simp only [decode, if_neg hshort, hlen, List.take_left, List.drop_left]
  simp only [digest, ne_eq, not_true_eq_false, if_false]
  rfl

section

variable {data body : Bytes} {password : String} {ks : KeyStore}

def IsSealed (password : String) (data body : Bytes) : Prop :=
  data = body ++ storeDigest (passwordBytes password) body

theorem IsSealed.unique {body' : Bytes} (h : IsSealed password data body)
    (h' : IsSealed password data body') : body' = body := by
  have hlen : (storeDigest (passwordBytes password) body').length
      = (storeDigest (passwordBytes password) body).length := by
    rw [length_storeDigest, length_storeDigest]
  exact (List.append_inj' (h'.symm.trans h) hlen).1

theorem isSealed_of_decode (h : decode data password = .ok ks) :
    IsSealed password data (data.take (data.length - Digest.Sha1.size)) := by
  simp only [decode] at h
  split at h
  · cases h
  · split at h
    · cases h
    · rename_i hdigest
      rw [IsSealed, not_not.mp hdigest, List.take_append_drop]

theorem IsSealed.decode_eq_ok (h : IsSealed password data body) :
    decode data password = .ok ks ↔ ∃ es unread,
      Announces (passwordBytes password) es unread body ∧ ks = ⟨Std.ExtTreeMap.ofList es⟩ := by
  rw [h, decode_sealed]
  simp only [← Std.ExtTreeMap.ofList_eq_foldl, ← Decoding.header_eq_ok]
  cases Decoding.header (passwordBytes password) body with
  | error e => simp [Except.bind]
  | ok p => simp [Except.bind, Prod.ext_iff, eq_comm]

theorem decode_eq_ok : decode data password = .ok ks ↔ ∃ body es unread,
    IsSealed password data body ∧ Announces (passwordBytes password) es unread body ∧
      ks = ⟨Std.ExtTreeMap.ofList es⟩ := by
  constructor
  · intro h
    have hbody := isSealed_of_decode h
    obtain ⟨es, unread, hes, hks⟩ := hbody.decode_eq_ok.mp h
    exact ⟨_, es, unread, hbody, hes, hks⟩
  · rintro ⟨body, es, unread, hbody, hes, hks⟩
    exact hbody.decode_eq_ok.mpr ⟨es, unread, hes, hks⟩

end

/-- A byte string is decoded exactly if it is sealed with its digest and what is sealed begins with
the header and the entries that the header announces. Each alias then has the last of its entries, so
that the keystore has as many entries as are announced exactly if no alias occurs twice. What follows
the entries is passed over. -/
theorem decode_ok_iff_announced (data : Bytes) (password : String) (ks : KeyStore) :
    decode data password = .ok ks ↔ ∃ body es unread,
      IsSealed password data body ∧ Announces (passwordBytes password) es unread body ∧
        (∀ name, ks.entries[name]? = es.reverse.lookup name) ∧
          ks.size ≤ es.length ∧ (ks.size = es.length ↔ (es.map Prod.fst).Nodup) := by
  rw [decode_eq_ok]
  constructor
  · rintro ⟨body, es, unread, hbody, hes, rfl⟩
    exact ⟨body, es, unread, hbody, hes, Dict.getElem?_ofList es, Std.ExtTreeMap.size_ofList_le,
      Dict.size_ofList_eq_length_iff⟩
  · rintro ⟨body, es, unread, hbody, hes, hentries, -⟩
    have hks : ks.entries = Std.ExtTreeMap.ofList es :=
      Std.ExtTreeMap.ext_getElem? fun name => by rw [hentries, Dict.getElem?_ofList]
    exact ⟨body, es, unread, hbody, hes, congrArg KeyStore.mk hks⟩

namespace Tolerated

def certificateEntry (c : UInt8) : Bytes :=
  [0, 0, 0, 2] ++ [0, 2, 99, 97] ++ [0, 0, 0, 0, 0, 0, 0, 0] ++ [0, 5, 88, 46, 53, 48, 57]
    ++ [0, 0, 0, 1, c]

/-- Two entries under one alias, and a byte that belongs to none. -/
def body : Bytes :=
  [0xFE, 0xED, 0xFE, 0xED] ++ [0, 0, 0, 2] ++ [0, 0, 0, 2] ++ certificateEntry 1
    ++ certificateEntry 2 ++ [0]

def data : Bytes := body ++ storeDigest (passwordBytes "changeme") body

def entry (c : UInt8) : String × StoredEntry := ("ca", ⟨0, .trustedCertificate [c]⟩)

end Tolerated

open Tolerated in
/-- A keystore of one entry is decoded from bytes that announce two, with a byte left unread. -/
theorem doubled_alias_and_unread_byte_tolerated :
    ∃ ks, decode data "changeme" = .ok ks ∧ ks.size = 1 ∧ ∀ body es unread,
      IsSealed "changeme" data body → Announces (passwordBytes "changeme") es unread body →
        es.length = 2 ∧ unread = [0] := by
  have hheader : (Decoding.header (passwordBytes "changeme") Tolerated.body).toOption
      = some ([entry 1, entry 2], [0]) := by
    decide +kernel
  have hannounces : Announces (passwordBytes "changeme") [entry 1, entry 2] [0] Tolerated.body := by
    rw [← Decoding.header_eq_ok]
    cases hread : Decoding.header (passwordBytes "changeme") Tolerated.body with
    | error e => simp [hread, Except.toOption] at hheader
    | ok p => simpa [hread, Except.toOption] using hheader
  refine ⟨_, decode_eq_ok.mpr ⟨_, _, _, rfl, hannounces, rfl⟩, by decide +kernel, ?_⟩
  intro body es unread hbody hes
  rw [IsSealed.unique (rfl : IsSealed "changeme" data Tolerated.body) hbody,
    ← Decoding.header_eq_ok, Decoding.header_eq_ok.mpr hannounces] at hes
  cases hes
  exact ⟨rfl, rfl⟩

end CertKeeper.KeyStore
