import CertKeeper.Proofs.Agreement
import CertKeeper.Proofs.Keystore.OfPem
import CertKeeper.Sync.JavaKeystores

/-!
# Encodings of one content

A keystore is encoded with salts that differ each time, and its entries name the time at which they
were made. Neither decides whether it can be encoded, nor why it cannot, nor what the encoding
holds.
-/

namespace CertKeeper

namespace Keystore.Encoding

def timeless (e : String × StoredEntry) : String × Entry := (e.1, e.2.entry)

theorem failAlike_field {b b' : Bytes} (h : b'.length = b.length) :
    FailAlike (field b) (field b') := by
  unfold field
  rw [h]
  exact (Agree.failAlike_self _).bind fun _ _ _ => .ok trivial

theorem failAlike_entry (password : Bytes) (salt salt' : Salt) (name : String)
    {e e' : StoredEntry} (h : e.entry = e'.entry) :
    FailAlike (entry password salt name e) (entry password salt' name e') := by
  unfold entry
  rw [h]
  refine (Agree.failAlike_self _).bind fun _ _ _ => ?_
  cases e'.entry with
  | privateKey key chain =>
    have hlength := Protection.length_protect_eq key password password salt' salt
    refine (failAlike_field hlength).bind fun _ _ _ => ?_
    refine (Agree.failAlike_self _).bind fun _ _ _ => ?_
    exact (Agree.failAlike_self _).bind fun _ _ _ => .ok trivial
  | trustedCertificate c => exact (Agree.failAlike_self _).bind fun _ _ _ => .ok trivial

theorem failAlike_entries (password : Bytes) (salts salts' : Nat → Salt) (i : Nat)
    {es es' : List (String × StoredEntry)} (h : es.map timeless = es'.map timeless) :
    FailAlike (entries password salts i es) (entries password salts' i es') := by
  induction es generalizing es' i with
  | nil =>
    cases List.map_eq_nil_iff.mp h.symm
    exact .ok trivial
  | cons e es ih =>
    cases es' with
    | nil => cases h
    | cons e' es' =>
      obtain ⟨hhead, hrest⟩ := List.cons.inj h
      obtain ⟨name, e⟩ := e
      obtain ⟨name', e'⟩ := e'
      obtain ⟨rfl, hentry⟩ := Prod.mk.inj hhead
      refine (failAlike_entry password _ _ name hentry).bind fun _ _ _ => ?_
      exact (ih (i + 1) hrest).bind fun _ _ _ => .ok trivial

end Keystore.Encoding

namespace KeyStore

open Keystore

variable {a b : KeyStore} {password : String}

/-- Whether one content can be encoded, or why it cannot, is known from the content. -/
theorem failAlike_encode (h : a.contents = b.contents) (password : String)
    (salts salts' : Nat → Salt) :
    FailAlike (a.encode password salts) (b.encode password salts') := by
  have hsize : a.size = b.size := by rw [← length_contents, h, length_contents]
  have hentries : a.entries.toList.map Encoding.timeless
      = b.entries.toList.map Encoding.timeless := h
  have hbody : FailAlike (a.encodeBody (passwordBytes password) salts)
      (b.encodeBody (passwordBytes password) salts') := by
    unfold encodeBody
    rw [hsize]
    refine (Agree.failAlike_self _).bind fun _ _ _ => ?_
    exact (Encoding.failAlike_entries _ salts salts' 0 hentries).bind fun _ _ _ => .ok trivial
  exact hbody.bind fun _ _ _ => .ok trivial

/-- Whether two files are both missing, or encodings of one content under one password. Then they
differ at most in salts, in the times at which entries were made, and in what depends on these. -/
def Reencoded (password : String) : Option Bytes → Option Bytes → Prop
  | none, none => True
  | some file, some file' => ∃ (a b : KeyStore) (salts salts' : Nat → Salt),
      a.encode password salts = .ok file ∧ b.encode password salts' = .ok file' ∧
        a.contents = b.contents
  | _, _ => False

theorem agree_encode (h : a.contents = b.contents) (password : String) (salts salts' : Nat → Salt) :
    Agree (fun file file' => Reencoded password (some file) (some file'))
      (a.encode password salts) (b.encode password salts') :=
  Agree.of_failAlike (failAlike_encode h password salts salts') fun _ _ hfile hfile' =>
    ⟨a, b, salts, salts', hfile, hfile', h⟩

theorem agree_ofKeyPair (certificates key : Bytes) (created created' : Int64) :
    Agree (fun a b => a.contents = b.contents) (ofKeyPair certificates key created)
      (ofKeyPair certificates key created') := by
  unfold ofKeyPair
  split
  · exact .error _
  · split
    · exact .error _
    · split
      · exact .error _
      · exact .ok ((holds_insert_empty ..).contents_eq (holds_insert_empty ..))

theorem agree_encodeKeyPair (h h' : Host) (created created' : Int64) (password : String)
    (certificates key : Bytes) :
    Agree (fun file file' => Reencoded password (some file) (some file'))
      (encodeKeyPair h created password certificates key)
      (encodeKeyPair h' created' password certificates key) :=
  (agree_ofKeyPair certificates key created created').bind fun _ _ hcontents =>
    agree_encode hcontents password h.salts h'.salts

theorem agree_encodeBundle (h h' : Host) (created created' : Int64) (password : String)
    (bundle : Option Bytes) :
    Agree (Reencoded password) (encodeBundle h created password bundle)
      (encodeBundle h' created' password bundle) := by
  cases bundle with
  | none => exact .ok trivial
  | some b =>
    have hcontents := (ofBundle_holds b created).contents_eq (ofBundle_holds b created')
    exact (agree_encode hcontents password h.salts h'.salts).map fun _ _ hfiles => hfiles

end KeyStore
end CertKeeper
