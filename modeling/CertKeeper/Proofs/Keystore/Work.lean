import CertKeeper.Proofs.Keystore.Layout

/-!
# The work of decoding

A decoder that keeps account of the bytes it has read and of the entries and certificates it has begun
to read. It comes to the same outcome as the decoder, and what it has begun is bounded by what it has
read, whatever counts it has read there.
-/

namespace CertKeeper.Keystore

/-- The account of a decoder: what it has read and what it has not, and how many entries, and how many
certificates in chains, it has begun to read. -/
structure Meter where
  read : Bytes
  unread : Bytes
  entries : Nat
  certificates : Nat

namespace Meter

def start (b : Bytes) : Meter := ⟨[], b, 0, 0⟩

/-- Whether at least `n` bytes at the beginning of `whole` have been read, and `i` entries and `k`
certificates been begun. -/
structure Spent (whole : Bytes) (n i k : Nat) (m : Meter) : Prop where
  append_eq : m.read ++ m.unread = whole
  le_length : n ≤ m.read.length
  entries_eq : m.entries = i
  certificates_eq : m.certificates = k

theorem spent_start (b : Bytes) : (start b).Spent b 0 0 0 := ⟨rfl, Nat.zero_le _, rfl, rfl⟩

theorem spent_self (m : Meter) :
    m.Spent (m.read ++ m.unread) m.read.length m.entries m.certificates :=
  ⟨rfl, Nat.le_refl _, rfl, rfl⟩

section

variable {whole : Bytes} {n i k : Nat} {m : Meter}

theorem Spent.mono (h : m.Spent whole n i k) {n' : Nat} (hn : n' ≤ n) : m.Spent whole n' i k :=
  { h with le_length := hn.trans h.le_length }

theorem Spent.weaken (h : m.Spent whole n i k) {n' i' k' : Nat} (hn : n' ≤ n) (hi : i = i')
    (hk : k = k') : m.Spent whole n' i' k' := by
  subst hi hk
  exact h.mono hn

theorem Spent.add_le (h : m.Spent whole n i k) : n + m.unread.length ≤ whole.length := by
  have hread := h.le_length
  rw [← h.append_eq, List.length_append]
  omega

theorem Spent.le_unread {m' : Meter} (h : m'.Spent (m.read ++ m.unread) (m.read.length + n) i k) :
    n ≤ m.unread.length := by
  have hle := h.add_le
  rw [List.length_append] at hle
  omega

end

end Meter

/-- What is read by a decoder that keeps account. -/
abbrev Metered := ExceptT Error (StateM Meter)

namespace Metered

variable {α β : Type}

/-- What is read from a given account on, and the account after it. -/
def outcome (x : Metered α) (m : Meter) : Except Error α × Meter := (x.run.run m).run

def take (n : Nat) : Metered Bytes := do
  let m ← get
  if m.unread.length < n then throw .truncated
  else
    set { m with read := m.read ++ m.unread.take n, unread := m.unread.drop n }
    return m.unread.take n

def number (width : Nat) : Metered Nat := do
  let x ← take width
  return x.toNat

def text : Metered String := do
  let n ← number 2
  let x ← take n
  match x.text? with
  | some s => return s
  | none => throw .invalidString

def field : Metered Bytes := do
  let n ← number 4
  take n

def certificate : Metered Bytes := do
  let _ ← text
  field

def certificates : Nat → Metered (List Bytes)
  | 0 => return []
  | n + 1 => do
    modify fun m => { m with certificates := m.certificates + 1 }
    let first ← certificate
    let others ← certificates n
    return first :: others

def body (password : Bytes) (tag : Nat) : Metered Entry :=
  if tag = privateKeyTag then do
    let hidden ← field
    let key ← MonadExcept.ofExcept (Protection.recover hidden password)
    let n ← number 4
    let chain ← certificates n
    return .privateKey key chain
  else if tag = trustedCertificateTag then do
    let c ← certificate
    return .trustedCertificate c
  else throw (.unknownTag tag)

def entry (password : Bytes) : Metered (String × StoredEntry) := do
  let tag ← number 4
  let name ← text
  let created ← number 8
  let e ← body password tag
  return (name, ⟨(UInt64.ofNat created).toInt64, e⟩)

def entries (password : Bytes) : Nat → Metered (List (String × StoredEntry))
  | 0 => return []
  | n + 1 => do
    modify fun m => { m with entries := m.entries + 1 }
    let first ← entry password
    let others ← entries password n
    return first :: others

def header (password : Bytes) : Metered (List (String × StoredEntry)) := do
  let found ← number 4
  if found ≠ magic then throw (.badMagic found)
  else
    let found ← number 4
    if found ≠ version then throw (.unsupportedVersion found)
    else
      let n ← number 4
      entries password n

/-- Whether reading from the account `m` on comes to the same outcome as `plain` does on what is
unread, and to an account that is as `ok` says, or as `fail` says when it fails. -/
def Follows (x : Metered α) (plain : Bytes → Except Error (α × Bytes)) (m : Meter)
    (ok : α → Meter → Prop) (fail : Meter → Prop) : Prop :=
  match x.outcome m with
  | (.ok a, m') => plain m.unread = .ok (a, m'.unread) ∧ ok a m'
  | (.error e, m') => plain m.unread = .error e ∧ fail m'

theorem outcome_bind (x : Metered α) (f : α → Metered β) (m : Meter) :
    (x >>= f).outcome m = match x.outcome m with
      | (.ok a, m') => (f a).outcome m'
      | (.error e, m') => (.error e, m') := by
  simp only [outcome, ExceptT.run_bind, StateT.run_bind, Id.run_bind]
  rcases (x.run.run m).run with ⟨_ | _, _⟩ <;> rfl

namespace Follows

variable {m : Meter} {ok : α → Meter → Prop} {fail : Meter → Prop}

theorem pure {a : α} (h : ok a m) : Follows (Pure.pure a) (fun b => .ok (a, b)) m ok fail :=
  ⟨rfl, h⟩

theorem throw {e : Error} (h : fail m) :
    Follows (MonadExcept.throw e) (fun _ => .error e) m ok fail := ⟨rfl, h⟩

theorem bind {x : Metered β} {f : β → Metered α} {p : Bytes → Except Error (β × Bytes)}
    {g : β × Bytes → Except Error (α × Bytes)} {mid : β → Meter → Prop} {fail' : Meter → Prop}
    (hx : x.Follows p m mid fail')
    (hf : ∀ b m', mid b m' → (f b).Follows (fun rest => g (b, rest)) m' ok fail)
    (hfail : ∀ m', fail' m' → fail m') : (x >>= f).Follows (fun b => p b >>= g) m ok fail := by
  rw [Follows, outcome_bind]
  rw [Follows] at hx
  split at hx
  · rename_i b m' heq
    obtain ⟨hp, hmid⟩ := hx
    simp only [hp, ok_bind]
    exact hf b m' hmid
  · rename_i e m' heq
    obtain ⟨hp, hm'⟩ := hx
    simp only [hp, error_bind]
    exact ⟨trivial, hfail m' hm'⟩

theorem imp {x : Metered α} {p : Bytes → Except Error (α × Bytes)} {ok' : α → Meter → Prop}
    {fail' : Meter → Prop} (h : x.Follows p m ok fail) (hok : ∀ a m', ok a m' → ok' a m')
    (hfail : ∀ m', fail m' → fail' m') : x.Follows p m ok' fail' := by
  rw [Follows] at h ⊢
  split at h
  · exact ⟨h.1, hok _ _ h.2⟩
  · exact ⟨h.1, hfail _ h.2⟩

theorem ofExcept {y : Except Error β} {f : β → Metered α}
    {g : β → Bytes → Except Error (α × Bytes)}
    (hf : ∀ b, y = .ok b → (f b).Follows (g b) m ok fail) (hfail : fail m) :
    (MonadExcept.ofExcept y >>= f).Follows (fun b => y >>= fun a => g a b) m ok fail := by
  cases y with
  | ok b => exact hf b rfl
  | error e => exact ⟨rfl, hfail⟩

theorem count {u : Meter → Meter} {x : Metered α} {p : Bytes → Except Error (α × Bytes)}
    (h : x.Follows p (u m) ok fail) (hunread : (u m).unread = m.unread) :
    Follows (do modify u; x) p m ok fail := by
  rw [Follows, hunread] at h
  exact h

end Follows

section

variable {whole : Bytes} {n i k : Nat} {m : Meter}

theorem outcome_take (w : Nat) (m : Meter) : (take w).outcome m =
    if m.unread.length < w then (.error .truncated, m)
    else (.ok (m.unread.take w),
      { m with read := m.read ++ m.unread.take w, unread := m.unread.drop w }) := by
  have hget : (take w).outcome m = outcome (if m.unread.length < w then throw .truncated else do
      set { m with read := m.read ++ m.unread.take w, unread := m.unread.drop w }
      return m.unread.take w) m := rfl
  rw [hget]
  split <;> rfl

theorem follows_take (w : Nat) (h : m.Spent whole n i k) : (take w).Follows (Decoding.take w) m
    (fun _ m' => m'.Spent whole (n + w) i k) (fun m' => m'.Spent whole n i k) := by
  rw [Follows, outcome_take]
  by_cases hw : m.unread.length < w
  · rw [if_pos hw]
    exact ⟨if_pos hw, h⟩
  · rw [if_neg hw]
    refine ⟨if_neg hw, ?_, ?_, h.entries_eq, h.certificates_eq⟩
    · simp [h.append_eq]
    · have hn := h.le_length
      simp only [List.length_append, List.length_take]
      omega

theorem follows_number (w : Nat) (h : m.Spent whole n i k) :
    (number w).Follows (Decoding.number w) m (fun _ m' => m'.Spent whole (n + w) i k)
      (fun m' => m'.Spent whole n i k) :=
  (follows_take w h).bind (fun _ _ h' => .pure h') fun _ h' => h'

theorem follows_text (h : m.Spent whole n i k) : text.Follows Decoding.text m
    (fun _ m' => m'.Spent whole (n + 2) i k) (fun m' => m'.Spent whole n i k) := by
  refine (follows_number 2 h).bind (fun length m₁ h₁ => ?_) fun _ h' => h'
  refine (follows_take length h₁).bind (fun x m₂ h₂ => ?_) fun _ h' => h'.mono (Nat.le_add_right ..)
  simp only
  cases x.text? with
  | some s => exact .pure (h₂.mono (Nat.le_add_right ..))
  | none => exact .throw (h₂.mono (Nat.le_add_right_of_le (Nat.le_add_right ..)))

theorem follows_field (h : m.Spent whole n i k) : field.Follows Decoding.field m
    (fun _ m' => m'.Spent whole (n + 4) i k) (fun m' => m'.Spent whole n i k) := by
  refine (follows_number 4 h).bind (fun length m₁ h₁ => ?_) fun _ h' => h'
  exact (follows_take length h₁).imp (fun _ _ h' => h'.mono (Nat.le_add_right ..))
    fun _ h' => h'.mono (Nat.le_add_right ..)

theorem follows_certificate (h : m.Spent whole n i k) :
    certificate.Follows Decoding.certificate m (fun _ m' => m'.Spent whole (n + 6) i k)
      (fun m' => m'.Spent whole n i k) := by
  refine (follows_text h).bind (fun _ m₁ h₁ => ?_) fun _ h' => h'
  exact (follows_field h₁).imp (fun _ _ h' => h') fun _ h' => h'.mono (Nat.le_add_right ..)

/-- Of the certificates that are begun all but the last have been read, or all of them. -/
theorem follows_certificates (count : Nat) (h : m.Spent whole n i k) :
    (certificates count).Follows (Decoding.certificates count) m
      (fun cs m' => cs.length = count ∧ m'.Spent whole (n + 6 * count) i (k + count))
      (fun m' => ∃ j, m'.Spent whole (n + 6 * j) i (k + j + 1)) := by
  induction count generalizing m n k with
  | zero => exact .pure ⟨rfl, h⟩
  | succ count ih =>
    have hbegun : Meter.Spent whole n i (k + 1) { m with certificates := m.certificates + 1 } :=
      { h with certificates_eq := congrArg (· + 1) h.certificates_eq }
    refine .count ?_ rfl
    refine (follows_certificate hbegun).bind (fun c m₁ h₁ => ?_) fun m₁ h₁ => ⟨0, h₁⟩
    refine (ih h₁).bind (fun cs m₂ h₂ => .pure ⟨congrArg (· + 1) h₂.1, ?_⟩) fun m₂ h₂ => ?_
    · exact h₂.2.weaken (by omega) rfl (by omega)
    · obtain ⟨j, h₂⟩ := h₂
      exact ⟨j + 1, h₂.weaken (by omega) rfl (by omega)⟩

def chainLength : Entry → Nat
  | .privateKey _ chain => chain.length
  | .trustedCertificate _ => 0

/-- At least eight bytes are read before a chain is, so that the certificate of it that is begun last
has room as well. -/
theorem follows_body (password : Bytes) (tag : Nat) (h : m.Spent whole n i k) :
    (body password tag).Follows (Decoding.body password tag) m
      (fun e m' => m'.Spent whole (n + 6 + 6 * chainLength e) i (k + chainLength e))
      (fun m' => ∃ j, m'.Spent whole (n + 6 * j) i (k + j)) := by
  unfold body Decoding.body
  split
  · refine (follows_field h).bind (fun hidden m₁ h₁ => ?_) fun _ h' => ⟨0, h'⟩
    refine .ofExcept (fun key _ => ?_) ⟨0, h₁.mono (Nat.le_add_right ..)⟩
    refine (follows_number 4 h₁).bind (fun count m₂ h₂ => ?_)
      fun _ h' => ⟨0, h'.mono (Nat.le_add_right ..)⟩
    refine (follows_certificates count h₂).bind (fun chain m₃ h₃ => .pure ?_) fun m₃ h₃ => ?_
    · obtain ⟨rfl, h₃⟩ := h₃
      exact h₃.mono (by simp only [chainLength]; omega)
    · obtain ⟨j, h₃⟩ := h₃
      exact ⟨j + 1, h₃.mono (by omega)⟩
  · split
    · exact (follows_certificate h).bind (fun c _ h' => .pure h') fun _ h' => ⟨0, h'⟩
    · exact .throw ⟨0, h⟩

theorem follows_entry (password : Bytes) (h : m.Spent whole n i k) :
    (entry password).Follows (Decoding.entry password) m
      (fun e m' => m'.Spent whole (n + 20 + 6 * chainLength e.2.entry) i
        (k + chainLength e.2.entry))
      (fun m' => ∃ j, m'.Spent whole (n + 6 * j) i (k + j)) := by
  refine (follows_number 4 h).bind (fun tag m₁ h₁ => ?_) fun _ h' => ⟨0, h'⟩
  refine (follows_text h₁).bind (fun name m₂ h₂ => ?_)
    fun _ h' => ⟨0, h'.mono (Nat.le_add_right ..)⟩
  refine (follows_number 8 h₂).bind (fun created m₃ h₃ => ?_)
    fun _ h' => ⟨0, h'.mono (by omega)⟩
  refine (follows_body password tag h₃).bind (fun e m₄ h₄ => .pure ?_) fun m₄ h₄ => ?_
  · exact h₄.mono (by simp only; omega)
  · obtain ⟨j, h₄⟩ := h₄
    exact ⟨j, h₄.mono (by omega)⟩

def chainLengths (es : List (String × StoredEntry)) : Nat := (es.map (chainLength ·.2.entry)).sum

theorem follows_entries (password : Bytes) (count : Nat) (h : m.Spent whole n i k) :
    (entries password count).Follows (Decoding.entries password count) m
      (fun es m' => es.length = count ∧
        m'.Spent whole (n + 20 * count + 6 * chainLengths es) (i + count) (k + chainLengths es))
      (fun m' => ∃ p j, m'.Spent whole (n + 20 * p + 6 * j) (i + p + 1) (k + j)) := by
  induction count generalizing m n i k with
  | zero => exact .pure ⟨rfl, h⟩
  | succ count ih =>
    have hbegun : Meter.Spent whole n (i + 1) k { m with entries := m.entries + 1 } :=
      { h with entries_eq := congrArg (· + 1) h.entries_eq }
    refine .count ?_ rfl
    refine (follows_entry password hbegun).bind (fun e m₁ h₁ => ?_) fun m₁ h₁ => ⟨0, h₁⟩
    refine (ih h₁).bind (fun es m₂ h₂ => .pure ⟨congrArg (· + 1) h₂.1, ?_⟩) fun m₂ h₂ => ?_
    · have hsum : chainLengths (e :: es) = chainLength e.2.entry + chainLengths es := rfl
      exact h₂.2.weaken (by omega) (by omega) (by omega)
    · obtain ⟨p, j, h₂⟩ := h₂
      exact ⟨p + 1, chainLength e.2.entry + j, h₂.weaken (by omega) (by omega) (by omega)⟩

theorem follows_header (password : Bytes) (h : m.Spent whole n i k) :
    (header password).Follows (Decoding.header password) m
      (fun es m' => m'.Spent whole (n + 12 + 20 * es.length + 6 * chainLengths es) (i + es.length)
        (k + chainLengths es))
      (fun m' => m'.Spent whole n i k ∨
        ∃ p j, m'.Spent whole (n + 12 + 20 * p + 6 * j) (i + p + 1) (k + j)) := by
  refine (follows_number 4 h).bind (fun found m₁ h₁ => ?_) fun _ h' => .inl h'
  simp only
  split
  · exact .throw (.inl (h₁.mono (Nat.le_add_right ..)))
  refine (follows_number 4 h₁).bind (fun found m₂ h₂ => ?_)
    fun _ h' => .inl (h'.mono (Nat.le_add_right ..))
  simp only
  split
  · exact .throw (.inl (h₂.mono (by omega)))
  refine (follows_number 4 h₂).bind (fun count m₃ h₃ => ?_) fun _ h' => .inl (h'.mono (by omega))
  refine (follows_entries password count h₃).imp (fun es m₄ h₄ => ?_) fun m₄ h₄ => ?_
  · obtain ⟨rfl, h₄⟩ := h₄
    exact h₄.mono (by omega)
  · obtain ⟨p, j, h₄⟩ := h₄
    exact .inr ⟨p, j, h₄.mono (by omega)⟩

end

section

variable {x : Metered α} {plain : Bytes → Except Error (α × Bytes)} {m : Meter}
  {ok : α → Meter → Prop} {fail : Meter → Prop}

theorem Follows.fst_eq (h : x.Follows plain m ok fail) :
    (x.outcome m).1 = (plain m.unread).map Prod.fst := by
  rw [Follows] at h
  split at h
  · rename_i heq
    rw [heq, h.1]
    rfl
  · rename_i heq
    rw [heq, h.1]
    rfl

theorem Follows.exists_of_ok (h : x.Follows plain m ok fail) {a : α} {rest : Bytes}
    (hplain : plain m.unread = .ok (a, rest)) : ∃ m', m'.unread = rest ∧ ok a m' := by
  rw [Follows] at h
  split at h
  · rename_i b m' _
    cases h.1.symm.trans hplain
    exact ⟨m', rfl, h.2⟩
  · cases h.1.symm.trans hplain

/-- What holds of the account at the end, whether reading fails or not. -/
theorem Follows.outcome_of (P : Meter → Prop) (h : x.Follows plain m ok fail)
    (hok : ∀ a m', ok a m' → P m') (hfail : ∀ m', fail m' → P m') : P (x.outcome m).2 := by
  rw [Follows] at h
  split at h
  · rename_i heq
    exact heq ▸ hok _ _ h.2
  · rename_i heq
    exact heq ▸ hfail _ h.2

end

/-- However many certificates a chain is to have, one more is begun at most than there is room for. -/
theorem certificates_begun_le (count : Nat) (m : Meter) :
    ((certificates count).outcome m).2.certificates ≤ m.certificates + m.unread.length / 6 + 1 := by
  refine (follows_certificates count m.spent_self).outcome_of
    (fun m' => m'.certificates ≤ m.certificates + m.unread.length / 6 + 1) ?_ ?_
  · rintro cs m' ⟨-, h⟩
    have hle := h.le_unread
    have hcount := h.certificates_eq
    omega
  · rintro m' ⟨j, h⟩
    have hle := h.le_unread
    have hcount := h.certificates_eq
    omega

theorem entries_begun_le (password : Bytes) (count : Nat) (m : Meter) :
    ((entries password count).outcome m).2.entries ≤ m.entries + m.unread.length / 20 + 1 := by
  refine (follows_entries password count m.spent_self).outcome_of
    (fun m' => m'.entries ≤ m.entries + m.unread.length / 20 + 1) ?_ ?_
  · rintro es m' ⟨-, h⟩
    have hle := (h.mono (Nat.le_add_right ..)).le_unread
    have hcount := h.entries_eq
    omega
  · rintro m' ⟨p, j, h⟩
    have hle := (h.mono (Nat.le_add_right ..)).le_unread
    have hcount := h.entries_eq
    omega

end Metered

namespace Decoding

variable {b rest : Bytes}

theorem six_add_le_of_certificate {c : Bytes} (h : certificate b = .ok (c, rest)) :
    6 + rest.length ≤ b.length := by
  obtain ⟨m, rfl, hm⟩ := (Metered.follows_certificate (Meter.spent_start b)).exists_of_ok h
  have hle := hm.add_le
  omega

theorem twenty_add_le_of_entry {password : Bytes} {e : String × StoredEntry}
    (h : entry password b = .ok (e, rest)) :
    20 + 6 * Metered.chainLength e.2.entry + rest.length ≤ b.length := by
  obtain ⟨m, rfl, hm⟩ := (Metered.follows_entry password (Meter.spent_start b)).exists_of_ok h
  have hle := hm.add_le
  omega

theorem count_eq_of_header {password : Bytes} {es : List (String × StoredEntry)}
    (h : header password b = .ok (es, rest)) : Bytes.toNat ((b.drop 8).take 4) = es.length := by
  obtain ⟨hlt, ws, -, rfl⟩ := header_eq_ok.mp h
  have height : (Encoding.u32 magic ++ Encoding.u32 version).length = 8 := rfl
  have hfour : (Encoding.u32 es.length).length = 4 := Bytes.length_ofNat 4 _
  rw [List.append_assoc, List.append_assoc, List.drop_left' height, List.take_left' hfour]
  exact Bytes.toNat_ofNat_of_lt (by simpa [UInt32.size] using hlt)

end Decoding

end CertKeeper.Keystore

namespace CertKeeper.KeyStore

open Keystore

def sealedPart (data : Bytes) : Bytes := data.take (data.length - Digest.Sha1.size)

/-- Decoding that keeps account of what is read of the body. -/
def meteredDecode (data : Bytes) (password : String) : Except Error KeyStore × Meter :=
  let password := passwordBytes password
  let start := Meter.start (sealedPart data)
  if data.length < Digest.Sha1.size then (.error .truncated, start)
  else if storeDigest password (sealedPart data) ≠ data.drop (data.length - Digest.Sha1.size) then
    (.error .integrityCheckFailed, start)
  else match (Metered.header password).outcome start with
    | (.ok es, m) => (.ok ⟨es.foldl (fun d e => d.insert e.1 e.2) ∅⟩, m)
    | (.error e, m) => (.error e, m)

/-- What an account of decoding `data` comes to. -/
structure IsBounded (data : Bytes) (password : String) (m : Meter) : Prop where
  /-- What is read is the beginning of the body. -/
  append_eq : m.read ++ m.unread = sealedPart data
  /-- Where decoding succeeds, all that is declared has been read, and there was room for it. -/
  ok : ∀ ks, decode data password = .ok ks → ∃ es,
    Decoding.header (passwordBytes password) (sealedPart data) = .ok (es, m.unread) ∧
    Bytes.toNat (((sealedPart data).drop 8).take 4) = es.length ∧
    m.entries = es.length ∧ m.certificates = Metered.chainLengths es ∧
    32 + 20 * es.length + 6 * Metered.chainLengths es ≤ data.length
  /-- Where it fails, there was room for all that was begun but the last entry. -/
  error : ∀ e, decode data password = .error e → m.entries = 0 ∧ m.certificates = 0 ∨
    32 + 20 * (m.entries - 1) + 6 * m.certificates ≤ data.length

section

variable {data : Bytes} {password : String} {m : Meter}

theorem length_sealedPart (data : Bytes) :
    (sealedPart data).length = data.length - Digest.Sha1.size := by
  simp [sealedPart]

theorem IsSealed.sealedPart_eq {body : Bytes} (h : IsSealed password data body) :
    sealedPart data = body := by
  have hlen : data.length - Digest.Sha1.size = body.length := by
    rw [h, List.length_append, length_storeDigest, Nat.add_sub_cancel]
  rw [sealedPart, hlen, h, List.take_left]

theorem isBounded_of_ok {ks : KeyStore} {es : List (String × StoredEntry)}
    (hdecode : decode data password = .ok ks)
    (hheader : Decoding.header (passwordBytes password) (sealedPart data) = .ok (es, m.unread))
    (h : m.Spent (sealedPart data) (0 + 12 + 20 * es.length + 6 * Metered.chainLengths es)
      (0 + es.length) (0 + Metered.chainLengths es)) : IsBounded data password m where
  append_eq := h.append_eq
  ok _ _ := by
    have hle := h.add_le
    rw [length_sealedPart, Digest.Sha1.size] at hle
    have hentries := h.entries_eq
    have hcertificates := h.certificates_eq
    exact ⟨es, hheader, Decoding.count_eq_of_header hheader, by omega, by omega, by omega⟩
  error e he := by cases hdecode.symm.trans he

theorem isBounded_of_error {e : Error} (hdecode : decode data password = .error e)
    (h : m.Spent (sealedPart data) 0 0 0 ∨
      ∃ p j, m.Spent (sealedPart data) (0 + 12 + 20 * p + 6 * j) (0 + p + 1) (0 + j)) :
    IsBounded data password m where
  append_eq := by
    obtain h | ⟨p, j, h⟩ := h <;> exact h.append_eq
  ok ks hks := by cases hdecode.symm.trans hks
  error _ _ := by
    obtain h | ⟨p, j, h⟩ := h
    · exact .inl ⟨h.entries_eq, h.certificates_eq⟩
    · have hle := h.add_le
      rw [length_sealedPart, Digest.Sha1.size] at hle
      have hentries := h.entries_eq
      have hcertificates := h.certificates_eq
      exact .inr (by omega)

theorem meteredDecode_cases (data : Bytes) (password : String) :
    (∃ e, decode data password = .error e ∧
      meteredDecode data password = (.error e, .start (sealedPart data))) ∨
    decode data password = (Decoding.header (passwordBytes password) (sealedPart data) >>= fun p =>
        .ok ⟨p.1.foldl (fun d e => d.insert e.1 e.2) ∅⟩) ∧
      meteredDecode data password =
        match (Metered.header (passwordBytes password)).outcome (.start (sealedPart data)) with
        | (.ok es, m) => (.ok ⟨es.foldl (fun d e => d.insert e.1 e.2) ∅⟩, m)
        | (.error e, m) => (.error e, m) := by
  by_cases hshort : data.length < Digest.Sha1.size
  · exact .inl ⟨_, if_pos hshort, if_pos hshort⟩
  by_cases hdigest : storeDigest (passwordBytes password) (sealedPart data) ≠
      data.drop (data.length - Digest.Sha1.size)
  · exact .inl ⟨_, (if_neg hshort).trans (if_pos hdigest), (if_neg hshort).trans (if_pos hdigest)⟩
  · exact .inr ⟨(if_neg hshort).trans (if_neg hdigest), (if_neg hshort).trans (if_neg hdigest)⟩

/-- Keeping account changes nothing about what is decoded. -/
theorem exists_isBounded (data : Bytes) (password : String) :
    ∃ m, meteredDecode data password = (decode data password, m) ∧
      IsBounded data password m := by
  have hstart := Meter.spent_start (sealedPart data)
  obtain ⟨e, hdecode, hmetered⟩ | ⟨hdecode, hmetered⟩ := meteredDecode_cases data password
  · exact ⟨_, by rw [hmetered, hdecode], isBounded_of_error hdecode (.inl hstart)⟩
  have hfollows := Metered.follows_header (passwordBytes password) hstart
  rw [Metered.Follows] at hfollows
  split at hfollows
  · rename_i es m heq
    have hheader : Decoding.header (passwordBytes password) (sealedPart data)
        = .ok (es, m.unread) := hfollows.1
    rw [hheader, ok_bind] at hdecode
    exact ⟨m, by rw [hmetered, heq, hdecode], isBounded_of_ok hdecode hheader hfollows.2⟩
  · rename_i e m heq
    have hheader : Decoding.header (passwordBytes password) (sealedPart data) = .error e :=
      hfollows.1
    rw [hheader, error_bind] at hdecode
    exact ⟨m, by rw [hmetered, heq, hdecode], isBounded_of_error hdecode hfollows.2⟩

end

/-- The work of decoding is bounded by what is decoded, whatever counts are declared there. Nothing
is read outside of the body; each certificate of a chain takes six bytes and each entry twenty; and
where that fails, one more of each has been begun at most than there was room for. -/
theorem decoding_bounded (data : Bytes) (password : String) :
    (∃ m, meteredDecode data password = (decode data password, m) ∧ IsBounded data password m) ∧
    (∀ count m, ((Metered.certificates count).outcome m).1
        = (Decoding.certificates count m.unread).map Prod.fst ∧
      ((Metered.certificates count).outcome m).2.certificates
        ≤ m.certificates + m.unread.length / 6 + 1) ∧
    (∀ count m, ((Metered.entries (passwordBytes password) count).outcome m).1
        = (Decoding.entries (passwordBytes password) count m.unread).map Prod.fst ∧
      ((Metered.entries (passwordBytes password) count).outcome m).2.entries
        ≤ m.entries + m.unread.length / 20 + 1) ∧
    (∀ b c rest, Decoding.certificate b = .ok (c, rest) → 6 + rest.length ≤ b.length) ∧
    (∀ b e rest, Decoding.entry (passwordBytes password) b = .ok (e, rest) →
      20 + 6 * Metered.chainLength e.2.entry + rest.length ≤ b.length) ∧
    (∀ input tag content rest, Der.read input tag = .ok (content, rest) →
      ∃ frame, 2 ≤ frame.length ∧ input = frame ++ (content ++ rest)) :=
  ⟨exists_isBounded data password,
    fun count m => ⟨(Metered.follows_certificates count m.spent_self).fst_eq,
      Metered.certificates_begun_le count m⟩,
    fun count m => ⟨(Metered.follows_entries (passwordBytes password) count m.spent_self).fst_eq,
      Metered.entries_begun_le (passwordBytes password) count m⟩,
    fun _ _ _ => Decoding.six_add_le_of_certificate, fun _ _ _ => Decoding.twenty_add_le_of_entry,
    fun _ _ _ _ => Der.exists_append_of_read⟩

namespace Declared

def certificate : Bytes := [0, 0] ++ [0, 0, 0, 1, 9]

def entry : Bytes := [0, 0, 0, 2] ++ [0, 0] ++ [0, 0, 0, 0, 0, 0, 0, 0] ++ certificate

def body (count entries : Bytes) : Bytes :=
  [0xFE, 0xED, 0xFE, 0xED] ++ [0, 0, 0, 2] ++ count ++ entries

def data (count entries : Bytes) : Bytes :=
  body count entries ++ storeDigest (passwordBytes "changeme") (body count entries)

theorem isSealed_data (count entries : Bytes) :
    IsSealed "changeme" (data count entries) (body count entries) := rfl

end Declared

open Declared in
/-- Where as many entries are declared as can be, and there are none, one is begun at most. -/
theorem decoding_bounded_declared :
    (∃ m, meteredDecode (data [0xFF, 0xFF, 0xFF, 0xFF] []) "changeme" = (.error .truncated, m) ∧
      m.entries ≤ 1 ∧ m.certificates = 0) ∧
    (∃ ks m, meteredDecode (data [0, 0, 0, 1] Declared.entry) "changeme" = (.ok ks, m) ∧
      m.entries = 1 ∧ m.certificates = 0) ∧
    (Decoding.certificate Declared.certificate = .ok ([9], []) ∧
      6 ≤ Declared.certificate.length) ∧
    (Decoding.entry (passwordBytes "changeme") Declared.entry
        = .ok (("", ⟨0, .trustedCertificate [9]⟩), []) ∧
      20 ≤ Declared.entry.length) ∧
    (Der.read [0x30, 1, 9] 0x30 = .ok ([9], []) ∧
      ∃ frame : Bytes, 2 ≤ frame.length ∧ [0x30, 1, 9] = frame ++ ([9] ++ [])) := by
  have hnone : Decoding.header (passwordBytes "changeme") (body [0xFF, 0xFF, 0xFF, 0xFF] [])
      = .error .truncated := by decide +kernel
  have hone : Decoding.header (passwordBytes "changeme") (body [0, 0, 0, 1] Declared.entry)
      = .ok ([("", ⟨0, .trustedCertificate [9]⟩)], []) := by decide +kernel
  have hcertificate : Decoding.certificate Declared.certificate = .ok ([9], []) := by
    decide +kernel
  have hentry : Decoding.entry (passwordBytes "changeme") Declared.entry
      = .ok (("", ⟨0, .trustedCertificate [9]⟩), []) := by decide +kernel
  have hread : Der.read [0x30, 1, 9] 0x30 = .ok ([9], []) := by decide +kernel
  obtain ⟨⟨m, hm, hbounded⟩, -, -, hsix, htwenty, hframe⟩ :=
    decoding_bounded (data [0xFF, 0xFF, 0xFF, 0xFF] []) "changeme"
  obtain ⟨⟨m', hm', hbounded'⟩, -⟩ :=
    decoding_bounded (data [0, 0, 0, 1] Declared.entry) "changeme"
  refine ⟨⟨m, ?_, ?_⟩, ?_, ⟨hcertificate, hsix _ _ _ hcertificate⟩,
    ⟨hentry, htwenty _ _ _ hentry⟩, hread, hframe _ _ _ _ hread⟩
  · rw [hm, data, decode_sealed, hnone]
    rfl
  · have hlength : (data [0xFF, 0xFF, 0xFF, 0xFF] []).length = 32 := by
      rw [data, List.length_append, length_storeDigest]
      rfl
    have hdecode : decode (data [0xFF, 0xFF, 0xFF, 0xFF] []) "changeme" = .error .truncated := by
      rw [data, decode_sealed, hnone]
      rfl
    have hroom := hbounded.error _ hdecode
    omega
  · have hdecode : decode (data [0, 0, 0, 1] Declared.entry) "changeme"
        = .ok (KeyStore.empty.insert "" 0 (.trustedCertificate [9])) := by
      rw [data, decode_sealed, hone]
      rfl
    obtain ⟨es, hes, -, hentries, hcertificates, -⟩ := hbounded'.ok _ hdecode
    rw [(isSealed_data _ _).sealedPart_eq, hone] at hes
    obtain ⟨rfl, -⟩ := Prod.mk.inj (Except.ok.inj hes)
    exact ⟨_, m', by rw [hm', hdecode], hentries, hcertificates⟩

end CertKeeper.KeyStore
