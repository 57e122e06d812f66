import CertKeeper.Keystore.Protection
import CertKeeper.Proofs.Keystore.Der

/-!
# Protected keys are recovered

A keystream is as long as the key it hides and cancels itself, so that the right password gives back
every key. How long a protected key is depends on the length of the key alone.
-/

namespace CertKeeper.Keystore.Protection

theorem length_digests (password : Bytes) (n : Nat) (last : Bytes) :
    (digests password n last).length = 20 * n := by
  induction n generalizing last with
  | zero => rfl
  | succ n ih =>
    simp only [digests, List.length_append, ih, Digest.Sha1.length_digest, Digest.Sha1.size]
    omega

@[simp] theorem length_keystream (password salt : Bytes) (n : Nat) :
    (keystream password salt n).length = n := by
  rw [keystream, List.length_take, length_digests]
  omega

@[simp] theorem length_check (password key : Bytes) :
    (check password key).length = Digest.Sha1.size :=
  Digest.Sha1.length_digest _

theorem length_xor (a b : Bytes) : (xor a b).length = min a.length b.length := by
  simp [xor]

theorem xor_xor {a b : Bytes} (h : a.length ≤ b.length) : xor (xor a b) b = a := by
  induction a generalizing b with
  | nil => simp [xor]
  | cons x a ih =>
    cases b with
    | nil => simp at h
    | cons y b =>
      have hxy : (x ^^^ y) ^^^ y = x := by rw [UInt8.xor_assoc, UInt8.xor_self, UInt8.xor_zero]
      have htail : xor (xor a b) b = a := ih (by simpa using h)
      simpa [xor, hxy] using htail

theorem length_hidden (key password salt : Bytes) :
    (xor key (keystream password salt key.length)).length = key.length := by
  simp [length_xor]

theorem length_conceal (key password : Bytes) (salt : Salt) :
    (conceal key password salt).length = key.length + 40 := by
  simp only [conceal, List.length_append, salt.length_eq, length_hidden, length_check,
    Digest.Sha1.size]
  omega

theorem reveal_conceal (key password : Bytes) (salt : Salt) :
    reveal (conceal key password salt) password = .ok key := by
  have hsalt : salt.bytes.length = 20 := salt.length_eq
  have hshort : ¬ (conceal key password salt).length < 40 := by
    rw [length_conceal]
    omega
  let hidden := xor key (keystream password salt.bytes key.length)
  have hhidden : hidden.length = key.length := length_hidden key password salt.bytes
  have hparts : conceal key password salt = salt.bytes ++ (hidden ++ check password key) := by
    simp [conceal, hidden]
  have htake : (conceal key password salt).take 20 = salt.bytes := by
    rw [hparts, List.take_left' hsalt]
  have hdrop : (conceal key password salt).drop 20 = hidden ++ check password key := by
    rw [hparts, List.drop_left' hsalt]
  have hlen : (hidden ++ check password key).length - 20 = hidden.length := by
    simp [Digest.Sha1.size]
  have hkey : xor hidden (keystream password salt.bytes hidden.length) = key := by
    rw [hhidden]
    exact xor_xor (by simp)
  simp only [reveal, if_neg hshort, htake, hdrop, hlen, List.take_left, List.drop_left, hkey,
    if_true]

/-- The fields of a protected key that do not depend on the key. -/
def identifier : Bytes :=
  Der.element tagSequence (Der.element tagObjectId algorithm ++ [tagNull, 0x00])

def envelope (key password : Bytes) (salt : Salt) : Bytes :=
  identifier ++ Der.element tagOctets (conceal key password salt)

theorem protect_eq_element (key password : Bytes) (salt : Salt) :
    protect key password salt = Der.element tagSequence (envelope key password salt) := rfl

theorem length_envelope (key password : Bytes) (salt : Salt) :
    (envelope key password salt).length
      = identifier.length + (1 + (Der.lengthField (key.length + 40)).length + (key.length + 40)) := by
  rw [envelope, List.length_append, Der.length_element, length_conceal]

/-- Neither the salt nor the password has a share in the length of a protected key. -/
theorem length_protect_eq (key password password' : Bytes) (salt salt' : Salt) :
    (protect key password salt).length = (protect key password' salt').length := by
  simp only [protect_eq_element, Der.length_element, length_envelope]

theorem recover_protect {key password : Bytes} {salt : Salt}
    (h : (protect key password salt).length < UInt32.size) :
    recover (protect key password salt) password = .ok key := by
  rw [protect_eq_element, Der.length_element] at h
  have henvelope : (envelope key password salt).length < UInt32.size := by omega
  have hsealed : (conceal key password salt).length < UInt32.size := by
    rw [length_envelope] at henvelope
    rw [length_conceal]
    omega
  have hname : (Der.element tagObjectId algorithm ++ [tagNull, 0x00]).length < UInt32.size := by
    decide
  have halgorithm : algorithm.length < UInt32.size := by decide
  have houter := Der.read_element tagSequence henvelope
  have hinner := Der.read_element_append tagSequence hname
    (Der.element tagOctets (conceal key password salt))
  have hoid := Der.read_element_append tagObjectId halgorithm [tagNull, 0x00]
  have hoctets := Der.read_element tagOctets hsealed
  rw [← protect_eq_element] at houter
  simp only [recover, houter, bind, Except.bind]
  simp only [envelope, identifier, hinner, hoid, hoctets, ne_eq, not_true_eq_false, if_false,
    reveal_conceal]

end CertKeeper.Keystore.Protection
