import Mathlib.Data.List.Forall2

/-!
# Computations that succeed

A sequence of steps succeeds exactly when each step does, and it fails only as one of its steps can.
-/

namespace CertKeeper

variable {ε ε' α β : Type}

@[simp] theorem ok_bind (a : α) (f : α → Except ε β) : ((.ok a : Except ε α) >>= f) = f a := rfl

@[simp] theorem error_bind (e : ε) (f : α → Except ε β) :
    ((.error e : Except ε α) >>= f) = .error e := rfl

theorem bind_eq_ok {x : Except ε α} {f : α → Except ε β} {b : β} :
    (x >>= f) = .ok b ↔ ∃ a, x = .ok a ∧ f a = .ok b := by
  cases x with
  | ok a => simp
  | error e => simp

theorem map_eq_ok {x : Except ε α} {f : α → β} {b : β} :
    x.map f = .ok b ↔ ∃ a, x = .ok a ∧ f a = b := by
  cases x with
  | ok a => simp [Except.map]
  | error e => simp [Except.map]

theorem mapError_eq_ok {x : Except ε α} {f : ε → ε'} {a : α} :
    x.mapError f = .ok a ↔ x = .ok a := by
  constructor
  · intro h
    cases x with
    | ok b =>
      cases h
      rfl
    | error e => cases h
  · rintro rfl
    rfl

theorem mapM_eq_ok {f : α → Except ε β} {l : List α} {results : List β} :
    l.mapM f = .ok results ↔ List.Forall₂ (fun a b => f a = .ok b) l results := by
  induction l generalizing results with
  | nil =>
    rw [List.mapM_nil, List.forall₂_nil_left_iff]
    exact ⟨fun h => (Except.ok.inj h).symm, fun h => congrArg Except.ok h.symm⟩
  | cons a l ih =>
    simp only [List.mapM_cons, bind_eq_ok, List.forall₂_cons_left_iff, ih]
    constructor
    · rintro ⟨b, hb, rest, hrest, h⟩
      cases h
      exact ⟨b, rest, hb, hrest, rfl⟩
    · rintro ⟨b, rest, hb, hrest, rfl⟩
      exact ⟨b, hb, rest, hrest, rfl⟩

theorem mapM_append_cons_eq_ok {f : α → Except ε β} {before after : List α} {a : α}
    {results : List β} : (before ++ a :: after).mapM f = .ok results ↔ ∃ first b rest,
      before.mapM f = .ok first ∧ f a = .ok b ∧ after.mapM f = .ok rest ∧
        first ++ b :: rest = results := by
  simp only [List.mapM_append, List.mapM_cons, bind_eq_ok]
  constructor
  · rintro ⟨first, hfirst, _, ⟨b, hb, rest, hrest, hcons⟩, h⟩
    cases hcons
    cases h
    exact ⟨first, b, rest, hfirst, hb, hrest, rfl⟩
  · rintro ⟨first, b, rest, hfirst, hb, hrest, rfl⟩
    exact ⟨first, hfirst, _, ⟨b, hb, rest, hrest, rfl⟩, rfl⟩

theorem exists_mapM_eq_ok_iff {f : α → Except ε β} {l : List α} :
    (∃ results, l.mapM f = .ok results) ↔ ∀ a ∈ l, ∃ b, f a = .ok b := by
  simp only [mapM_eq_ok]
  induction l with
  | nil => simp
  | cons a l ih => simp [List.forall₂_cons_left_iff, ← ih]

/-- Whether a computation succeeds or fails with an error of some sort. -/
inductive FailsOnly (p : ε → Prop) : Except ε α → Prop where
  | ok (a : α) : FailsOnly p (.ok a)
  | error {e : ε} (he : p e) : FailsOnly p (.error e)

namespace FailsOnly

variable {p : ε → Prop} {x : Except ε α}

theorem bind {f : α → Except ε β} (hx : FailsOnly p x) (hf : ∀ a, FailsOnly p (f a)) :
    FailsOnly p (x >>= f) := by
  cases hx with
  | ok a => exact hf a
  | error he => exact .error he

theorem of_eq_error (hx : FailsOnly p x) {e : ε} (h : x = .error e) : p e := by
  subst h
  cases hx with
  | error he => exact he

end FailsOnly

end CertKeeper
