/-!
# Computations that fail alike

Two computations agree if both fail with the same error, or both succeed with results that are
related. A sequence of steps agrees with another one if each of its steps does.
-/

namespace CertKeeper

variable {ε ε' α α' β β' : Type}

inductive Agree (R : α → β → Prop) : Except ε α → Except ε β → Prop where
  | ok {a : α} {b : β} (h : R a b) : Agree R (.ok a) (.ok b)
  | error (e : ε) : Agree R (.error e) (.error e)

/-- Whether two computations fail alike, whatever comes of them otherwise. -/
abbrev FailAlike : Except ε α → Except ε β → Prop := Agree fun _ _ => True

namespace Agree

variable {R : α → β → Prop} {S : α' → β' → Prop} {x : Except ε α} {y : Except ε β}

theorem failAlike_self (x : Except ε α) : FailAlike x x := by
  cases x with
  | ok a => exact .ok trivial
  | error e => exact .error e

theorem bind {f : α → Except ε α'} {g : β → Except ε β'} (hxy : Agree R x y)
    (hfg : ∀ a b, R a b → Agree S (f a) (g b)) : Agree S (x >>= f) (y >>= g) := by
  cases hxy with
  | ok h => exact hfg _ _ h
  | error e => exact .error e

theorem map {f : α → α'} {g : β → β'} (hxy : Agree R x y) (hfg : ∀ a b, R a b → S (f a) (g b)) :
    Agree S (x.map f) (y.map g) := by
  cases hxy with
  | ok h => exact .ok (hfg _ _ h)
  | error e => exact .error e

theorem mapError (f : ε → ε') (hxy : Agree R x y) : Agree R (x.mapError f) (y.mapError f) := by
  cases hxy with
  | ok h => exact .ok h
  | error e => exact .error (f e)

theorem of_failAlike (hxy : FailAlike x y) (hR : ∀ a b, x = .ok a → y = .ok b → R a b) :
    Agree R x y := by
  cases hxy with
  | ok _ => exact .ok (hR _ _ rfl rfl)
  | error e => exact .error e

end Agree
end CertKeeper
