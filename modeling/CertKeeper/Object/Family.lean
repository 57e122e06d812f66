import CertKeeper.Object.Kind

/-!
# Families

A family has one member for each kind of object, of a type that depends on the kind.
-/

namespace CertKeeper

structure Family (F : Kind → Type) where
  apiService : F .apiService
  configMap : F .configMap
  customResourceDefinition : F .customResourceDefinition
  mutatingWebhookConfiguration : F .mutatingWebhookConfiguration
  route : F .route
  secret : F .secret
  validatingWebhookConfiguration : F .validatingWebhookConfiguration

namespace Family

variable {F : Kind → Type}

def ofFn (f : (k : Kind) → F k) : Family F :=
  ⟨f _, f _, f _, f _, f _, f _, f _⟩

def get (x : Family F) : (k : Kind) → F k
  | .apiService => x.apiService
  | .configMap => x.configMap
  | .customResourceDefinition => x.customResourceDefinition
  | .mutatingWebhookConfiguration => x.mutatingWebhookConfiguration
  | .route => x.route
  | .secret => x.secret
  | .validatingWebhookConfiguration => x.validatingWebhookConfiguration

def set (x : Family F) : (k : Kind) → F k → Family F
  | .apiService, a => { x with apiService := a }
  | .configMap, a => { x with configMap := a }
  | .customResourceDefinition, a => { x with customResourceDefinition := a }
  | .mutatingWebhookConfiguration, a => { x with mutatingWebhookConfiguration := a }
  | .route, a => { x with route := a }
  | .secret, a => { x with secret := a }
  | .validatingWebhookConfiguration, a => { x with validatingWebhookConfiguration := a }

@[simp] theorem get_ofFn (f : (k : Kind) → F k) (k : Kind) : (ofFn f).get k = f k := by
  cases k <;> rfl

@[simp] theorem get_set (x : Family F) (k : Kind) (a : F k) : (x.set k a).get k = a := by
  cases k <;> rfl

theorem get_set_of_ne {k k' : Kind} (h : k' ≠ k) (x : Family F) (a : F k) :
    (x.set k a).get k' = x.get k' := by
  cases k <;> cases k' <;> first | rfl | exact absurd rfl h

end Family
end CertKeeper
