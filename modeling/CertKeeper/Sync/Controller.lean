import CertKeeper.Sync.CaInjection
import CertKeeper.Sync.CertificateInfo
import CertKeeper.Sync.RouteCertificates
import CertKeeper.Sync.Truststore

/-!
# The controllers

Each controller runs one kind of synchronization.
-/

namespace CertKeeper

/-- A kind of synchronization with the kind of its targets. -/
structure Controller where
  kind : Kind
  sync : SyncKind kind

namespace Controller

def all : List Controller :=
  [⟨_, CaTarget.configMap.injection⟩, ⟨_, CaTarget.secret.injection⟩,
    ⟨_, CaTarget.apiService.injection⟩, ⟨_, CaTarget.mutatingWebhooks.injection⟩,
    ⟨_, CaTarget.validatingWebhooks.injection⟩, ⟨_, CaTarget.resourceDefinition.injection⟩,
    ⟨_, JavaKeystores.kind⟩, ⟨_, Truststore.kind⟩, ⟨_, CertificateInfo.kind⟩,
    ⟨_, RouteCertificates.kind⟩]

def name (c : Controller) : String := c.sync.name

def ofName? (s : String) : Option Controller := all.find? fun c => c.name = s

end Controller
end CertKeeper
