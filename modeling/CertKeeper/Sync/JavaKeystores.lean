import CertKeeper.Keystore.OfPem
import CertKeeper.Sync.Basic

/-!
# Keystores in secrets

A secret that has opted in holds its certificate and key as a keystore, and its CA as a truststore.
Because salts and times differ from run to run, a store is replaced only if its entries have to
change.
-/

namespace CertKeeper

open Watch

/-- When the keystores of an object count as made: when it was made itself, or now. -/
def Host.creationTime {k : Kind} (h : Host) (o : Object k) : Int64 :=
  Int64.ofInt ((o.metadata.creationTimestamp.map Time.Timestamp.millis).getD h.now)

namespace KeyStore

def upToDate (current desired : Option Bytes) (password : String) : Bool :=
  match current, desired with
  | none, none => true
  | some a, some b => equivalent a b password
  | _, _ => false

def encodeKeyPair (h : Host) (created : Int64) (password : String) (certificates key : Bytes) :
    Except Keystore.Error Bytes := do
  let store ← ofKeyPair certificates key created
  store.encode password h.salts

def encodeBundle (h : Host) (created : Int64) (password : String) (bundle : Option Bytes) :
    Except Keystore.Error (Option Bytes) :=
  match bundle with
  | some b => ((ofBundle b created).encode password h.salts).map some
  | none => .ok none

end KeyStore

namespace JavaKeystores

structure Files where
  keystore : Option Bytes
  truststore : Option Bytes
  deriving DecidableEq, Repr

def Files.none : Files := ⟨.none, .none⟩

def current (s : Secret) : Files :=
  ⟨s.content.value Field.keystore, s.content.value Field.truststore⟩

def keystore (h : Host) (s : Secret) : Except Keystore.Error (Option Bytes) :=
  match s.content.value Field.tlsCert, s.content.value Field.tlsKey with
  | some certificates, some key =>
    (KeyStore.encodeKeyPair h (h.creationTime s) s.annotations.keystorePassword certificates
      key).map some
  | _, _ => .ok none

def truststore (h : Host) (s : Secret) : Except Keystore.Error (Option Bytes) :=
  KeyStore.encodeBundle h (h.creationTime s) s.annotations.keystorePassword
    (s.content.value Field.caCert)

def files (h : Host) (s : Secret) : Except Keystore.Error Files := do
  let keystore ← keystore h s
  let truststore ← truststore h s
  .ok { keystore, truststore }

def desired (h : Host) (s : Secret) : Except SyncError Files :=
  if s.annotations.isEnabled Key.generateJavaKeystores then (files h s).mapError .keystore
  else .ok .none

def unchanged (s : Secret) (current desired : Files) : Bool :=
  let password := s.annotations.keystorePassword
  KeyStore.upToDate current.keystore desired.keystore password
    && KeyStore.upToDate current.truststore desired.truststore password

def write (f : Files) (s : Secret) : Secret :=
  { s with
    content := (s.content.set Field.keystore f.keystore).set Field.truststore f.truststore }

def derivation : Derivation .secret Files where
  current := current
  desired h _ := desired h
  unchanged := unchanged
  write := write

def kind : SyncKind .secret where
  name := "secret-keystores"
  localSources := false
  usesSystemCa := false
  applies s := s.content.isTls
  sources _ := .ok []
  revise := derivation.revise
  targetFilter := .annotatedTlsSecret Key.generateJavaKeystores
    [Field.tlsCert, Field.tlsKey, Field.caCert]
  sourceFilter := none

end JavaKeystores
end CertKeeper
