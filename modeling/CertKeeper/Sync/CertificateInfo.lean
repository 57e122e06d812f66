import CertKeeper.Bundle
import CertKeeper.Sync.Basic

/-!
# Descriptions in secrets

A secret that has opted in holds descriptions of its certificate and its CA for people to read.
-/

namespace CertKeeper.CertificateInfo

open Watch

structure Info where
  certificate : Option Bytes
  ca : Option Bytes
  deriving DecidableEq, Repr

def current (s : Secret) : Info := ⟨s.content.value Field.certInfo, s.content.value Field.caInfo⟩

def describe (s : Secret) (key : String) : Except Panic (Option Bytes) :=
  match s.content.value key with
  | none => .ok none
  | some pem => (Bundle.describe pem).map fun text => Bytes.nonEmpty? (Bytes.ofString text)

def desired (s : Secret) : Except Panic Info :=
  if s.annotations.isEnabled Key.generateCertInfo then do
    let certificate ← describe s Field.tlsCert
    let ca ← describe s Field.caCert
    .ok ⟨certificate, ca⟩
  else .ok ⟨none, none⟩

def write (i : Info) (s : Secret) : Secret :=
  { s with content := (s.content.set Field.certInfo i.certificate).set Field.caInfo i.ca }

def derivation : Derivation .secret Info where
  current := current
  desired _ _ s := (desired s).mapError .panic
  unchanged _ a b := a = b
  write := write

def kind : SyncKind .secret where
  name := "secret-cert-info"
  localSources := false
  usesSystemCa := false
  applies s := s.content.isTls
  sources _ := .ok []
  revise := derivation.revise
  targetFilter := .annotatedTlsSecret Key.generateCertInfo [Field.tlsCert, Field.caCert]
  sourceFilter := none

end CertKeeper.CertificateInfo
