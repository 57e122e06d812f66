import CertKeeper.Sync.JavaKeystores

/-!
# Truststores in config maps

A config map that has opted in holds the bundle under its source key as a truststore.
-/

namespace CertKeeper.Truststore

open Watch

def current (m : ConfigMap) : Option Bytes := m.content.binaryValue Field.truststore

def bundle (m : ConfigMap) : Option String := m.content.value m.annotations.sourceCaKey

def desired (h : Host) (m : ConfigMap) : Except SyncError (Option Bytes) :=
  if m.annotations.isEnabled Key.generateJavaTruststore then
    (KeyStore.encodeBundle h (h.creationTime m) m.annotations.keystorePassword
      ((bundle m).map Bytes.ofString)).mapError .keystore
  else .ok none

def write (store : Option Bytes) (m : ConfigMap) : ConfigMap :=
  { m with content := m.content.setBinary Field.truststore store }

def derivation : Derivation .configMap (Option Bytes) where
  current := current
  desired h _ := desired h
  unchanged m a b := KeyStore.upToDate a b m.annotations.keystorePassword
  write := write

def kind : SyncKind .configMap where
  name := "configmap-truststore"
  localSources := false
  usesSystemCa := false
  applies _ := true
  sources _ := .ok []
  revise := derivation.revise
  targetFilter := .truststoreConfigMap Key.generateJavaTruststore
  sourceFilter := none

end CertKeeper.Truststore
