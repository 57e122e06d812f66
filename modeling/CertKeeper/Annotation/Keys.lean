/-!
# Names on the wire

The keys of the annotations that are read, of the fields that are read and written, and the values
that stand for what an annotation leaves out.
-/

namespace CertKeeper.Key

def injectCaFromSecret : String := "cert-utils-operator.redhat-cop.io/injectca-from-secret"
def injectCaFromServiceCa : String := "cert-utils-operator.redhat-cop.io/injectca-from-service_ca"
def generateJavaKeystores : String := "cert-utils-operator.redhat-cop.io/generate-java-keystores"
def generateJavaTruststore : String := "cert-utils-operator.redhat-cop.io/generate-java-truststore"
def sourceCaKey : String := "cert-utils-operator.redhat-cop.io/source-ca-key"
def javaKeystorePassword : String := "cert-utils-operator.redhat-cop.io/java-keystore-password"
def generateCertInfo : String := "cert-utils-operator.redhat-cop.io/generate-cert-info"
def generateCertExpiryAlert : String :=
  "cert-utils-operator.redhat-cop.io/generate-cert-expiry-alert"
def certExpiryCheckFrequency : String :=
  "cert-utils-operator.redhat-cop.io/cert-expiry-check-frequency"
def certSoonToExpireCheckFrequency : String :=
  "cert-utils-operator.redhat-cop.io/cert-soon-to-expire-check-frequency"
def certSoonToExpireThreshold : String :=
  "cert-utils-operator.redhat-cop.io/cert-soon-to-expire-threshold"
def certsFromSecret : String := "cert-utils-operator.redhat-cop.io/certs-from-secret"
def destinationCaFromSecret : String :=
  "cert-utils-operator.redhat-cop.io/destinationCA-from-secret"

end CertKeeper.Key

namespace CertKeeper.Field

def tlsSecretType : String := "kubernetes.io/tls"
def tlsCert : String := "tls.crt"
def tlsKey : String := "tls.key"
def caCert : String := "ca.crt"
def caBundle : String := "ca-bundle.crt"
def keystore : String := "keystore.jks"
def truststore : String := "truststore.jks"
def certInfo : String := "tls.crt.info"
def caInfo : String := "ca.crt.info"

end CertKeeper.Field
