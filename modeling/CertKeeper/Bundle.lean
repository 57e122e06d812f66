import CertKeeper.Pem
import CertKeeper.X509.Description

/-!
# Bundles of certificates

The certificates of a PEM bundle are those of its blocks that can be read as certificates. All other
blocks are passed over.
-/

namespace CertKeeper.Bundle

open X509

/-- The certificates of a bundle, in their order. -/
def certificates (data : Bytes) : List Certificate :=
  (Pem.blocks data).filterMap fun block => Certificate.read? block.contents

/-- From when and until when a certificate is valid, in seconds since 1970. -/
structure Validity where
  notBefore : Int
  notAfter : Int
  deriving DecidableEq, Repr

def validities (data : Bytes) : List Validity :=
  (certificates data).map fun c => ⟨c.notBefore, c.notAfter⟩

/-- When the first certificate of the bundle expires. -/
def earliestExpiry? (data : Bytes) : Option Int := ((validities data).map (·.notAfter)).min?

/-- When the last certificate of the bundle was issued. -/
def latestIssue? (data : Bytes) : Option Int := ((validities data).map (·.notBefore)).max?

def describe (data : Bytes) : Except Panic String :=
  ((certificates data).mapM Certificate.describe).map String.join

end CertKeeper.Bundle
