import CertKeeper.Api.Discovery
import CertKeeper.Api.Event
import CertKeeper.Config
import CertKeeper.Operator.Report
import CertKeeper.Server.Address
import CertKeeper.Server.Router
import CertKeeper.Store.Session
import CertKeeper.Watch.FanOut
import CertKeeper.Watch.Signal
import CertKeeper.Proofs.Agreement
import CertKeeper.Proofs.Annotation.Reference
import CertKeeper.Proofs.Bytes
import CertKeeper.Proofs.Dict
import CertKeeper.Proofs.Except
import CertKeeper.Proofs.Keystore.Layout
import CertKeeper.Proofs.Keystore.Codec
import CertKeeper.Proofs.Keystore.OfPem
import CertKeeper.Proofs.Keystore.Equivalence
import CertKeeper.Proofs.Keystore.KeySelection
import CertKeeper.Proofs.Keystore.Reencoding
import CertKeeper.Proofs.Object.Content
import CertKeeper.Proofs.Store.Update
import CertKeeper.Proofs.Sync.CaIdempotence
import CertKeeper.Proofs.Sync.Confinement
import CertKeeper.Proofs.Sync.Contention
import CertKeeper.Proofs.Sync.Convergence
import CertKeeper.Proofs.Sync.Frame
import CertKeeper.Proofs.Sync.Independence
import CertKeeper.Proofs.Sync.JavaKeystores
import CertKeeper.Proofs.Sync.CertificateInfo
import CertKeeper.Proofs.Sync.RouteCertificates
import CertKeeper.Proofs.Sync.SaltsAndTimes
import CertKeeper.Proofs.Sync.SecretControllers
import CertKeeper.Proofs.Sync.Truststore
import CertKeeper.Proofs.Watch.Departure
import CertKeeper.Proofs.Watch.Dependents
import CertKeeper.Proofs.Watch.OwnUpdates
import CertKeeper.Proofs.Watch.Relist
import CertKeeper.Proofs.Watch.Resolver
import CertKeeper.Proofs.Watch.SecretEdits
import CertKeeper.Proofs.Watch.SourceChanges
import CertKeeper.Proofs.Watch.StoreChanges
import CertKeeper.Proofs.Watch.RouteChanges
import CertKeeper.Proofs.Watch.Recreation
import CertKeeper.Proofs.Expiry.Gauges
import CertKeeper.Proofs.Expiry.GaugeMirror
import CertKeeper.Proofs.Expiry.Interleaving
import CertKeeper.Proofs.Duration.Grammar
import CertKeeper.Proofs.Duration.Range
import CertKeeper.Proofs.X509.Time
import CertKeeper.Proofs.Expiry.Policy
import CertKeeper.Proofs.Expiry.Decision
import CertKeeper.Proofs.Sync.RouteDerivation
import CertKeeper.Proofs.Sync.Accounting
import CertKeeper.Proofs.Watch.Broadcast
import CertKeeper.Proofs.Bundle.Readers
import CertKeeper.Proofs.Object.Route
import CertKeeper.Proofs.Keystore.Work
