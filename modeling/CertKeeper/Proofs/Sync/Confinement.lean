import CertKeeper.Proofs.Watch.Dependents
import CertKeeper.Proofs.Watch.RouteChanges

/-!
# Routes are confined to their namespace

Whatever its annotations say, a route takes nothing from a secret of another namespace: a run for it
ends alike, and leaves the same route behind, whatever the other namespaces hold. The reason is that
no annotation is read as a reference that leads out of the namespace.
-/

namespace CertKeeper

/-- Whether two clusters are alike at a route and answer alike about the secrets of its namespace.
They may differ in all else. -/
structure Cluster.AlikeWithin (r : Reference) (c c' : Cluster) : Prop where
  route : AlikeAt .route r c c'
  secret : ∀ ref, ref.ns = r.ns → c'.get .secret ref = c.get .secret ref

namespace RouteCertificates

variable {c c' : Cluster} {r : Reference}

theorem read_congr_of_mem_sources (hc : c.AlikeWithin r c') (h h' : Host) {route : Route}
    (hroute : c.store.find? .route r = some route) {sources : List Source}
    (hsources : RouteCertificates.sources route = .ok sources) {source : Source}
    (hmem : source ∈ sources) : source.read c' h' = source.read c h := by
  cases source with
  | systemCa => exact absurd hmem (systemCa_notMem_sources hsources)
  | secret ref =>
    have hns : ref.ns = r.ns := by
      rw [ns_of_mem_sources hsources hmem, Store.key_of_find? hroute]
    rw [Source.read, Source.read, hc.secret ref hns]

theorem sync_congr_of_alikeWithin (hc : c.AlikeWithin r c') (h h' : Host) :
    (kind.sync c' h' r).1 = (kind.sync c h r).1 ∧
      (kind.sync c' h' r).2.store.find? .route r = (kind.sync c h r).2.store.find? .route r := by
  refine traceable.keeps.sync_congr hc.route fun route hroute => ?_
  refine SyncKind.planFor_congr rfl fun _ sources hsources source hsource => ?_
  exact read_congr_of_mem_sources hc h h' hroute hsources hsource

/-- The run for a route ends alike and leaves the same route behind in any two clusters that agree on
the route and on the secrets of its namespace, and each reference that is read for a namespace names
a secret of this namespace. -/
theorem run_confined_to_namespace (hc : c.AlikeWithin r c') (h h' : Host) :
    ((kind.sync c' h' r).1 = (kind.sync c h r).1 ∧
      (kind.sync c' h' r).2.store.find? .route r = (kind.sync c h r).2.store.find? .route r) ∧
    ∀ (a : Annotations) (key ns : String) (ref : Reference),
      a.localReference key ns = .ok (some ref) →
        ref.ns = ns ∧ ref.name ≠ "" ∧ '/' ∉ ref.name.toList :=
  ⟨sync_congr_of_alikeWithin hc h h', fun _ _ _ _ href =>
    ⟨Annotations.ns_of_localReference href, Annotations.name_of_localReference href⟩⟩

namespace TwoTenants

open FrontendRoute

/-- A secret of the same name in another namespace, with a key of its own. -/
def foreign : Secret where
  metadata := { Metadata.empty with name := some "rc", ns := some "billing" }
  content := ⟨some Field.tlsSecretType, some ((∅ : Dict Bytes).insert Field.tlsKey [66]), ∅⟩

def frontend : Route := route "edge" none "note" ""

def shared : Cluster := { cluster frontend with store := (cluster frontend).store.insert foreign }

end TwoTenants

open FrontendRoute TwoTenants in
/-- The route receives its key from its own namespace, be there another secret or not. -/
theorem run_confined_to_namespace_two_tenants :
    (kind.sync (cluster frontend) host ⟨"apps", "frontend"⟩).1.toOption = some .updated ∧
    (kind.sync shared host ⟨"apps", "frontend"⟩).1
      = (kind.sync (cluster frontend) host ⟨"apps", "frontend"⟩).1 ∧
    frontend.annotations.localReference Key.certsFromSecret "apps" = .ok (some ⟨"apps", "rc"⟩) ∧
    "rc" ≠ "" ∧ '/' ∉ "rc".toList := by
  have hshared : (cluster frontend).AlikeWithin ⟨"apps", "frontend"⟩ shared := by
    have hfind (k : Kind) (r : Reference) (hr : r.ns = "apps") :
        shared.store.find? k r = (cluster frontend).store.find? k r := by
      refine Store.find?_insert_of_ne _ foreign fun hplace => ?_
      have hkey : r = foreign.key := (Prod.mk.inj hplace).2
      rw [hkey] at hr
      exact absurd hr (by decide)
    exact ⟨⟨hfind _ _ rfl, rfl, rfl⟩, fun ref hns => Cluster.get_congr rfl (hfind _ ref hns)⟩
  have hupdated : (kind.sync (cluster frontend) host ⟨"apps", "frontend"⟩).1.toOption
      = some .updated := by
    decide +kernel
  have href : frontend.annotations.localReference Key.certsFromSecret "apps"
      = .ok (some ⟨"apps", "rc"⟩) := by
    rfl
  obtain ⟨⟨hsame, -⟩, hlocal⟩ := run_confined_to_namespace hshared host host
  exact ⟨hupdated, hsame, href, (hlocal _ _ _ _ href).2⟩

end RouteCertificates
end CertKeeper
