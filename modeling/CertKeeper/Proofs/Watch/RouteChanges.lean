import CertKeeper.Proofs.Sync.RouteCertificates

/-!
# Which changes of routes are passed on

The filter passes on that a route names other secrets, of routes that need a certificate. A change
that it passes over leaves nothing to do, except that a route may come to need a certificate without
naming other secrets.
-/

namespace CertKeeper

open Watch

theorem Annotations.localReference_congr {a b : Annotations} {key ns ns' : String}
    (hkey : a[key]? = b[key]?) (hns : ns = ns') :
    a.localReference key ns = b.localReference key ns' := by
  rw [localReference, localReference, hkey, hns]

namespace RouteCertificates

variable {old new route : Route} {c c' : Cluster} {h h' : Host} {r : Reference}

/-- Whether TLS ends at the router, so that a route needs a certificate. -/
def Managed (route : Route) : Prop :=
  ∃ tls, route.content.spec.tls = some tls ∧
    (tls.termination = "edge" ∨ tls.termination = "reencrypt")

structure SameNames (old new : Route) : Prop where
  certs : old.annotations[Key.certsFromSecret]? = new.annotations[Key.certsFromSecret]?
  destinationCa :
    old.annotations[Key.destinationCaFromSecret]? = new.annotations[Key.destinationCaFromSecret]?

theorem isSecure_iff : route.content.isSecure = true ↔ Managed route := by
  simp [Route.Content.isSecure, Managed, Option.any_eq_true]

theorem accepts_updated_iff : kind.targetFilter.accepts (.updated old new) = true ↔
    Managed new ∧ ¬ SameNames old new := by
  have hnames : SameNames old new ↔
      old.annotations[Key.certsFromSecret]? = new.annotations[Key.certsFromSecret]? ∧
        old.annotations[Key.destinationCaFromSecret]?
          = new.annotations[Key.destinationCaFromSecret]? :=
    ⟨fun h => ⟨h.certs, h.destinationCa⟩, fun h => ⟨h.1, h.2⟩⟩
  rw [← isSecure_iff, hnames, Classical.not_and_iff_not_or_not]
  simp [kind, EventFilter.accepts, EventFilter.secureRoute, EventFilter.restrict,
    EventFilter.annotatedTarget]

theorem references_congr (hnames : SameNames old new) (hkey : old.key = new.key) :
    references old = references new := by
  have hns : old.metadata.nsOrEmpty = new.metadata.nsOrEmpty := congrArg Reference.ns hkey
  have hcerts := Annotations.localReference_congr hnames.certs hns
  have hdestinationCa := Annotations.localReference_congr hnames.destinationCa hns
  rw [references, references, hcerts, hdestinationCa]

theorem exists_secret_of_mem_sources {sources : List Source} {source : Source}
    (hsources : RouteCertificates.sources route = .ok sources) (hmem : source ∈ sources) :
    ∃ ref, source = .secret ref := by
  obtain ⟨refs, -, hsources⟩ := bind_eq_ok.mp hsources
  cases hsources
  obtain ⟨ref, -, rfl⟩ := List.mem_map.mp (List.mem_eraseDups.mp hmem)
  exact ⟨ref, rfl⟩

theorem loads_of_sameNames {loaded : Sources} (hl : kind.Loads c h r old loaded)
    (hnew : c'.get .route r = .ok (some new)) (hsecure : new.content.isSecure = true)
    (hsecrets : ∀ ref, ref.ns = r.ns → c'.get .secret ref = c.get .secret ref)
    (hnames : SameNames old new) : kind.Loads c' h' r new loaded := by
  have hkey : new.key = r := Store.key_of_find? (Cluster.get_eq_ok.mp hnew).2
  obtain ⟨sources, hsources, hread⟩ := hl.readAll
  have hsources' : RouteCertificates.sources new = .ok sources := by
    have hrefs := references_congr hnames (hl.key_eq.trans hkey.symm)
    rwa [RouteCertificates.sources, ← hrefs]
  refine ⟨hnew, hsecure, sources, hsources', ?_⟩
  rw [← hread]
  apply Source.readAll_congr_read
  intro source hsource
  obtain ⟨ref, rfl⟩ := exists_secret_of_mem_sources hsources' hsource
  have hns : ref.ns = r.ns := hkey ▸ ns_of_mem_sources hsources' hsource
  rw [Source.read, Source.read, hsecrets ref hns]

theorem revise_eq_none_of_sameNames {loaded : Sources} (hnames : SameNames old new)
    (hkey : old.key = new.key) (hcurrent : current new = current old)
    (hrevise : derivation.revise h loaded old = .ok none) :
    derivation.revise h' loaded new = .ok none := by
  obtain ⟨value, hvalue, hunchanged⟩ := Derivation.revise_eq_none.mp hrevise
  have hvalue' : desired loaded new = .ok value := by
    rw [← hvalue]
    show desired loaded new = desired loaded old
    rw [desired, desired, references_congr hnames hkey, hcurrent]
  refine Derivation.revise_eq_none.mpr ⟨value, hvalue', ?_⟩
  show decide (current new = value) = true
  rwa [hcurrent]

theorem sync_unchanged_of_sameNames (hold : c.get .route r = .ok (some old))
    (hnew : c'.get .route r = .ok (some new)) (hsecure : new.content.isSecure = true)
    (hsecrets : ∀ ref, ref.ns = r.ns → c'.get .secret ref = c.get .secret ref)
    (hcurrent : current new = current old) (hnames : SameNames old new)
    (hrun : (kind.sync c h r).1 = .ok .unchanged) :
    kind.sync c' h' r = (.ok .unchanged, c') := by
  obtain ⟨_, hrun⟩ := SyncKind.exists_sync_eq (congrArg Except.toOption hrun)
  obtain ⟨-, target, loaded, hl, hrevise⟩ := SyncKind.sync_eq_unchanged.mp hrun
  cases hold.symm.trans hl.get
  have hl' : kind.Loads c' h' r new loaded := loads_of_sameNames hl hnew hsecure hsecrets hnames
  have hkey : old.key = new.key := hl.key_eq.trans hl'.key_eq.symm
  exact SyncKind.sync_eq_unchanged.mpr
    ⟨rfl, new, loaded, hl', revise_eq_none_of_sameNames hnames hkey hcurrent hrevise⟩

/-- What the filter passes over leaves nothing to do, unless the route has come to need a
certificate. -/
theorem sync_idle_of_rejected (hold : c.get .route r = .ok (some old))
    (hnew : c'.get .route r = .ok (some new))
    (hsecrets : ∀ ref, ref.ns = r.ns → c'.get .secret ref = c.get .secret ref)
    (hcurrent : current new = current old)
    (hidle : (kind.sync c h r).1 = .ok .skipped ∨ (kind.sync c h r).1 = .ok .unchanged)
    (hdropped : kind.targetFilter.accepts (.updated old new) = false)
    (hmanaged : Managed new → Managed old) :
    kind.sync c' h' r = (.ok .skipped, c') ∨ kind.sync c' h' r = (.ok .unchanged, c') := by
  cases hsecure : new.content.isSecure with
  | false => exact .inl (SyncKind.sync_eq_skipped.mpr ⟨rfl, new, hnew, hsecure⟩)
  | true =>
    have hnew' : Managed new := isSecure_iff.mp hsecure
    have hnames : SameNames old new := Classical.byContradiction fun hnames => by
      rw [accepts_updated_iff.mpr ⟨hnew', hnames⟩] at hdropped
      cases hdropped
    rcases hidle with hrun | hrun
    · obtain ⟨_, hrun⟩ := SyncKind.exists_sync_eq (congrArg Except.toOption hrun)
      obtain ⟨-, target, hget, hskipped⟩ := SyncKind.sync_eq_skipped.mp hrun
      cases hold.symm.trans hget
      cases (isSecure_iff.mpr (hmanaged hnew')).symm.trans hskipped
    · exact .inr (sync_unchanged_of_sameNames hold hnew hsecure hsecrets hcurrent hnames hrun)

end RouteCertificates

open RouteCertificates in
/-- The filter passes on the change of a route that needs a certificate and names other secrets than
before, and no other change. One that it passes over, of a route for which there was nothing to do,
leaves nothing to do if the route has needed a certificate before, or needs none now. -/
theorem dropped_change_leaves_route :
    (∀ old new, kind.targetFilter.accepts (.updated old new) = true ↔
      Managed new ∧ ¬ SameNames old new) ∧
    (∀ old new : Route, new.annotations = old.annotations →
      kind.targetFilter.accepts (.updated old new) = false) ∧
    ∀ (old new : Route) (c c' : Cluster) (h h' : Host) (r : Reference),
      c.get .route r = .ok (some old) → c'.get .route r = .ok (some new) →
      (∀ ref, ref.ns = r.ns → c'.get .secret ref = c.get .secret ref) →
      current new = current old →
      (kind.sync c h r).1 = .ok .skipped ∨ (kind.sync c h r).1 = .ok .unchanged →
      kind.targetFilter.accepts (.updated old new) = false → (Managed new → Managed old) →
        kind.sync c' h' r = (.ok .skipped, c') ∨ kind.sync c' h' r = (.ok .unchanged, c') := by
  refine ⟨fun _ _ => accepts_updated_iff, fun old new hsame => ?_,
    fun old new c c' h h' r hold hnew hsecrets hcurrent hidle hdropped hmanaged => ?_⟩
  · have hnames : SameNames old new := ⟨by rw [hsame], by rw [hsame]⟩
    exact Bool.eq_false_iff.mpr fun haccepted => (accepts_updated_iff.mp haccepted).2 hnames
  · exact sync_idle_of_rejected hold hnew hsecrets hcurrent hidle hdropped hmanaged

namespace RouteCertificates.FrontendRoute

def source : Secret where
  metadata := { Metadata.empty with name := some "rc", ns := some "apps" }
  content := ⟨some Field.tlsSecretType, some ((∅ : Dict Bytes).insert Field.tlsKey [75]), ∅⟩

def route (termination : String) (tlsKey : Option String) (key value : String) : Route where
  metadata := { Metadata.empty with
    name := some "frontend"
    ns := some "apps"
    annotations := some (((∅ : Annotations).insert Key.certsFromSecret "rc").insert key value) }
  content := ⟨none, some ⟨termination, none, tlsKey, none, none, ∅⟩, ∅⟩

def cluster (r : Route) : Cluster := .ofStore ((Store.empty.insert source).insert r)

def host : Host := ⟨"service-ca.crt", .error "absent", 0, fun _ => ⟨List.replicate 20 1, rfl⟩⟩

def run (r : Route) : Except SyncError Outcome × Cluster :=
  kind.sync (cluster r) host ⟨"apps", "frontend"⟩

def accepts (old new : Route) : Bool := kind.targetFilter.accepts (.updated old new)

theorem get_cluster {r : Route} (hkey : r.key = ⟨"apps", "frontend"⟩) :
    (cluster r).get .route ⟨"apps", "frontend"⟩ = .ok (some r) :=
  Cluster.get_eq_ok.mpr ⟨rfl, hkey ▸ Store.find?_insert _ r⟩

theorem get_secret_cluster (r r' : Route) (ref : Reference) :
    (cluster r').get .secret ref = (cluster r).get .secret ref := by
  apply Cluster.get_congr rfl
  have hfind (r : Route) : (cluster r).store.find? .secret ref
      = (Store.empty.insert source).find? .secret ref :=
    Store.find?_insert_of_ne _ _ (by simp)
  exact (hfind r').trans (hfind r).symm

end RouteCertificates.FrontendRoute

open RouteCertificates RouteCertificates.FrontendRoute in
/-- Any other annotation may be set. -/
theorem dropped_change_leaves_route_annotated :
    let old := route "edge" (some "K") "note" "new"
    let new := route "edge" (some "K") "note" "checked"
    accepts old new = false ∧
      (run new = (.ok .skipped, cluster new) ∨ run new = (.ok .unchanged, cluster new)) := by
  intro old new
  have hdropped : accepts old new = false := by
    decide +kernel
  have hidle : (run old).1.toOption = some .unchanged := by
    decide +kernel
  obtain ⟨_, hidle⟩ := SyncKind.exists_sync_eq hidle
  have hsecrets (ref : Reference) := get_secret_cluster old new ref
  obtain ⟨-, -, hleft⟩ := dropped_change_leaves_route
  exact ⟨hdropped, hleft old new _ _ host host _ (get_cluster (r := old) rfl)
    (get_cluster (r := new) rfl) (fun ref _ => hsecrets ref) rfl
    (.inr (congrArg Prod.fst hidle)) hdropped fun hmanaged => hmanaged⟩

open RouteCertificates RouteCertificates.FrontendRoute in
/-- A route that names a secret and comes to need a certificate is not noticed, although its key has
to be written. -/
theorem newly_secure_route_dropped :
    let old := route "passthrough" none "note" ""
    let new := route "edge" none "note" ""
    current new = current old ∧ accepts old new = false ∧
      (run old).1.toOption = some .skipped ∧ (run new).1.toOption = some .updated := by
  refine ⟨rfl, ?_, ?_, ?_⟩
  · decide +kernel
  · decide +kernel
  · decide +kernel

end CertKeeper
