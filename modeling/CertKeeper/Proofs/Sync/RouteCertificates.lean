import CertKeeper.Proofs.Annotation.Reference
import CertKeeper.Proofs.Object.Content
import CertKeeper.Proofs.Sync.Run
import CertKeeper.Proofs.Text.Utf8
import CertKeeper.Sync.RouteCertificates

/-!
# Routes hold what their secrets hold

What a route should hold is known from the secrets that it names and from what it holds already: a
field that a secret does not hold keeps its value. A run that is done leaves exactly this behind.
-/

namespace CertKeeper

namespace Source

variable {c : Cluster} {h : Host} {loaded : Sources} {ref : Reference} {s : Secret}

theorem exists_of_readAll {sources : List Source} (hread : readAll c h sources = .ok loaded)
    (hmem : secret ref ∈ sources) : ∃ s, c.store.find? .secret ref = some s := by
  induction sources generalizing loaded with
  | nil => cases hmem
  | cons source rest ih =>
    obtain ⟨material, hmaterial, hread⟩ := bind_eq_ok.mp hread
    obtain ⟨others, hothers, -⟩ := bind_eq_ok.mp hread
    cases hmem with
    | head =>
      obtain ⟨s, hget, -⟩ := read_secret_eq_ok.mp hmaterial
      exact ⟨s, (Cluster.get_eq_ok.mp hget).2⟩
    | tail _ hmem => exact ih hothers hmem

theorem field_of_readAll {sources : List Source} (hread : readAll c h sources = .ok loaded)
    (hmem : secret ref ∈ sources) (hs : c.store.find? .secret ref = some s) (key : String) :
    loaded.field (secret ref) key = s.content.value key := by
  induction sources generalizing loaded with
  | nil => cases hmem
  | cons source rest ih =>
    obtain ⟨material, hmaterial, hread⟩ := bind_eq_ok.mp hread
    obtain ⟨others, hothers, hread⟩ := bind_eq_ok.mp hread
    cases hread
    by_cases hsource : source = secret ref
    · subst hsource
      obtain ⟨s', hget, rfl⟩ := read_secret_eq_ok.mp hmaterial
      cases hs.symm.trans (Cluster.get_eq_ok.mp hget).2
      rw [Sources.field, List.lookup_cons_self, Option.bind_some, Secret.Content.material,
        Secret.Content.value, Secret.Content.field]
      cases s.content.data <;> simp
    · have hrest : secret ref ∈ rest := (List.mem_cons.mp hmem).resolve_left (Ne.symm hsource)
      have hlookup : (secret ref == source) = false := by simpa using Ne.symm hsource
      rw [Sources.field, List.lookup_cons, hlookup]
      exact ih hothers hrest

end Source

namespace RouteCertificates

theorem revisedBy : kind.RevisedBy derivation where
  revise := rfl
  metadata _ _ := rfl

variable {route : Route} {refs : References} {ref : Reference}

theorem references_eq_ok : references route = .ok refs ↔
    route.annotations.localReference Key.certsFromSecret route.metadata.nsOrEmpty
        = .ok refs.certs ∧
      route.annotations.localReference Key.destinationCaFromSecret route.metadata.nsOrEmpty
        = .ok refs.destinationCa := by
  simp only [references, bind_eq_ok, Except.ok.injEq]
  constructor
  · rintro ⟨certs, hcerts, destinationCa, hdestinationCa, rfl⟩
    exact ⟨hcerts, hdestinationCa⟩
  · rintro ⟨hcerts, hdestinationCa⟩
    exact ⟨refs.certs, hcerts, refs.destinationCa, hdestinationCa, rfl⟩

theorem exists_references {sources : List Source}
    (hsources : RouteCertificates.sources route = .ok sources) :
    ∃ refs, references route = .ok refs ∧ ∀ ref, .secret ref ∈ sources ↔
      refs.certs = some ref ∨ refs.destinationCa = some ref := by
  obtain ⟨refs, hrefs, hsources⟩ := bind_eq_ok.mp hsources
  cases hsources
  refine ⟨refs, hrefs, fun ref => ?_⟩
  simp [List.mem_eraseDups, eq_comm]

theorem ns_of_mem_sources {sources : List Source}
    (hsources : RouteCertificates.sources route = .ok sources) (hmem : .secret ref ∈ sources) :
    ref.ns = route.key.ns := by
  obtain ⟨refs, hrefs, hmem'⟩ := exists_references hsources
  obtain ⟨hcerts, hdestinationCa⟩ := references_eq_ok.mp hrefs
  rcases (hmem' ref).mp hmem with h | h
  · exact Annotations.ns_of_localReference (h ▸ hcerts)
  · exact Annotations.ns_of_localReference (h ▸ hdestinationCa)

/-- The text of a field of the secret `ref`. Where the secret does not hold it, `now` stays; without
a reference there is none. -/
def wantedField (secrets : Reference → Option Secret) (ref : Option Reference) (key : String)
    (now : Option String) : Option String :=
  match ref with
  | none => none
  | some r =>
    match (secrets r).bind fun s => s.content.value key with
    | some b => some (Text.Utf8.lossy b)
    | none => now

/-- What a route that holds the fields `now` should hold, by the content of the secrets. -/
def wanted (secrets : Reference → Option Secret) (refs : References) (now : Fields) : Fields where
  key := wantedField secrets refs.certs Field.tlsKey now.key
  certificate := wantedField secrets refs.certs Field.tlsCert now.certificate
  caCertificate := wantedField secrets refs.certs Field.caCert now.caCertificate
  destinationCa := wantedField secrets refs.destinationCa Field.caCert now.destinationCa

theorem present_of_ne_empty {s : String} (h : s ≠ "") : present (some s) = some s := by
  simp [present, h]

theorem present_present (value : Option String) : present (present value) = present value := by
  cases value with
  | none => rfl
  | some s => by_cases h : s = "" <;> simp [present, h]

theorem present_wantedField (secrets : Reference → Option Secret) (ref : Option Reference)
    (key : String) {now : Option String} (hnow : present now = now) :
    present (wantedField secrets ref key now) = wantedField secrets ref key now := by
  unfold wantedField
  split
  · rfl
  · rename_i r
    split
    · rename_i b hb
      obtain ⟨s, -, hvalue⟩ := Option.bind_eq_some_iff.mp hb
      obtain ⟨b', -, hb'⟩ := Option.bind_eq_some_iff.mp hvalue
      obtain ⟨hne, rfl⟩ := Bytes.nonEmpty?_eq_some.mp hb'
      exact present_of_ne_empty (Text.Utf8.lossy_ne_empty hne)
    · exact hnow

structure Present (f : Fields) : Prop where
  key : present f.key = f.key
  certificate : present f.certificate = f.certificate
  caCertificate : present f.caCertificate = f.caCertificate
  destinationCa : present f.destinationCa = f.destinationCa

theorem present_current (route : Route) : Present (current route) := by
  unfold current
  split
  · exact ⟨present_present _, present_present _, present_present _, present_present _⟩
  · exact ⟨rfl, rfl, rfl, rfl⟩

theorem Present.wanted {now : Fields} (h : Present now) (secrets : Reference → Option Secret)
    (refs : References) : Present (wanted secrets refs now) where
  key := present_wantedField secrets refs.certs _ h.key
  certificate := present_wantedField secrets refs.certs _ h.certificate
  caCertificate := present_wantedField secrets refs.certs _ h.caCertificate
  destinationCa := present_wantedField secrets refs.destinationCa _ h.destinationCa

theorem current_write {f : Fields} (hf : Present f) (hsecure : route.content.isSecure = true)
    (version : Option String) : current ((write f route).withResourceVersion version) = f := by
  cases htls : route.content.spec.tls with
  | none => simp [Route.Content.isSecure, htls] at hsecure
  | some t =>
    simp only [current, write, Object.content_withResourceVersion, htls, Option.map_some, writeTls]
    rw [hf.key, hf.certificate, hf.caCertificate, hf.destinationCa]

variable {c c' : Cluster} {h : Host} {r : Reference} {loaded : Sources} {outcome : Outcome}

theorem derived_eq_wantedField (hl : kind.Loads c h r route loaded)
    (hrefs : references route = .ok refs) {named : Option Reference}
    (hnamed : refs.certs = named ∨ refs.destinationCa = named) (key : String)
    (now : Option String) :
    derived loaded named key now = wantedField (c.store.find? .secret) named key now := by
  obtain ⟨sources, hsources, hread⟩ := hl.readAll
  obtain ⟨refs', hrefs', hmem⟩ := exists_references hsources
  cases hrefs.symm.trans hrefs'
  cases named with
  | none => rfl
  | some ref =>
    have href := (hmem ref).mpr hnamed
    obtain ⟨s, hs⟩ := Source.exists_of_readAll hread href
    simp only [derived, wantedField, Option.bind_some, hs, Source.field_of_readAll hread href hs]
    cases s.content.value key <;> rfl

theorem desired_eq_wanted (hl : kind.Loads c h r route loaded)
    (hrefs : references route = .ok refs) :
    desired loaded route = .ok (wanted (c.store.find? .secret) refs (current route)) := by
  have hcerts := derived_eq_wantedField hl hrefs (.inl rfl)
  have hdestinationCa := derived_eq_wantedField hl hrefs (.inr rfl)
  simp only [desired, hrefs, ok_bind, wanted, hcerts, hdestinationCa]

theorem exists_wanted_after (hrun : kind.sync c h r = (.ok outcome, c'))
    (hdone : outcome = .updated ∨ outcome = .unchanged) :
    ∃ before after refs, c.store.find? .route r = some before ∧
      c'.store.find? .route r = some after ∧ references before = .ok refs ∧
        current after = wanted (c.store.find? .secret) refs (current before) := by
  obtain ⟨before, loaded, value, after, hl, hvalue, hget, hafter⟩ :=
    revisedBy.exists_after hrun hdone
  obtain ⟨sources, hsources, -⟩ := hl.readAll
  obtain ⟨refs, hrefs, -⟩ := exists_references hsources
  cases (desired_eq_wanted hl hrefs).symm.trans hvalue
  refine ⟨before, after, refs, hl.find?, (Cluster.get_eq_ok.mp hget).2, hrefs, ?_⟩
  rcases hafter with ⟨hunchanged, rfl, -⟩ | ⟨version, rfl, -⟩
  · exact of_decide_eq_true hunchanged
  · exact current_write ((present_current before).wanted _ refs) hl.applies version

end RouteCertificates
end CertKeeper
