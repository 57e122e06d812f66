import CertKeeper.Proofs.Watch.RouteChanges

/-!
# Where the fields of a route come from

A run takes each field of a route from the one secret that one of two annotations names, whatever
else there is. What it leaves behind it derives again, so a second run has nothing to do.
-/

namespace CertKeeper

namespace RouteCertificates

variable {secrets secrets' : Reference → Option Secret} {route route' : Route} {refs : References}
  {named : Option Reference} {ref ref' : Reference} {label key : String}
  {old new old' new' : Option String}

/-- Whether the annotation `label` of a route names the secret `ref`, by its name alone or together
with the namespace that it shares with the route. -/
structure Names (route : Route) (label : String) (ref : Reference) : Prop where
  ns : ref.ns = route.metadata.nsOrEmpty
  name : ref.name ≠ "" ∧ '/' ∉ ref.name.toList
  raw : route.annotations[label]? = some ref.name ∨
    route.annotations[label]? = some ref.display

/-- Whether a field of a route that was `old` has become what the secret that the annotation `label`
names holds under `key`. What the secret does not hold has stayed as it was. -/
structure Takes (secrets : Reference → Option Secret) (route : Route) (label key : String)
    (old new : Option String) : Prop where
  unnamed : route.annotations[label]? = none → present new = none
  named : route.annotations[label]? ≠ none → ∃ ref s, Names route label ref ∧
    secrets ref = some s ∧
      (∀ b, s.content.field key = some b → b ≠ [] → present new = some (Text.Utf8.lossy b)) ∧
      ((∀ b, s.content.field key = some b → b = []) → present new = present old)

theorem names_of_localReference
    (h : route.annotations.localReference label route.metadata.nsOrEmpty = .ok (some ref)) :
    Names route label ref := by
  obtain ⟨raw, hraw, hns, hname⟩ := Annotations.localReference_eq_some.mp h
  refine ⟨hns, Annotations.name_of_localReference h, ?_⟩
  rcases hname with ⟨rfl, -⟩ | hqualified
  · exact .inl hraw
  · obtain ⟨hlist, -⟩ := Reference.parseQualified?_eq_some.mp hqualified
    have hdisplay : raw = ref.display := by
      apply String.toList_injective
      simp [hlist, Reference.display]
    exact .inr (hdisplay ▸ hraw)

theorem Names.unique (h : Names route label ref) (h' : Names route' label ref')
    (hlabel : route'.annotations[label]? = route.annotations[label]?)
    (hns : route'.metadata.nsOrEmpty = route.metadata.nsOrEmpty) : ref' = ref := by
  have hns : ref'.ns = ref.ns := by rw [h'.ns, hns, h.ns]
  have hslash {r r' : Reference} (hr : '/' ∉ r.name.toList) : r.name ≠ r'.display := fun heq =>
    hr (by simp [heq, Reference.display])
  have hraw' := h'.raw
  rw [hlabel] at hraw'
  have hname : ref'.name = ref.name := by
    rcases h.raw with hraw | hraw <;> rcases hraw' with hraw' | hraw' <;>
      have heq := Option.some.inj (hraw'.symm.trans hraw)
    · exact heq
    · exact absurd heq.symm (hslash h.name.2)
    · exact absurd heq (hslash h'.name.2)
    · rw [Reference.display, Reference.display, hns] at heq
      simpa using heq
  cases ref
  cases ref'
  cases hns
  cases hname
  rfl

theorem wantedField_some (secrets : Reference → Option Secret) (ref : Reference) (key : String)
    (now : Option String) : wantedField secrets (some ref) key now
      = (((secrets ref).bind fun s => s.content.value key).map Text.Utf8.lossy).or now := by
  simp only [wantedField]
  cases (secrets ref).bind fun s => s.content.value key <;> rfl

theorem takes_of_wantedField
    (href : route.annotations.localReference label route.metadata.nsOrEmpty = .ok named)
    (hstored : ∀ ref, named = some ref → ∃ s, secrets ref = some s)
    (hnew : present new = wantedField secrets named key (present old)) :
    Takes secrets route label key old new := by
  cases named with
  | none =>
    have hnone := Annotations.localReference_eq_none.mp href
    exact ⟨fun _ => hnew, fun hsome => absurd hnone hsome⟩
  | some ref =>
    obtain ⟨raw, hraw, -⟩ := Annotations.localReference_eq_some.mp href
    obtain ⟨s, hs⟩ := hstored ref rfl
    rw [wantedField_some, hs, Option.bind_some] at hnew
    constructor
    · intro hnone
      cases hnone.symm.trans hraw
    · intro _
      refine ⟨ref, s, names_of_localReference href, hs, fun b hb hne => ?_, fun hempty => ?_⟩
      · rw [hnew, Secret.Content.value_eq_some.mpr ⟨hb, hne⟩]
        rfl
      · have hnone : s.content.value key = none := by
          refine Option.eq_none_iff_forall_ne_some.mpr fun b hb => ?_
          obtain ⟨hb, hne⟩ := Secret.Content.value_eq_some.mp hb
          exact hne (hempty b hb)
        rw [hnew, hnone]
        rfl

/-- Whether the annotation `label` leads from two versions of a route to the same secret. -/
structure AlikeFor (label : String) (secrets secrets' : Reference → Option Secret)
    (route route' : Route) : Prop where
  raw : route'.annotations[label]? = route.annotations[label]?
  secret : ∀ ref, Names route label ref → secrets' ref = secrets ref

theorem Takes.unique (h : Takes secrets route label key old new)
    (h' : Takes secrets' route' label key old' new')
    (hns : route'.metadata.nsOrEmpty = route.metadata.nsOrEmpty)
    (halike : AlikeFor label secrets secrets' route route')
    (hold : present old' = present old) : present new' = present new := by
  by_cases hnone : route.annotations[label]? = none
  · rw [h.unnamed hnone, h'.unnamed (halike.raw.trans hnone)]
  · obtain ⟨ref, s, hnames, hs, hheld, hkept⟩ := h.named hnone
    obtain ⟨ref', s', hnames', hs', hheld', hkept'⟩ := h'.named (halike.raw ▸ hnone)
    obtain rfl := hnames.unique hnames' halike.raw hns
    have hsame : s' = s := by
      rw [halike.secret ref' hnames, hs] at hs'
      exact (Option.some.inj hs').symm
    subst hsame
    by_cases hempty : ∀ b, s'.content.field key = some b → b = []
    · rw [hkept hempty, hkept' hempty, hold]
    · obtain ⟨b, hempty⟩ := Classical.not_forall.mp hempty
      obtain ⟨hb, hne⟩ := Classical.not_imp.mp hempty
      rw [hheld b hb hne, hheld' b hb hne]

/-- Whether the fields of a route have been taken from where its annotations say. -/
structure Derived (secrets : Reference → Option Secret) (route : Route) (old new : Route.Tls) :
    Prop where
  key : Takes secrets route Key.certsFromSecret Field.tlsKey old.key new.key
  certificate :
    Takes secrets route Key.certsFromSecret Field.tlsCert old.certificate new.certificate
  caCertificate :
    Takes secrets route Key.certsFromSecret Field.caCert old.caCertificate new.caCertificate
  destinationCa : Takes secrets route Key.destinationCaFromSecret Field.caCert
    old.destinationCaCertificate new.destinationCaCertificate

theorem wantedField_wantedField (secrets : Reference → Option Secret) (ref : Option Reference)
    (key : String) (now : Option String) :
    wantedField secrets ref key (wantedField secrets ref key now)
      = wantedField secrets ref key now := by
  cases ref with
  | none => rfl
  | some r => rw [wantedField_some, wantedField_some, ← Option.or_assoc, Option.or_self]

/-- What a route should hold is not changed by its holding it. -/
theorem wanted_wanted (secrets : Reference → Option Secret) (refs : References) (now : Fields) :
    wanted secrets refs (wanted secrets refs now) = wanted secrets refs now := by
  simp only [wanted, wantedField_wantedField]

theorem isSecure_write (f : Fields) (route : Route) :
    (write f route).content.isSecure = route.content.isSecure := by
  simp only [write, Route.Content.isSecure]
  cases route.content.spec.tls <;> rfl

variable {c c' : Cluster} {h : Host} {r : Reference} {outcome : Outcome} {before after : Route}
  {loaded : Sources}

/-- What a run leaves behind that is done. -/
structure Left (c c' : Cluster) (h : Host) (r : Reference) (before after : Route)
    (loaded : Sources) : Prop where
  loads : kind.Loads c h r before loaded
  get : c'.get .route r = .ok (some after)
  secure : after.content.isSecure = true
  names : SameNames before after
  secrets : c'.store.find? .secret = c.store.find? .secret
  refusals : c'.refusals = c.refusals
  holds : ∃ refs, references before = .ok refs ∧
    current after = wanted (c.store.find? .secret) refs (current before)

theorem exists_left (hrun : kind.sync c h r = (.ok outcome, c'))
    (hdone : outcome = .updated ∨ outcome = .unchanged) :
    ∃ before after loaded, Left c c' h r before after loaded := by
  obtain ⟨before, loaded, value, after, hl, hvalue, hget, hafter⟩ :=
    revisedBy.exists_after hrun hdone
  obtain ⟨before', after', refs, hbefore, hafter', hrefs, hcurrent⟩ :=
    exists_wanted_after hrun hdone
  cases hl.find?.symm.trans hbefore
  cases (Cluster.get_eq_ok.mp hget).2.symm.trans hafter'
  refine ⟨before, after, loaded, ?_⟩
  rcases hafter with ⟨-, rfl, rfl⟩ | ⟨version, rfl, hupdate⟩
  · exact {
      loads := hl
      get := hget
      secure := hl.applies
      names := ⟨rfl, rfl⟩
      secrets := rfl
      refusals := rfl
      holds := ⟨refs, hrefs, hcurrent⟩ }
  · exact {
      loads := hl
      get := hget
      secure := (isSecure_write value before).trans hl.applies
      names := ⟨rfl, rfl⟩
      secrets := funext fun ref => Cluster.find?_update_of_ne hupdate (by simp)
      refusals := Cluster.refusals_update hupdate
      holds := ⟨refs, hrefs, hcurrent⟩ }

theorem Left.sync_unchanged (hleft : Left c c' h r before after loaded) (h' : Host) :
    kind.sync c' h' r = (.ok .unchanged, c') := by
  have hl : kind.Loads c' h' r after loaded :=
    loads_of_sameNames hleft.loads hleft.get hleft.secure
      (fun ref _ => Cluster.get_congr hleft.refusals (congrFun hleft.secrets ref)) hleft.names
  obtain ⟨refs, hrefs, hcurrent⟩ := hleft.holds
  have hkey : before.key = after.key := hleft.loads.key_eq.trans hl.key_eq.symm
  have hrefs' : references after = .ok refs := references_congr hleft.names hkey ▸ hrefs
  have hdesired : desired loaded after = .ok (current after) := by
    rw [desired_eq_wanted hl hrefs', hleft.secrets, hcurrent, wanted_wanted]
  refine hl.sync_eq_unchanged_iff.mpr ?_
  exact (Derivation.revise_eq_none_iff_of_desired hdesired).mpr (decide_eq_true rfl)

theorem exists_tls (h : route.content.isSecure = true) :
    ∃ tls, route.content.spec.tls = some tls := by
  cases htls : route.content.spec.tls with
  | none => simp [Route.Content.isSecure, htls] at h
  | some tls => exact ⟨tls, rfl⟩

theorem current_of_tls {tls : Route.Tls} (h : route.content.spec.tls = some tls) :
    current route = ⟨present tls.key, present tls.certificate, present tls.caCertificate,
      present tls.destinationCaCertificate⟩ := by
  simp only [current, h]

theorem Left.derived (hleft : Left c c' h r before after loaded) {old new : Route.Tls}
    (hold : before.content.spec.tls = some old) (hnew : after.content.spec.tls = some new) :
    Derived (c.store.find? .secret) before old new := by
  obtain ⟨refs, hrefs, hcurrent⟩ := hleft.holds
  rw [current_of_tls hold, current_of_tls hnew, wanted, Fields.mk.injEq] at hcurrent
  obtain ⟨hkey, hcertificate, hcaCertificate, hdestinationCa⟩ := hcurrent
  obtain ⟨hcerts, hdestination⟩ := references_eq_ok.mp hrefs
  obtain ⟨sources, hsources, hread⟩ := hleft.loads.readAll
  obtain ⟨refs', hrefs', hmem⟩ := exists_references hsources
  cases hrefs.symm.trans hrefs'
  have hstored (ref : Reference) (href : refs.certs = some ref) :=
    Source.exists_of_readAll hread ((hmem ref).mpr (.inl href))
  have hstored' (ref : Reference) (href : refs.destinationCa = some ref) :=
    Source.exists_of_readAll hread ((hmem ref).mpr (.inr href))
  exact {
    key := takes_of_wantedField hcerts hstored hkey
    certificate := takes_of_wantedField hcerts hstored hcertificate
    caCertificate := takes_of_wantedField hcerts hstored hcaCertificate
    destinationCa := takes_of_wantedField hdestination hstored' hdestinationCa }

/-- Whether what two runs have made of a route agrees in each field that is to be derived alike. -/
structure Independent (secrets secrets' : Reference → Option Secret) (route route' : Route)
    (old new old' new' : Route.Tls) : Prop where
  key : AlikeFor Key.certsFromSecret secrets secrets' route route' →
    present old'.key = present old.key → present new'.key = present new.key
  certificate : AlikeFor Key.certsFromSecret secrets secrets' route route' →
    present old'.certificate = present old.certificate →
      present new'.certificate = present new.certificate
  caCertificate : AlikeFor Key.certsFromSecret secrets secrets' route route' →
    present old'.caCertificate = present old.caCertificate →
      present new'.caCertificate = present new.caCertificate
  destinationCa : AlikeFor Key.destinationCaFromSecret secrets secrets' route route' →
    present old'.destinationCaCertificate = present old.destinationCaCertificate →
      present new'.destinationCaCertificate = present new.destinationCaCertificate

theorem Derived.independent {old new old' new' : Route.Tls} (h : Derived secrets route old new)
    (h' : Derived secrets' route' old' new')
    (hns : route'.metadata.nsOrEmpty = route.metadata.nsOrEmpty) :
    Independent secrets secrets' route route' old new old' new' where
  key := h.key.unique h'.key hns
  certificate := h.certificate.unique h'.certificate hns
  caCertificate := h.caCertificate.unique h'.caCertificate hns
  destinationCa := h.destinationCa.unique h'.destinationCa hns

/-- Whether a run is done that has found a route with the fields `old` and has left it with the
fields `new`. -/
structure Done (c c' : Cluster) (h : Host) (r : Reference) (before : Route) (old new : Route.Tls) :
    Prop where
  ran : ∃ outcome, kind.sync c h r = (.ok outcome, c') ∧
    (outcome = .updated ∨ outcome = .unchanged)
  found : c.store.find? .route r = some before ∧ before.content.spec.tls = some old
  left : ∃ after, c'.store.find? .route r = some after ∧ after.content.spec.tls = some new

theorem Done.derived {old new : Route.Tls} (h : Done c c' h r before old new) :
    Derived (c.store.find? .secret) before old new := by
  obtain ⟨outcome, hrun, hdone⟩ := h.ran
  obtain ⟨hbefore, hold⟩ := h.found
  obtain ⟨after, hafter, hnew⟩ := h.left
  obtain ⟨before', after', loaded, hleft⟩ := exists_left hrun hdone
  cases hleft.loads.find?.symm.trans hbefore
  cases (Cluster.get_eq_ok.mp hleft.get).2.symm.trans hafter
  exact hleft.derived hold hnew

/-- After a run that is done, each field of the route is what the secret holds that its annotation
names, or what it was if the secret does not hold it, and is absent without an annotation. Other
secrets have nothing to do with it, and another run changes nothing. -/
theorem fields_derived (hrun : kind.sync c h r = (.ok outcome, c'))
    (hdone : outcome = .updated ∨ outcome = .unchanged) :
    ∃ before old new, Done c c' h r before old new ∧
      Derived (c.store.find? .secret) before old new ∧
      (∀ d d' g before' old' new', Done d d' g r before' old' new' →
        Independent (c.store.find? .secret) (d.store.find? .secret) before before'
          old new old' new') ∧
      ∀ h', kind.sync c' h' r = (.ok .unchanged, c') := by
  obtain ⟨before, after, loaded, hleft⟩ := exists_left hrun hdone
  obtain ⟨old, hold⟩ := exists_tls hleft.loads.applies
  obtain ⟨new, hnew⟩ := exists_tls hleft.secure
  have hderived := hleft.derived hold hnew
  refine ⟨before, old, new, ?_, hderived, fun d d' g before' old' new' h' => ?_,
    hleft.sync_unchanged⟩
  · exact ⟨⟨outcome, hrun, hdone⟩, ⟨hleft.loads.find?, hold⟩,
      after, (Cluster.get_eq_ok.mp hleft.get).2, hnew⟩
  · have hkey : before'.key = before.key := by
      rw [Store.key_of_find? h'.found.1, hleft.loads.key_eq]
    exact hderived.independent h'.derived (congrArg Reference.ns hkey)

end RouteCertificates

namespace RouteCertificates.FrontendRoute

def keyless : Route := route "edge" none "note" ""

theorem names_source : Names keyless Key.certsFromSecret ⟨"apps", "rc"⟩ := by
  refine ⟨rfl, by decide, .inl ?_⟩
  show keyless.annotations[Key.certsFromSecret]? = some "rc"
  decide +kernel

theorem find?_source : (cluster keyless).store.find? .secret ⟨"apps", "rc"⟩ = some source :=
  (Store.find?_insert_of_ne _ _ (by simp)).trans (Store.find?_insert _ source)

end RouteCertificates.FrontendRoute

open RouteCertificates RouteCertificates.FrontendRoute in
/-- A route takes its key from the secret that it names, and no CA of its destination. -/
theorem RouteCertificates.fields_derived_keyless : ∃ c' old new,
    kind.sync (cluster keyless) host ⟨"apps", "frontend"⟩ = (.ok .updated, c') ∧
      Done (cluster keyless) c' host ⟨"apps", "frontend"⟩ keyless old new ∧
        present new.key = some "K" ∧ present new.destinationCaCertificate = none ∧
          kind.sync c' host ⟨"apps", "frontend"⟩ = (.ok .unchanged, c') := by
  have hupdated : (run keyless).1.toOption = some .updated := by
    decide +kernel
  obtain ⟨c', hrun⟩ := SyncKind.exists_sync_eq hupdated
  obtain ⟨before, old, new, hdone, hderived, -, hagain⟩ := fields_derived hrun (.inl rfl)
  have hkeyless : keyless = before := by
    have hget := (Cluster.get_eq_ok.mp (get_cluster (r := keyless) rfl)).2
    exact Option.some.inj (hget.symm.trans hdone.found.1)
  subst hkeyless
  refine ⟨c', old, new, hrun, hdone, ?_, ?_, hagain host⟩
  · have hnamed : keyless.annotations[Key.certsFromSecret]? ≠ none := by
      decide +kernel
    obtain ⟨ref, s, hnames, hs, hheld, -⟩ := hderived.key.named hnamed
    obtain rfl := names_source.unique hnames rfl rfl
    cases find?_source.symm.trans hs
    exact hheld [75] Std.ExtTreeMap.getElem?_insert_self (by simp)
  · have hunnamed : keyless.annotations[Key.destinationCaFromSecret]? = none := by
      decide +kernel
    exact hderived.destinationCa.unnamed hunnamed

end CertKeeper
