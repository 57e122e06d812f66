import CertKeeper.Proofs.Sync.Sequence

/-!
# Targets that mirror secrets

The controllers that changes of secrets matter to are alike: what a target should hold is known from
some fields of the secrets that it names, a run that is done leaves it behind, and no run for one
target changes what another one holds or should hold by the same secret.
-/

namespace CertKeeper

/-- Whether `after` holds in all slots the bundle of the secret that `before` names. -/
def CaTarget.Holds {k : Kind} (t : CaTarget k) (secrets : Reference → Option Secret)
    (before after : Object k) : Prop :=
  ∃ ref, t.sources before = .ok [.secret ref] ∧
    let bundle := (secrets ref).bind fun s => s.content.value Field.caCert
    t.bundles after = (t.bundles before).map fun _ => bundle.map (held k)

/-- Whether `after` holds what `before` should hold by the content of the secrets that it names. -/
def RouteCertificates.Holds (secrets : Reference → Option Secret) (before after : Route) : Prop :=
  ∃ refs, references before = .ok refs ∧ current after = wanted secrets refs (current before)

/-- A controller whose targets hold what the secrets hold that they name. -/
structure Mirror where
  controller : Controller
  /-- The fields of secrets that matter. -/
  fields : List String
  /-- What becomes of a target by the content of the secrets. -/
  holds : (Reference → Option Secret) → Object controller.kind → Object controller.kind → Prop

namespace Mirror

def all : List Mirror :=
  [⟨⟨_, CaTarget.configMap.injection⟩, [Field.caCert], CaTarget.configMap.Holds⟩,
    ⟨⟨_, CaTarget.secret.injection⟩, [Field.caCert], CaTarget.secret.Holds⟩,
    ⟨⟨_, CaTarget.apiService.injection⟩, [Field.caCert], CaTarget.apiService.Holds⟩,
    ⟨⟨_, CaTarget.mutatingWebhooks.injection⟩, [Field.caCert], CaTarget.mutatingWebhooks.Holds⟩,
    ⟨⟨_, CaTarget.validatingWebhooks.injection⟩, [Field.caCert], CaTarget.validatingWebhooks.Holds⟩,
    ⟨⟨_, CaTarget.resourceDefinition.injection⟩, [Field.caCert], CaTarget.resourceDefinition.Holds⟩,
    ⟨⟨_, RouteCertificates.kind⟩, [Field.tlsCert, Field.tlsKey, Field.caCert],
      RouteCertificates.Holds⟩]

def SameFields (fields : List String) (s s' : Option Secret) : Prop :=
  ∀ key ∈ fields,
    (s.bind fun s => s.content.field key) = s'.bind fun s => s.content.field key

theorem SameFields.value {fields : List String} {s s' : Option Secret}
    (h : SameFields fields s s') {key : String} (hkey : key ∈ fields) :
    (s.bind fun s => s.content.value key) = s'.bind fun s => s.content.value key := by
  have hvalue (s : Option Secret) : (s.bind fun s => s.content.value key)
      = (s.bind fun s => s.content.field key).bind Bytes.nonEmpty? := by
    cases s <;> rfl
  rw [hvalue, hvalue, h key hkey]

/-- What makes the targets of a controller follow the secrets that they name. -/
structure Lawful (m : Mirror) : Prop where
  sourceFilter : m.controller.sync.sourceFilter = some (.tlsSourceChanged m.fields)
  staysLocal : m.controller.sync.StaysLocal
  keeps : m.controller.sync.Keeps fun _ _ => True
  /-- No more than some fields of the secrets that a target names matter to it. -/
  holds_congr : ∀ {before after secrets secrets' sources},
    m.controller.sync.sources before = .ok sources →
    (∀ ref, .secret ref ∈ sources → SameFields m.fields (secrets ref) (secrets' ref)) →
      m.holds secrets before after → m.holds secrets' before after
  /-- A run that is done leaves behind what the target should hold. -/
  holds_after : ∀ {c c' h r target sources ref outcome},
    c.store.find? m.controller.kind r = some target →
    m.controller.sync.sources target = .ok sources → .secret ref ∈ sources →
    m.controller.sync.sync c h r = (.ok outcome, c') →
    outcome = .updated ∨ outcome = .unchanged →
      ∃ after, c'.store.find? m.controller.kind r = some after ∧
        m.holds (c.store.find? .secret) target after
  /-- A secret that names itself holds what it should. -/
  holds_self : ∀ {c : Cluster} {r target sources},
    (Kind.secret, r) = (m.controller.kind, target.key) →
    c.store.find? m.controller.kind target.key = some target →
    m.controller.sync.sources target = .ok sources → .secret r ∈ sources →
      m.holds (c.store.find? .secret) target target
  /-- A run for a target that names `ref` changes no secret that is named along with `ref`. -/
  find?_secret_sync : ∀ {c h r target sources target' sources' ref ref'},
    c.store.find? m.controller.kind r = some target →
    m.controller.sync.sources target = .ok sources → .secret ref ∈ sources →
    m.controller.sync.sources target' = .ok sources' → .secret ref ∈ sources' →
    .secret ref' ∈ sources' →
      (m.controller.sync.sync c h r).2.store.find? .secret ref' = c.store.find? .secret ref'

end Mirror

namespace CaTarget

variable {k : Kind} {t : CaTarget k} {c c' : Cluster} {h : Host} {r ref ref' : Reference}
  {o : Object k} {sources : List Source} {outcome : Outcome}

theorem sources_eq_singleton (hsources : t.sources o = .ok sources)
    (href : .secret ref ∈ sources) : sources = [.secret ref] := by
  rcases sources_eq_ok hsources with ⟨raw, ref', -, -, rfl⟩ | ⟨-, -, rfl⟩ | ⟨-, -, rfl⟩
  · rw [List.mem_singleton.mp href]
  · cases List.mem_singleton.mp href
  · cases href

theorem asked_of_mem_sources (hsources : t.sources o = .ok sources)
    (href : .secret ref ∈ sources) :
    t.asked c h o = (c.store.find? .secret ref).bind fun s => s.content.value Field.caCert := by
  rcases sources_eq_ok hsources with ⟨raw, ref', hraw, hparsed, rfl⟩ | ⟨-, -, rfl⟩ | ⟨-, -, rfl⟩
  · cases List.mem_singleton.mp href
    simp only [asked, hraw, hparsed, Option.bind_eq_bind, Option.bind_some]
  · cases List.mem_singleton.mp href
  · cases href

theorem Lawful.bundles_eq_held (ht : t.Lawful) {bundle : Option Bytes}
    (hbundles : t.bundles o = (t.bundles o).map fun _ => bundle) :
    t.bundles o = (t.bundles o).map fun _ => bundle.map (held k) := by
  have hheld : ∀ content ∈ t.bundles o, content = bundle.map (held k) := by
    intro content hcontent
    obtain rfl : content = bundle := by
      rw [hbundles] at hcontent
      obtain ⟨-, -, rfl⟩ := List.mem_map.mp hcontent
      rfl
    cases content with
    | none => rfl
    | some b =>
      rw [ht.bundles_eq] at hcontent
      obtain ⟨slot, hslot, hb⟩ := List.mem_map.mp hcontent
      obtain ⟨b', rfl, hb'⟩ := Option.bind_eq_some_iff.mp hb
      cases (Bytes.nonEmpty?_eq_some.mp hb').2
      rw [Option.map_some, held_of_mem_slots hslot]
  calc t.bundles o = (t.bundles o).map id := (List.map_id _).symm
    _ = (t.bundles o).map fun _ => bundle.map (held k) := List.map_congr_left hheld

theorem holds_after (ht : t.Lawful) (ho : c.store.find? k r = some o)
    (hsources : t.sources o = .ok sources) (href : .secret ref ∈ sources)
    (hrun : t.injection.sync c h r = (.ok outcome, c'))
    (hdone : outcome = .updated ∨ outcome = .unchanged) :
    ∃ after, c'.store.find? k r = some after ∧ t.Holds (c.store.find? .secret) o after := by
  obtain ⟨before, loaded, value, after, hl, hvalue, hget, hafter⟩ :=
    (revisedBy ht).exists_after hrun hdone
  cases ho.symm.trans hl.find?
  have hvalue : (t.bundles o).map (fun _ => t.asked c h o) = value :=
    Except.ok.inj ((desired_eq hl).symm.trans hvalue)
  subst hvalue
  have hbundles : t.bundles after = (t.bundles o).map fun _ => (t.asked c h o).map (held k) := by
    rcases hafter with ⟨hunchanged, rfl, -⟩ | ⟨version, rfl, -⟩
    · exact ht.bundles_eq_held (of_decide_eq_true hunchanged)
    · exact ht.bundles_write (asked_bind_nonEmpty? t c h o)
  rw [asked_of_mem_sources hsources href] at hbundles
  refine ⟨after, (Cluster.get_eq_ok.mp hget).2, ref, ?_, hbundles⟩
  rw [hsources, sources_eq_singleton hsources href]

theorem holds_self (ht : ofKind? k = some t) (hself : (Kind.secret, r) = (k, o.key))
    (ho : c.store.find? k o.key = some o) (hsources : t.sources o = .ok sources)
    (hr : .secret r ∈ sources) : t.Holds (c.store.find? .secret) o o := by
  obtain ⟨rfl, rfl⟩ := Prod.mk.inj hself
  cases ht
  refine ⟨o.key, by rw [hsources, sources_eq_singleton hsources hr], ?_⟩
  rw [ho, Option.bind_some]
  exact lawful_secret.bundles_eq_held rfl

/-- A secret that names itself is not changed by its run. -/
theorem snd_sync_of_names_self (ht : ofKind? k = some t) (hself : (Kind.secret, ref) = (k, r))
    (ho : c.store.find? k r = some o) (hsources : t.sources o = .ok sources)
    (href : .secret ref ∈ sources) : (t.injection.sync c h r).2 = c := by
  apply SyncKind.snd_sync_eq_of_ne
  intro hupdated
  obtain ⟨c', hrun⟩ := SyncKind.exists_sync_eq (congrArg Except.toOption hupdated)
  obtain ⟨before, after, loaded, hi⟩ := exists_injected ht hrun
  cases ho.symm.trans hi.loads.find?
  exact ne_of_changed ht hi.loads hi.changed hsources href hself

theorem keeps (ht : t.Lawful) : t.injection.Keeps fun _ _ => True :=
  ht.keeps fun _ _ => trivial

theorem mirror_lawful (ht : ofKind? k = some t) :
    (⟨⟨k, t.injection⟩, [Field.caCert], t.Holds⟩ : Mirror).Lawful where
  sourceFilter := rfl
  staysLocal hlocal := by cases hlocal
  keeps := keeps (lawful_of_ofKind? ht)
  holds_congr := by
    intro before after secrets secrets' sources hsources hsame ⟨ref, href, hbundles⟩
    cases hsources.symm.trans href
    have hvalue := (hsame ref List.mem_cons_self).value List.mem_cons_self
    exact ⟨ref, href, hvalue ▸ hbundles⟩
  holds_after := holds_after (lawful_of_ofKind? ht)
  holds_self := holds_self ht
  find?_secret_sync := by
    intro c h r target sources target' sources' ref ref' htarget hsources href hsources' hmem hmem'
    cases sources_eq_singleton hsources' hmem
    cases List.mem_singleton.mp hmem'
    by_cases hself : (Kind.secret, ref) = (k, r)
    · exact congrArg (fun c => c.store.find? .secret ref)
        (snd_sync_of_names_self ht hself htarget hsources href)
    · exact (keeps (lawful_of_ofKind? ht)).find?_sync_of_ne hself

end CaTarget

namespace RouteCertificates

theorem wantedField_congr {fields : List String} {secrets secrets' : Reference → Option Secret}
    {ref : Option Reference}
    (hsame : ∀ r, ref = some r → Mirror.SameFields fields (secrets r) (secrets' r))
    {key : String} (hkey : key ∈ fields) (now : Option String) :
    wantedField secrets ref key now = wantedField secrets' ref key now := by
  cases ref with
  | none => rfl
  | some r => simp only [wantedField, (hsame r rfl).value hkey]

theorem wanted_congr {secrets secrets' : Reference → Option Secret} {refs : References}
    (hsame : ∀ ref, refs.certs = some ref ∨ refs.destinationCa = some ref →
      Mirror.SameFields [Field.tlsCert, Field.tlsKey, Field.caCert] (secrets ref) (secrets' ref))
    (now : Fields) : wanted secrets refs now = wanted secrets' refs now := by
  have hcerts (r : Reference) (hr : refs.certs = some r) := hsame r (.inl hr)
  have hdestinationCa (r : Reference) (hr : refs.destinationCa = some r) := hsame r (.inr hr)
  simp only [wanted]
  congr 1
  · exact wantedField_congr hcerts (by simp) _
  · exact wantedField_congr hcerts (by simp) _
  · exact wantedField_congr hcerts (by simp) _
  · exact wantedField_congr hdestinationCa (by simp) _

theorem keeps : kind.Keeps fun _ _ => True := revisedBy.keeps fun _ _ => trivial

theorem mirror_lawful :
    (⟨⟨_, kind⟩, [Field.tlsCert, Field.tlsKey, Field.caCert], Holds⟩ : Mirror).Lawful where
  sourceFilter := rfl
  staysLocal _ _ _ _ hsources hmem := ns_of_mem_sources hsources hmem
  keeps := keeps
  holds_congr := by
    intro before after secrets secrets' sources hsources hsame ⟨refs, hrefs, hcurrent⟩
    obtain ⟨refs', hrefs', hmem⟩ := exists_references hsources
    cases hrefs.symm.trans hrefs'
    refine ⟨refs, hrefs, hcurrent.trans ?_⟩
    exact wanted_congr (fun ref href => hsame ref ((hmem ref).mpr href)) _
  holds_after := by
    intro c c' h r target sources ref outcome htarget hsources href hrun hdone
    obtain ⟨before, after, refs, hbefore, hafter, hrefs, hcurrent⟩ := exists_wanted_after hrun hdone
    cases htarget.symm.trans hbefore
    exact ⟨after, hafter, refs, hrefs, hcurrent⟩
  holds_self := by
    intro c r target sources hself
    cases hself
  find?_secret_sync := by
    intro c h r target sources target' sources' ref ref' _ _ _ _ _ _
    exact keeps.find?_sync_of_ne (by simp)

end RouteCertificates

namespace Mirror

variable {m : Mirror}

theorem lawful (hm : m ∈ all) : m.Lawful := by
  simp only [all, List.mem_cons, List.not_mem_nil, or_false] at hm
  rcases hm with rfl | rfl | rfl | rfl | rfl | rfl | rfl
  · exact CaTarget.mirror_lawful rfl
  · exact CaTarget.mirror_lawful rfl
  · exact CaTarget.mirror_lawful rfl
  · exact CaTarget.mirror_lawful rfl
  · exact CaTarget.mirror_lawful rfl
  · exact CaTarget.mirror_lawful rfl
  · exact RouteCertificates.mirror_lawful

end Mirror
end CertKeeper
