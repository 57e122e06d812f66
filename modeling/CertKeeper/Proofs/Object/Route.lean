import CertKeeper.Object.Basic
import CertKeeper.Proofs.Json.Settled

/-!
# Routes are carried through

A route is replaced as a whole, so what is lost between reading and writing it is lost to its user.
-/

namespace CertKeeper

namespace Route

/-- Whether a text that may be left out is written as it was read, and left out where it was absent
or `null`. -/
structure TextKept (read written : Json.Fields) (name : String) : Prop where
  text : ∀ s, read.get? name = some (.string s) → written.get? name = some (.string s)
  absent : read.get? name = none ∨ read.get? name = some .null → written.get? name = none

/-- Whether the values under a name are the same, or there is none in either place. -/
def SameAt (read written : Json.Fields) (name : String) : Prop :=
  Option.Rel Json.Same (read.get? name) (written.get? name)

section

variable {read settled written : Json.Fields} {name : String}

theorem SameAt.exists_same {j : Json} (h : SameAt read settled name)
    (hread : read.get? name = some j) : ∃ j', settled.get? name = some j' ∧ Json.Same j j' := by
  rw [SameAt, hread] at h
  cases hsettled : settled.get? name with
  | none =>
    rw [hsettled] at h
    cases h
  | some j' =>
    rw [hsettled] at h
    cases h with
    | some hsame => exact ⟨j', rfl, hsame⟩

theorem SameAt.get?_eq_some {j : Json} (h : SameAt read settled name)
    (hread : read.get? name = some j) (hj : j.isScalar) : settled.get? name = some j := by
  obtain ⟨j', hj', hsame⟩ := h.exists_same hread
  rw [hj', hsame.eq_of_isScalar hj]

theorem SameAt.get?_eq_none (h : SameAt read settled name) (hread : read.get? name = none) :
    settled.get? name = none := by
  rw [SameAt, hread] at h
  cases hsettled : settled.get? name with
  | none => rfl
  | some j =>
    rw [hsettled] at h
    cases h

theorem SameAt.eq_none_of_optional {α : Type} {f : Json → Option α} {v : Option α}
    (hsame : SameAt read settled name) (hv : settled.optional name f = some v)
    (hread : read.get? name = none ∨ read.get? name = some .null) : v = none := by
  obtain ⟨rfl, -⟩ | ⟨j, a, -, hj, hnull, -⟩ := Json.Fields.optional_eq_some.mp hv
  · rfl
  · obtain hread | hread := hread
    · cases (hsame.get?_eq_none hread).symm.trans hj
    · cases (hsame.get?_eq_some hread rfl).symm.trans hj
      exact absurd rfl hnull

theorem SameAt.exists_of_optional {α : Type} {f : Json → Option α} {v : Option α} {j : Json}
    (hsame : SameAt read settled name) (hv : settled.optional name f = some v)
    (hread : read.get? name = some j) (hj : j ≠ .null) :
    ∃ j' a, settled.get? name = some j' ∧ Json.Same j j' ∧ f j' = some a ∧ v = some a := by
  obtain ⟨j', hj', hsame⟩ := hsame.exists_same hread
  have hnull : j' ≠ .null := by
    rintro rfl
    cases hsame
    exact hj rfl
  obtain ⟨-, hnone | hnone⟩ | ⟨_, a, ha, hsettled, -, hf⟩ := Json.Fields.optional_eq_some.mp hv
  · cases hj'.symm.trans hnone
  · exact absurd (Option.some.inj (hj'.symm.trans hnone)) hnull
  · cases hj'.symm.trans hsettled
    exact ⟨j', a, hj', hsame, hf, ha⟩

theorem TextKept.of_optional {v : Option String} (hsame : SameAt read settled name)
    (hv : settled.optional name Json.text? = some v)
    (hwritten : written.get? name = v.map .string) : TextKept read written name where
  text s hread := by
    obtain ⟨j', a, -, hj, ha, rfl⟩ := hsame.exists_of_optional hv hread Json.noConfusion
    cases hj
    cases ha
    exact hwritten
  absent hread := by
    rw [hwritten, hsame.eq_none_of_optional hv hread]
    rfl

end

namespace Tls

def optionalNames : List String :=
  ["certificate", "key", "caCertificate", "destinationCACertificate"]

/-- Whether the fields for TLS that were read are kept in those that are written. -/
structure Kept (read written : Json.Fields) : Prop where
  other : ∀ name, name ∉ known → SameAt read written name
  optional : ∀ name ∈ optionalNames, TextKept read written name
  /-- The termination is always written. -/
  termination : ∃ s, written.get? "termination" = some (.string s) ∧
    (read.get? "termination" = some (.string s) ∨ read.get? "termination" = none ∧ s = "")

/-- Whether the fields beside those that are modelled have other names than these. -/
def Apart (t : Tls) : Prop := ∀ name ∈ known, t.other[name]? = none

/-- The fields that are modelled, as they are written. -/
def modelled (t : Tls) : Json.Fields :=
  ("termination", .string t.termination)
    :: (Json.optionalField "certificate" (t.certificate.map .string)
      ++ Json.optionalField "key" (t.key.map .string)
      ++ Json.optionalField "caCertificate" (t.caCertificate.map .string)
      ++ Json.optionalField "destinationCACertificate" (t.destinationCaCertificate.map .string))

def field? (t : Tls) (name : String) : Option Json := t.modelled.reverse.lookup name

def written (t : Tls) : Json.Fields :=
  (Std.ExtTreeMap.ofList (t.modelled ++ t.other.toList) : Dict Json).toList

theorem toJson_eq (t : Tls) : t.toJson = .object t.written := by
  rw [toJson, Json.sorted_eq]
  rfl

theorem nodup_written (t : Tls) : (t.written.map Prod.fst).Nodup := Dict.nodup_keys _

variable {t : Tls} {fields : Json.Fields}

theorem ofJson?_object : ofJson? (.object fields) = some t ↔
    termination? fields = some t.termination ∧
    fields.optional "certificate" Json.text? = some t.certificate ∧
    fields.optional "key" Json.text? = some t.key ∧
    fields.optional "caCertificate" Json.text? = some t.caCertificate ∧
    fields.optional "destinationCACertificate" Json.text? = some t.destinationCaCertificate ∧
    fields.others known = t.other := by
  obtain ⟨termination, certificate, key, caCertificate, destination, other⟩ := t
  simp only [ofJson?, Json.fields?, Option.bind_eq_bind, Option.bind_some, Option.bind_eq_some_iff,
    Option.some.injEq, mk.injEq]
  constructor
  · rintro ⟨_, h1, _, h2, _, h3, _, h4, _, h5, rfl, rfl, rfl, rfl, rfl, rfl⟩
    exact ⟨h1, h2, h3, h4, h5, rfl⟩
  · rintro ⟨h1, h2, h3, h4, h5, rfl⟩
    exact ⟨_, h1, _, h2, _, h3, _, h4, _, h5, rfl, rfl, rfl, rfl, rfl, rfl⟩

theorem get?_written (name : String) :
    t.written.get? name = t.other[name]?.or (t.field? name) :=
  Json.Fields.get?_written _ _

theorem field?_eq (name : String) : t.field? name =
    (if name = "destinationCACertificate" then t.destinationCaCertificate.map .string else none).or
    ((if name = "caCertificate" then t.caCertificate.map .string else none).or
    ((if name = "key" then t.key.map .string else none).or
    ((if name = "certificate" then t.certificate.map .string else none).or
    (if name = "termination" then some (.string t.termination) else none)))) := by
  have hlast : [("termination", Json.string t.termination)].lookup name
      = if name = "termination" then some (.string t.termination) else none :=
    Json.lookup_reverse_optionalField "termination" name (some (.string t.termination))
  simp only [field?, modelled, List.reverse_cons, List.reverse_append, List.lookup_append,
    Json.lookup_reverse_optionalField, hlast, Option.or_assoc]

theorem field?_eq_none {name : String} (h : name ∉ known) : t.field? name = none := by
  simp only [known, List.mem_cons, List.not_mem_nil, or_false, not_or] at h
  simp [field?_eq, h]

theorem field?_termination : t.field? "termination" = some (.string t.termination) := by
  simp [field?_eq]

theorem exists_optional (h : ofJson? (.object fields) = some t) {name : String}
    (hname : name ∈ optionalNames) :
    ∃ v, fields.optional name Json.text? = some v ∧ t.field? name = v.map .string := by
  obtain ⟨-, hcertificate, hkey, hca, hdestination, -⟩ := ofJson?_object.mp h
  simp only [optionalNames, List.mem_cons, List.not_mem_nil, or_false] at hname
  obtain rfl | rfl | rfl | rfl := hname
  · exact ⟨_, hcertificate, by simp [field?_eq]⟩
  · exact ⟨_, hkey, by simp [field?_eq]⟩
  · exact ⟨_, hca, by simp [field?_eq]⟩
  · exact ⟨_, hdestination, by simp [field?_eq]⟩

theorem termination_of_same {read settled : Json.Fields} {s : String}
    (hsame : SameAt read settled "termination") (h : termination? settled = some s) :
    read.get? "termination" = some (.string s) ∨ read.get? "termination" = none ∧ s = "" := by
  cases hread : read.get? "termination" with
  | none =>
    rw [termination?, hsame.get?_eq_none hread] at h
    cases h
    exact .inr ⟨rfl, rfl⟩
  | some j =>
    obtain ⟨j', hj', hj⟩ := hsame.exists_same hread
    rw [termination?, hj'] at h
    cases hj with
    | scalar =>
      cases j <;> cases h
      exact .inl rfl
    | array | object => cases h

theorem kept_of_ofJson? {read settled : Json.Fields} (hsame : ∀ name, SameAt read settled name)
    (hnames : (settled.map Prod.fst).Nodup) (h : ofJson? (.object settled) = some t) :
    Kept read t.written := by
  obtain ⟨htermination, -, -, -, -, hothers⟩ := ofJson?_object.mp h
  have hother (name : String) :
      t.other[name]? = if name ∈ known then none else settled.get? name := by
    rw [← hothers, Json.Fields.getElem?_others hnames]
  have hknown {name : String} (hname : name ∈ known) : t.written.get? name = t.field? name := by
    rw [get?_written, hother, if_pos hname, Option.none_or]
  constructor
  · intro name hname
    rw [SameAt, get?_written, hother, if_neg hname, field?_eq_none hname, Option.or_none]
    exact hsame name
  · intro name hname
    obtain ⟨v, hv, hfield⟩ := exists_optional h hname
    have hmem : name ∈ known := List.mem_cons_of_mem _ hname
    exact .of_optional (hsame name) hv ((hknown hmem).trans hfield)
  · refine ⟨t.termination, ?_, ?_⟩
    · rw [hknown List.mem_cons_self, field?_termination]
    · exact termination_of_same (hsame "termination") htermination

theorem hasDistinctNames_of_ofJson? {j : Json} (hnames : j.hasDistinctNames)
    (h : ofJson? j = some t) : t.toJson.hasDistinctNames := by
  cases j with
  | object fields =>
    obtain ⟨-, -, -, -, -, hothers⟩ := ofJson?_object.mp h
    refine Json.hasDistinctNames_sorted fun f hf => ?_
    simp only [List.mem_cons, List.mem_append] at hf
    obtain rfl | (((hf | hf) | hf) | hf) | hf := hf
    · rfl
    iterate 4 exact Json.hasDistinctNames_of_mem_optionalText hf
    rw [← hothers] at hf
    exact (Json.hasDistinctNames_object.mp hnames).2 f (Json.Fields.mem_of_mem_others hf)
  | _ => cases h

/-- What is written is read back. -/
theorem ofJson?_toJson (h : t.Apart) : ofJson? t.toJson = some t := by
  have hknown {name : String} (hname : name ∈ known) : t.written.get? name = t.field? name := by
    rw [get?_written, h name hname, Option.none_or]
  have hoptional {name : String} {v : Option String} (hname : name ∈ known)
      (hv : t.field? name = v.map .string) : t.written.optional name Json.text? = some v :=
    Json.Fields.optional_of_get? (fun _ _ => ⟨rfl, Json.noConfusion⟩) ((hknown hname).trans hv)
  rw [toJson_eq, ofJson?_object]
  refine ⟨?_, hoptional (by decide) (by simp [field?_eq]),
    hoptional (by decide) (by simp [field?_eq]), hoptional (by decide) (by simp [field?_eq]),
    hoptional (by decide) (by simp [field?_eq]), ?_⟩
  · rw [termination?, hknown List.mem_cons_self, field?_termination]
    rfl
  · refine Std.ExtTreeMap.ext_getElem? fun {name} => ?_
    rw [Json.Fields.getElem?_others t.nodup_written]
    split
    · rename_i hname
      exact (h name hname).symm
    · rename_i hname
      rw [get?_written, field?_eq_none hname, Option.or_none]

end Tls

namespace Spec

/-- Whether the fields of a specification that were read are kept in those that are written. -/
structure Kept (read written : Json.Fields) : Prop where
  other : ∀ name, name ∉ known → SameAt read written name
  host : TextKept read written "host"
  noTls : read.get? "tls" = none ∨ read.get? "tls" = some .null → written.get? "tls" = none
  tls : ∀ j, read.get? "tls" = some j → j ≠ .null → ∃ readTls writtenTls, j = .object readTls ∧
    written.get? "tls" = some (.object writtenTls) ∧ Tls.Kept readTls writtenTls

/-- Whether the fields beside those that are modelled have other names than these, and likewise for
TLS. -/
structure Apart (s : Spec) : Prop where
  other : ∀ name ∈ known, s.other[name]? = none
  tls : ∀ t ∈ s.tls, t.Apart

def modelled (s : Spec) : Json.Fields :=
  Json.optionalField "host" (s.host.map .string) ++ Json.optionalField "tls" (s.tls.map Tls.toJson)

def written (s : Spec) : Json.Fields :=
  (Std.ExtTreeMap.ofList (s.modelled ++ s.other.toList) : Dict Json).toList

theorem toJson_eq (s : Spec) : s.toJson = .object s.written := by
  rw [toJson, Json.sorted_eq]
  rfl

theorem nodup_written (s : Spec) : (s.written.map Prod.fst).Nodup := Dict.nodup_keys _

variable {s : Spec} {fields : Json.Fields}

theorem ofJson?_object : ofJson? (.object fields) = some s ↔
    fields.optional "host" Json.text? = some s.host ∧
    fields.optional "tls" Tls.ofJson? = some s.tls ∧ fields.others known = s.other := by
  obtain ⟨host, tls, other⟩ := s
  simp only [ofJson?, Json.fields?, Option.bind_eq_bind, Option.bind_some, Option.bind_eq_some_iff,
    Option.some.injEq, mk.injEq]
  constructor
  · rintro ⟨_, h1, _, h2, rfl, rfl, rfl⟩
    exact ⟨h1, h2, rfl⟩
  · rintro ⟨h1, h2, rfl⟩
    exact ⟨_, h1, _, h2, rfl, rfl, rfl⟩

theorem get?_written (name : String) : s.written.get? name = s.other[name]?.or
    ((if name = "tls" then s.tls.map Tls.toJson else none).or
      (if name = "host" then s.host.map .string else none)) := by
  rw [written, Json.Fields.get?_written, modelled, List.reverse_append, List.lookup_append,
    Json.lookup_reverse_optionalField, Json.lookup_reverse_optionalField]

theorem get?_written_of_not_mem {name : String} (h : name ∉ known) :
    s.written.get? name = s.other[name]? := by
  simp only [known, List.mem_cons, List.not_mem_nil, or_false, not_or] at h
  simp [get?_written, h]

theorem ofJson?_toJson (h : s.Apart) : ofJson? s.toJson = some s := by
  have hhost : s.written.get? "host" = s.host.map .string := by
    simp [get?_written, h.other "host" (by decide)]
  have htls : s.written.get? "tls" = s.tls.map Tls.toJson := by
    simp [get?_written, h.other "tls" (by decide)]
  rw [toJson_eq, ofJson?_object]
  refine ⟨Json.Fields.optional_of_get? (fun _ _ => ⟨rfl, Json.noConfusion⟩) hhost,
    Json.Fields.optional_of_get? (fun t ht => ⟨Tls.ofJson?_toJson (h.tls t ht), ?_⟩) htls, ?_⟩
  · rw [Tls.toJson_eq]
    exact Json.noConfusion
  · refine Std.ExtTreeMap.ext_getElem? fun {name} => ?_
    rw [Json.Fields.getElem?_others s.nodup_written]
    split
    · rename_i hname
      exact (h.other name hname).symm
    · rename_i hname
      exact get?_written_of_not_mem hname

theorem exists_tls_of_same {read settled : Json.Fields} {v : Option Tls} {j : Json}
    (hsame : SameAt read settled "tls") (hnames : (Json.object settled).hasDistinctNames)
    (h : settled.optional "tls" Tls.ofJson? = some v) (hread : read.get? "tls" = some j)
    (hj : j ≠ .null) : ∃ fields t, j = .object fields ∧ v = some t ∧ Tls.Kept fields t.written := by
  obtain ⟨j', t, hj', hsamej, ht, rfl⟩ := hsame.exists_of_optional h hread hj
  have hinner : j'.hasDistinctNames :=
    (Json.hasDistinctNames_object.mp hnames).2 _ (Json.Fields.mem_of_get?_eq_some hj')
  cases hsamej with
  | scalar => cases j <;> first | cases ht | contradiction
  | array => cases ht
  | object hfields =>
    exact ⟨_, t, rfl, rfl, Tls.kept_of_ofJson? hfields (Json.hasDistinctNames_object.mp hinner).1 ht⟩

theorem kept_of_ofJson? {read settled : Json.Fields} (hsame : ∀ name, SameAt read settled name)
    (hnames : (Json.object settled).hasDistinctNames) (h : ofJson? (.object settled) = some s) :
    Kept read s.written := by
  obtain ⟨hhost, htls, hothers⟩ := ofJson?_object.mp h
  have hnodup := (Json.hasDistinctNames_object.mp hnames).1
  have hother (name : String) :
      s.other[name]? = if name ∈ known then none else settled.get? name := by
    rw [← hothers, Json.Fields.getElem?_others hnodup]
  have hwritten : s.written.get? "tls" = s.tls.map Tls.toJson := by
    simp [get?_written, hother, known]
  constructor
  · intro name hname
    rw [SameAt, get?_written_of_not_mem hname, hother, if_neg hname]
    exact hsame name
  · exact .of_optional (hsame "host") hhost (by simp [get?_written, hother, known])
  · intro hread
    rw [hwritten, (hsame "tls").eq_none_of_optional htls hread]
    rfl
  · intro j hread hnull
    obtain ⟨fields, t, rfl, ht, hkept⟩ := exists_tls_of_same (hsame "tls") hnames htls hread hnull
    refine ⟨fields, t.written, rfl, ?_, hkept⟩
    rw [hwritten, ht, Option.map_some, Tls.toJson_eq]

theorem hasDistinctNames_of_ofJson? {settled : Json.Fields}
    (hnames : (Json.object settled).hasDistinctNames) (h : ofJson? (.object settled) = some s) :
    s.toJson.hasDistinctNames := by
  obtain ⟨-, htls, hothers⟩ := ofJson?_object.mp h
  have hinner := (Json.hasDistinctNames_object.mp hnames).2
  refine Json.hasDistinctNames_sorted fun f hf => ?_
  simp only [List.mem_append] at hf
  obtain (hf | hf) | hf := hf
  · exact Json.hasDistinctNames_of_mem_optionalText hf
  · refine Json.hasDistinctNames_of_mem_optionalField (fun j hj => ?_) hf
    obtain ⟨t, ht, rfl⟩ := Option.map_eq_some_iff.mp hj
    obtain ⟨hnone, -⟩ | ⟨j, _, ht', hj, -, hof⟩ := Json.Fields.optional_eq_some.mp htls
    · cases hnone.symm.trans ht
    · cases ht'.symm.trans ht
      exact Tls.hasDistinctNames_of_ofJson? (hinner _ (Json.Fields.mem_of_get?_eq_some hj)) hof
  · rw [← hothers] at hf
    exact hinner f (Json.Fields.mem_of_mem_others hf)

end Spec

variable {fields : Json.Fields} {r : Route}

theorem exists_of_settle? {depth : Nat} {j : Json}
    (h : settle? (depth + 1) (.object fields) = some j) : ∃ metadata spec settled,
      fields.get? "spec" = some spec ∧ spec.settled? depth = some settled ∧
      j = .object [("metadata", metadata), ("spec", settled)] := by
  simp only [settle?, parts?, Option.bind_eq_bind, Option.bind_eq_some_iff] at h
  obtain ⟨-, ⟨_, -, spec, hspec, ⟨⟩⟩, metadata, -, _, -, hsettled⟩ := h
  split at hsettled
  · cases hsettled
  · obtain ⟨settled, hsettle, ⟨⟩⟩ := Option.bind_eq_some_iff.mp hsettled
    exact ⟨metadata, spec, settled, Json.Fields.get?_of_only? hspec, hsettle, rfl⟩

/-- The specification of a route is read from what was sent as such, once it is settled. -/
theorem exists_settled_spec (h : Object.ofJson? .route (.object fields) = some r) :
    ∃ depth spec settled, fields.get? "spec" = some spec ∧ spec.settled? depth = some settled ∧
      Spec.ofJson? settled = some r.content.spec := by
  simp only [Object.ofJson?, Object.readAt?, Object.settle?, if_true, Option.bind_eq_bind,
    Option.bind_eq_some_iff] at h
  obtain ⟨j, hj, _, hfields, _, -, _, -, _, -, content, hcontent, ⟨⟩⟩ := h
  obtain ⟨metadata, spec, settled, hspec, hsettled, rfl⟩ := exists_of_settle? hj
  cases hfields
  obtain ⟨s, hs, ⟨⟩⟩ := Option.bind_eq_some_iff.mp hcontent
  exact ⟨_, spec, settled, hspec, hsettled, hs⟩

theorem get?_spec_toJson :
    r.toJson.fields?.bind (·.get? "spec") = some (.object r.content.spec.written) := by
  rw [Object.toJson, Object.toJsonWith, Json.sorted_eq, ← Spec.toJson_eq]
  simp only [Json.fields?, Option.bind_some, Json.Fields.get?, Dict.lookup_toList,
    Dict.getElem?_ofList]
  rfl

/-- A route is kept when it is read and replaced: what is written of a specification is read back,
and whatever is read of a route, the fields that are not modelled are written with the values they
had, each under its name once. -/
theorem survives_replacement :
    (∀ s : Spec, s.Apart → Spec.ofJson? s.toJson = some s) ∧
    ∀ (fields : Json.Fields) (r : Route), (Json.object fields).hasDistinctNames →
      Object.ofJson? .route (.object fields) = some r → ∃ read written,
        fields.get? "spec" = some (.object read) ∧
        r.toJson.fields?.bind (·.get? "spec") = some (.object written) ∧
        (Json.object written).hasDistinctNames ∧ Spec.Kept read written := by
  refine ⟨fun _ => Spec.ofJson?_toJson, fun fields r hnames hr => ?_⟩
  obtain ⟨depth, spec, settled, hspec, hsettled, hs⟩ := exists_settled_spec hr
  have hdistinct : spec.hasDistinctNames :=
    (Json.hasDistinctNames_object.mp hnames).2 _ (Json.Fields.mem_of_get?_eq_some hspec)
  have hsame : Json.Same spec settled := Json.same_of_settled hsettled hdistinct
  cases hsame with
  | scalar => cases spec <;> first | cases hs | contradiction
  | array => cases hs
  | object hfields =>
    have hnames' := Json.hasDistinctNames_of_settled hsettled
    refine ⟨_, _, hspec, get?_spec_toJson, ?_, Spec.kept_of_ofJson? hfields hnames' hs⟩
    rw [← Spec.toJson_eq]
    exact Spec.hasDistinctNames_of_ofJson? hnames' hs

/-! A route that names a policy, which is not modelled, and not its termination. -/

def policyTls : Json.Fields := [("key", .string "k"), ("certificate", .null),
  ("policies", .array [.object [("weight", .null), ("name", .string "Redirect")]])]

def policySpec : Json.Fields := [("to", .null), ("tls", .object policyTls), ("host", .null)]

def policyRoute : Json.Fields := [("metadata", .object [("name", .string "web")]),
  ("spec", .object policySpec)]

theorem survives_replacement_policy :
    Spec.ofJson? (Spec.mk (some "h") none ∅).toJson = some (Spec.mk (some "h") none ∅) ∧
    ∃ (r : Route) (written tls policies : Json.Fields),
      Object.ofJson? .route (.object policyRoute) = some r ∧
      r.toJson.fields?.bind (·.get? "spec") = some (.object written) ∧
      written.get? "to" = some .null ∧ written.get? "host" = none ∧
      written.get? "tls" = some (.object tls) ∧
      tls.get? "termination" = some (.string "") ∧ tls.get? "key" = some (.string "k") ∧
      tls.get? "certificate" = none ∧ tls.get? "policies" = some (.array [.object policies]) ∧
      policies.get? "weight" = some .null := by
  have hplain : (Spec.mk (some "h") none ∅).Apart := ⟨by simp, by simp⟩
  refine ⟨survives_replacement.1 _ hplain, ?_⟩
  obtain ⟨r, hr⟩ : ∃ r, Object.ofJson? .route (.object policyRoute) = some r :=
    Option.isSome_iff_exists.mp (by decide +kernel)
  obtain ⟨read, written, hread, hwritten, -, hkept⟩ :=
    survives_replacement.2 policyRoute r (by decide +kernel) hr
  obtain rfl : policySpec = read := Json.object.inj (Option.some.inj hread)
  obtain ⟨_, tls, ⟨⟩, htls, hkeptTls⟩ := hkept.tls (.object policyTls) rfl Json.noConfusion
  have hto := (hkept.other "to" (by decide)).get?_eq_some (j := .null) rfl rfl
  obtain ⟨s, htermination, hs⟩ := hkeptTls.termination
  have hunnamed : policyTls.get? "termination" = none := rfl
  obtain rfl : s = "" := by simpa [hunnamed] using hs
  obtain ⟨_, hpolicies, hitems⟩ := (hkeptTls.other "policies" (by decide)).exists_same rfl
  obtain ⟨⟨⟩⟩ | hitems := hitems
  obtain _ | ⟨hitem, ⟨⟩⟩ := hitems
  obtain ⟨⟨⟩⟩ | _ | hpolicy := hitem
  exact ⟨r, written, tls, _, hr, hwritten, hto, hkept.host.absent (.inr rfl), htls, htermination,
    (hkeptTls.optional "key" (by decide)).text "k" rfl,
    (hkeptTls.optional "certificate" (by decide)).absent (.inr rfl), hpolicies,
    SameAt.get?_eq_some (hpolicy "weight") rfl rfl⟩

end Route

end CertKeeper
