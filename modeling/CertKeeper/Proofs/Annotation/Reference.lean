import CertKeeper.Annotation.Basic

/-!
# References that are read

A text in two parts is read exactly if neither part is empty and no part holds a slash of its own. A
reference to a secret of one namespace is read from a bare name or from the text in two parts that
names this namespace, so it never leads out of it, and both texts are the same reference.
-/

namespace CertKeeper

namespace Reference

theorem splitSlash?_eq_some {s ns name : List Char} :
    splitSlash? s = some (ns, name) ↔ s = ns ++ '/' :: name ∧ '/' ∉ ns := by
  induction s generalizing ns with
  | nil => simp [splitSlash?]
  | cons c s ih =>
    by_cases hc : c = '/'
    · subst hc
      have hstep : splitSlash? ('/' :: s) = some ([], s) := by simp [splitSlash?]
      rw [hstep]
      constructor
      · rintro ⟨⟩
        exact ⟨rfl, by simp⟩
      · rintro ⟨hs, hns⟩
        cases ns with
        | nil => rw [(List.cons.inj hs).2]
        | cons c ns =>
          obtain ⟨rfl, -⟩ := List.cons.inj hs
          exact absurd List.mem_cons_self hns
    · have hstep : splitSlash? (c :: s) = (splitSlash? s).map fun p => (c :: p.1, p.2) := by
        simp only [splitSlash?, ne_eq, hc, not_false_eq_true, decide_true,
          List.dropWhile_cons_of_pos, List.takeWhile_cons_of_pos]
        cases s.dropWhile fun x => decide ¬x = '/' <;> rfl
      rw [hstep, Option.map_eq_some_iff]
      constructor
      · rintro ⟨⟨ns', name'⟩, hs, heq⟩
        obtain ⟨rfl, rfl⟩ := Prod.mk.inj heq
        obtain ⟨rfl, hns⟩ := ih.mp hs
        exact ⟨rfl, by simp [hns, Ne.symm hc]⟩
      · rintro ⟨hs, hns⟩
        cases ns with
        | nil => exact absurd (List.cons.inj hs).1 hc
        | cons c' ns =>
          obtain ⟨rfl, rfl⟩ := List.cons.inj hs
          exact ⟨(ns, name), ih.mpr ⟨rfl, fun h => hns (List.mem_cons_of_mem _ h)⟩, rfl⟩

theorem parseQualified?_eq_some {s : String} {r : Reference} :
    parseQualified? s = some r ↔ s.toList = r.ns.toList ++ '/' :: r.name.toList ∧
      r.ns ≠ "" ∧ '/' ∉ r.ns.toList ∧ r.name ≠ "" ∧ '/' ∉ r.name.toList := by
  simp only [parseQualified?, Option.bind_eq_bind, Option.bind_eq_some_iff, Prod.exists,
    splitSlash?_eq_some]
  constructor
  · rintro ⟨ns, name, ⟨hs, hns⟩, hr⟩
    split at hr
    · cases hr
    · rename_i hparts
      cases hr
      simp only [List.isEmpty_iff, not_or] at hparts
      obtain ⟨hns', hname, hslash⟩ := hparts
      simp [hs, hns, hns', hname, hslash]
  · rintro ⟨hs, hns, hslash, hname, hslash'⟩
    refine ⟨r.ns.toList, r.name.toList, ⟨hs, hslash⟩, ?_⟩
    simp [hns, hname, hslash']

/-- Whether a text can be a part of a reference: it is not empty and holds no slash. -/
def IsPart (s : String) : Prop := s ≠ "" ∧ '/' ∉ s.toList

theorem toList_display (r : Reference) :
    r.display.toList = r.ns.toList ++ '/' :: r.name.toList := by
  simp [display]

theorem parseQualified?_eq_some_iff_display {s : String} {r : Reference} :
    parseQualified? s = some r ↔ r.display = s ∧ IsPart r.ns ∧ IsPart r.name := by
  rw [parseQualified?_eq_some, ← toList_display, String.toList_inj, eq_comm, IsPart, IsPart,
    and_assoc]

/-- A text in two parts is read exactly if there is no slash but the one between them. -/
theorem exists_parseQualified?_iff {s : String} : (∃ r, parseQualified? s = some r) ↔
    s.toList.count '/' = 1 ∧
      ∃ before after, before ≠ "" ∧ after ≠ "" ∧ s = before ++ "/" ++ after := by
  have hcount (before after : String) : (before ++ "/" ++ after).toList.count '/' = 1 ↔
      '/' ∉ before.toList ∧ '/' ∉ after.toList := by
    have hslash : "/".toList.count '/' = 1 := rfl
    rw [← List.count_eq_zero, ← List.count_eq_zero, String.toList_append, String.toList_append,
      List.count_append, List.count_append, hslash]
    omega
  simp only [parseQualified?_eq_some_iff_display]
  constructor
  · rintro ⟨r, rfl, hns, hname⟩
    exact ⟨(hcount r.ns r.name).mpr ⟨hns.2, hname.2⟩, r.ns, r.name, hns.1, hname.1, rfl⟩
  · rintro ⟨hone, before, after, hbefore, hafter, rfl⟩
    obtain ⟨hslash, hslash'⟩ := (hcount before after).mp hone
    exact ⟨⟨before, after⟩, rfl, ⟨hbefore, hslash⟩, hafter, hslash'⟩

end Reference

namespace Annotations

variable {a : Annotations} {key ns : String} {ref : Reference}

theorem localReference_eq_some : a.localReference key ns = .ok (some ref) ↔
    ∃ raw, a[key]? = some raw ∧ ref.ns = ns ∧
      ((raw = ref.name ∧ ref.name ≠ "" ∧ '/' ∉ ref.name.toList) ∨
        Reference.parseQualified? raw = some ref) := by
  unfold localReference
  cases hraw : a[key]? with
  | none => simp
  | some raw =>
    by_cases hbare : raw ≠ "" ∧ '/' ∉ raw.toList
    · have hnone : Reference.parseQualified? raw ≠ some ref := fun h => by
        obtain ⟨hs, -⟩ := Reference.parseQualified?_eq_some.mp h
        exact hbare.2 (by simp [hs])
      simp only [if_pos hbare, Except.ok.injEq, Option.some.injEq]
      constructor
      · rintro rfl
        exact ⟨raw, rfl, rfl, .inl ⟨rfl, hbare⟩⟩
      · rintro ⟨_, rfl, rfl, ⟨rfl, -⟩ | h⟩
        · rfl
        · exact absurd h hnone
    · have hname : ¬ (raw = ref.name ∧ ref.name ≠ "" ∧ '/' ∉ ref.name.toList) := by
        rintro ⟨rfl, h⟩
        exact hbare h
      simp only [if_neg hbare, Option.some.injEq, exists_eq_left', hname, false_or]
      cases Reference.parseQualified? raw with
      | none => simp
      | some r =>
        by_cases hns : r.ns = ns
        · simp only [if_pos hns, Except.ok.injEq, Option.some.injEq]
          constructor
          · rintro rfl
            exact ⟨hns, rfl⟩
          · exact fun h => h.2
        · simp only [if_neg hns, reduceCtorEq, Option.some.injEq, false_iff, not_and]
          rintro hns' rfl
          exact hns hns'

theorem ns_of_localReference (h : a.localReference key ns = .ok (some ref)) : ref.ns = ns := by
  obtain ⟨raw, -, hns, -⟩ := localReference_eq_some.mp h
  exact hns

theorem name_of_localReference (h : a.localReference key ns = .ok (some ref)) :
    ref.name ≠ "" ∧ '/' ∉ ref.name.toList := by
  obtain ⟨raw, -, -, ⟨-, hname⟩ | hqualified⟩ := localReference_eq_some.mp h
  · exact hname
  · obtain ⟨-, -, -, hname⟩ := Reference.parseQualified?_eq_some.mp hqualified
    exact hname

theorem localReference_eq_none : a.localReference key ns = .ok none ↔ a[key]? = none := by
  unfold localReference
  cases a[key]? with
  | none => simp
  | some raw =>
    simp only [reduceCtorEq, iff_false]
    split
    · simp
    · cases Reference.parseQualified? raw with
      | none => simp
      | some ref =>
        simp only
        split <;> simp

theorem exists_of_localReference_eq_error {e : SyncError}
    (h : a.localReference key ns = .error e) :
    ∃ raw, a[key]? = some raw ∧ e = .malformedReference key raw := by
  unfold localReference at h
  cases hraw : a[key]? with
  | none => simp [hraw] at h
  | some raw =>
    refine ⟨raw, rfl, ?_⟩
    simp only [hraw] at h
    split at h
    · cases h
    · split at h
      · split at h <;> cases h
        rfl
      · cases h
        rfl

/-- Whether a value stands for the secret `name` of the namespace `ns`: by its bare name, or in two
parts. -/
def StandsFor (ns raw name : String) : Prop :=
  Reference.IsPart name ∧ (raw = name ∨ raw = ns ++ "/" ++ name)

theorem localReference_eq_some_iff (hns : Reference.IsPart ns) :
    a.localReference key ns = .ok (some ref) ↔
      ref.ns = ns ∧ ∃ raw, a[key]? = some raw ∧ StandsFor ns raw ref.name := by
  simp only [localReference_eq_some, Reference.parseQualified?_eq_some_iff_display]
  constructor
  · rintro ⟨raw, hraw, rfl, ⟨rfl, hname⟩ | ⟨rfl, -, hname⟩⟩
    · exact ⟨rfl, _, hraw, hname, .inl rfl⟩
    · exact ⟨rfl, _, hraw, hname, .inr rfl⟩
  · rintro ⟨rfl, raw, hraw, hname, rfl | rfl⟩
    · exact ⟨_, hraw, rfl, .inl ⟨rfl, hname⟩⟩
    · exact ⟨_, hraw, rfl, .inr ⟨rfl, hns, hname⟩⟩

/-- What is made of the annotation `key` where secrets of the namespace `ns` are named. -/
structure ReadsLocally (a : Annotations) (key ns : String) : Prop where
  absent : a.localReference key ns = .ok none ↔ a[key]? = none
  read : ∀ ref, a.localReference key ns = .ok (some ref) ↔
    ref.ns = ns ∧ ∃ raw, a[key]? = some raw ∧ StandsFor ns raw ref.name
  malformed : ∀ e, a.localReference key ns = .error e ↔
    ∃ raw, a[key]? = some raw ∧ (∀ name, ¬ StandsFor ns raw name) ∧ e = .malformedReference key raw

theorem readsLocally (a : Annotations) (key : String) (hns : Reference.IsPart ns) :
    a.ReadsLocally key ns where
  absent := localReference_eq_none
  read _ := localReference_eq_some_iff hns
  malformed e := by
    constructor
    · intro h
      obtain ⟨raw, hraw, rfl⟩ := exists_of_localReference_eq_error h
      refine ⟨raw, hraw, fun name hname => ?_, rfl⟩
      have hread : a.localReference key ns = .ok (some ⟨ns, name⟩) :=
        (localReference_eq_some_iff hns).mpr ⟨rfl, raw, hraw, hname⟩
      cases h.symm.trans hread
    · rintro ⟨raw, hraw, hnone, rfl⟩
      cases hread : a.localReference key ns with
      | ok found =>
        cases found with
        | none => cases hraw.symm.trans (localReference_eq_none.mp hread)
        | some ref =>
          obtain ⟨-, raw', hraw', hname⟩ := (localReference_eq_some_iff hns).mp hread
          cases hraw.symm.trans hraw'
          exact absurd hname (hnone ref.name)
      | error e =>
        obtain ⟨raw', hraw', rfl⟩ := exists_of_localReference_eq_error hread
        cases hraw.symm.trans hraw'
        rfl

end Annotations

/-- References are read exactly from the texts that they are displayed as. Where secrets of one
namespace are named, a bare name is read as well, as the same reference, and nothing else. -/
theorem references_read_exactly :
    (∀ s, (∃ r, Reference.parseQualified? s = some r) ↔ s.toList.count '/' = 1 ∧
      ∃ before after, before ≠ "" ∧ after ≠ "" ∧ s = before ++ "/" ++ after) ∧
    (∀ s r, Reference.parseQualified? s = some r → r.display = s) ∧
    (∀ r : Reference, Reference.IsPart r.ns → Reference.IsPart r.name →
      Reference.parseQualified? r.display = some r) ∧
    ∀ key ns, Reference.IsPart ns →
      (∀ a : Annotations, a.ReadsLocally key ns) ∧
      ∀ (a b : Annotations) (name : String), Reference.IsPart name →
        a[key]? = some name → b[key]? = some (ns ++ "/" ++ name) →
          a.localReference key ns = .ok (some ⟨ns, name⟩) ∧
            b.localReference key ns = .ok (some ⟨ns, name⟩) := by
  refine ⟨fun s => Reference.exists_parseQualified?_iff, fun s r h => ?_, fun r hns hname => ?_,
    fun key ns hns => ⟨fun a => a.readsLocally key hns, fun a b name hname ha hb => ?_⟩⟩
  · exact (Reference.parseQualified?_eq_some_iff_display.mp h).1
  · exact Reference.parseQualified?_eq_some_iff_display.mpr ⟨rfl, hns, hname⟩
  · have hread {a : Annotations} {raw : String} (hraw : a[key]? = some raw)
        (hform : raw = name ∨ raw = ns ++ "/" ++ name) :
        a.localReference key ns = .ok (some ⟨ns, name⟩) :=
      (Annotations.localReference_eq_some_iff hns).mpr ⟨rfl, raw, hraw, hname, hform⟩
    exact ⟨hread ha (.inl rfl), hread hb (.inr rfl)⟩

def Annotations.ofCertsFrom (raw : String) : Annotations :=
  (∅ : Annotations).insert Key.certsFromSecret raw

/-- A route in `apps` names its secret in either form, but not a secret of another namespace. -/
theorem references_read_exactly_route_cert :
    Reference.parseQualified? "apps/route-cert" = some ⟨"apps", "route-cert"⟩ ∧
    (Annotations.ofCertsFrom "route-cert").localReference Key.certsFromSecret "apps"
      = .ok (some ⟨"apps", "route-cert"⟩) ∧
    (Annotations.ofCertsFrom "apps/route-cert").localReference Key.certsFromSecret "apps"
      = .ok (some ⟨"apps", "route-cert"⟩) ∧
    (Annotations.ofCertsFrom "other/route-cert").localReference Key.certsFromSecret "apps"
      = .error (.malformedReference Key.certsFromSecret "other/route-cert") := by
  have hns : Reference.IsPart "apps" := by
    unfold Reference.IsPart
    decide
  have hname : Reference.IsPart "route-cert" := by
    unfold Reference.IsPart
    decide
  have hvalue (raw : String) : (Annotations.ofCertsFrom raw)[Key.certsFromSecret]? = some raw :=
    Std.ExtTreeMap.getElem?_insert_self
  obtain ⟨-, -, hdisplay, hlocal⟩ := references_read_exactly
  obtain ⟨hreads, hforms⟩ := hlocal Key.certsFromSecret "apps" hns
  obtain ⟨hbare, hqualified⟩ := hforms _ _ "route-cert" hname (hvalue _) (hvalue _)
  refine ⟨hdisplay ⟨"apps", "route-cert"⟩ hns hname, hbare, hqualified, ?_⟩
  refine ((hreads _).malformed _).mpr ⟨_, hvalue _, ?_, rfl⟩
  rintro name ⟨hpart, rfl | hforeign⟩
  · exact hpart.2 (by decide)
  · have hfirst := congrArg (fun s : String => s.toList.head?) hforeign
    simp at hfirst

end CertKeeper
