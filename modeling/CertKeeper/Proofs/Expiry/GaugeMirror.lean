import CertKeeper.Proofs.Expiry.Gauges
import CertKeeper.Proofs.Watch.ChangeLog

/-!
# Gauges mirror the known secrets

The certificate gauges follow the changes that a watch on the secrets is classified into. They show
the certificates of all secrets that are known, and of no others, unless two secrets come together
whose labels have the same hash: a gauge takes them for one.
-/

namespace CertKeeper.Expiry

open Watch

/-- Whether the certificate gauges show the certificates of the known secrets and nothing else. -/
structure Mirrors (m : Metrics) (known : Known .secret) : Prop where
  issueTime : ∀ l t, m.issueTime.Shows l t ↔
    ∃ s : Secret, known[s.ref]? = some s ∧ labels s = l ∧ LastIssued s t
  expiryTime : ∀ l t, m.expiryTime.Shows l t ↔
    ∃ s : Secret, known[s.ref]? = some s ∧ labels s = l ∧ FirstExpires s t

/-- Whether no known secret with a certificate is taken for `s` but `s` itself. -/
def Alone (s : Secret) (known : Known .secret) : Prop :=
  ∀ o : Secret, known[o.ref]? = some o → certificates o ≠ [] → o.ref ≠ s.ref →
    (labels o).key ≠ (labels s).key

/-- The metrics after the changes of some raw events. -/
def gauges (events : List (RawEvent .secret)) : Metrics :=
  (Classifier.empty.run events).flatten.foldl track .empty

variable {value : Secret → Option Int} {g : Gauge} {known known' : Known .secret}
  {changes : List (ObjectEvent Secret)} {s s' : Secret} {m : Metrics}

theorem labels_congr (h : s.ref = s'.ref) : labels s = labels s' :=
  congrArg (fun ref : ObjectRef => (⟨ref.name, ref.ns.getD ""⟩ : GaugeLabels)) h

theorem ref_eq_of_labels_eq (hs : s.metadata.ns.isSome) (hs' : s'.metadata.ns.isSome)
    (h : labels s = labels s') : s.ref = s'.ref := by
  obtain ⟨ns, hns⟩ := Option.isSome_iff_exists.mp hs
  obtain ⟨ns', hns'⟩ := Option.isSome_iff_exists.mp hs'
  simp only [labels, Metadata.nsOrEmpty, hns, hns', Option.getD_some, GaugeLabels.mk.injEq] at h
  simp only [Object.ref, Metadata.ref, hns, hns', h]

/-- A gauge after some changes, of which it shows one value. -/
def follow (value : Secret → Option Int) (g : Gauge) (changes : List (ObjectEvent Secret)) :
    Gauge :=
  changes.foldl (fun g e => g.put (labels e.object) (told value e)) g

theorem foldl_track_eq (m : Metrics) (changes : List (ObjectEvent Secret)) :
    changes.foldl track m =
      { m with
        issueTime := follow issued? m.issueTime changes
        expiryTime := follow expires? m.expiryTime changes } := by
  induction changes generalizing m with
  | nil => rfl
  | cons e changes ih =>
    rw [List.foldl_cons, ih, track_eq]
    rfl

/-- Whether a gauge shows one value of each known secret that has it. -/
def MirrorsOne (value : Secret → Option Int) (g : Gauge) (known : Known .secret) : Prop :=
  ∀ l t, g.Shows l t ↔ ∃ s : Secret, known[s.ref]? = some s ∧ labels s = l ∧ value s = some t

theorem mirrors_iff : Mirrors m known ↔
    MirrorsOne issued? m.issueTime known ∧ MirrorsOne expires? m.expiryTime known := by
  simp only [MirrorsOne, issued?_eq_some_iff, expires?_eq_some_iff]
  exact ⟨fun h => ⟨h.issueTime, h.expiryTime⟩, fun h => ⟨h.1, h.2⟩⟩

theorem MirrorsOne.empty : MirrorsOne value ∅ ∅ := by
  intro l t
  rw [Gauge.Keyed.empty.shows_iff]
  simp

theorem MirrorsOne.labels?_eq (h : MirrorsOne value g known) (hg : g.Keyed)
    (hs : known[s.ref]? = some s) (hvalue : (value s).isSome) :
    g.labels? (labels s).key = some (labels s) := by
  obtain ⟨t, ht⟩ := Option.isSome_iff_exists.mp hvalue
  exact hg.exists_shows_iff.mp ⟨t, (h _ _).mpr ⟨s, hs, rfl, ht⟩⟩

theorem MirrorsOne.exists_of_labels? (h : MirrorsOne value g known) (hg : g.Keyed) {key : UInt64}
    {l : GaugeLabels} (hl : g.labels? key = some l) :
    ∃ s : Secret, known[s.ref]? = some s ∧ labels s = l ∧ (value s).isSome := by
  have hkey := hg.of_labels? hl
  subst hkey
  obtain ⟨t, ht⟩ := hg.exists_shows_iff.mpr hl
  obtain ⟨s, hs, rfl, hvalue⟩ := (h _ _).mp ht
  exact ⟨s, hs, rfl, by rw [hvalue]; rfl⟩

theorem getElem?_follow_deleted (value : Secret → Option Int) (g : Gauge) (gone : List Secret)
    (key : UInt64) : (follow value g (gone.map .deleted))[key]?
      = if key ∈ gone.map fun s => (labels s).key then none else g[key]? := by
  induction gone generalizing g with
  | nil => rfl
  | cons s gone ih =>
    have hrest : follow value g ((s :: gone).map .deleted)
        = follow value (g.put (labels s) none) (gone.map .deleted) := rfl
    rw [hrest, ih, Gauge.getElem?_put]
    simp only [List.map_cons, List.mem_cons, eq_comm (a := key) (b := (labels s).key)]
    by_cases hkey : (labels s).key = key
    · simp [hkey]
    · simp only [hkey, false_or, if_false]

theorem exists_known_congr {P : Secret → Prop}
    (hsame : ∀ s : Secret, P s → known'[s.ref]? = known[s.ref]?) :
    (∃ s : Secret, known'[s.ref]? = some s ∧ P s) ↔ ∃ s : Secret, known[s.ref]? = some s ∧ P s :=
  exists_congr fun s => and_congr_left fun hs => by rw [hsame s hs]

section Moves

variable (h : MirrorsOne value g known) (hg : g.Keyed)
  (hvalue : ∀ s, (value s).isSome ↔ certificates s ≠ [])

include h hg hvalue in
/-- What is shown under the key of a secret that arrives is an older version of it. -/
theorem MirrorsOne.labels?_getD_eq (halone : Alone s (known.insert s.ref s)) :
    (g.labels? (labels s).key).getD (labels s) = labels s := by
  cases hfound : g.labels? (labels s).key with
  | none => rfl
  | some l =>
    obtain ⟨o, ho, rfl, hsome⟩ := h.exists_of_labels? hg hfound
    have hsame : o.ref = s.ref := by
      by_contra hne
      have ho' : (known.insert s.ref s)[o.ref]? = some o :=
        (Known.getElem?_insert_of_ne known hne).trans ho
      exact halone o ho' ((hvalue o).mp hsome) hne (hg.of_labels? hfound)
    exact labels_congr hsame

include h hg hvalue in
theorem MirrorsOne.arrive (halone : Alone s (known.insert s.ref s)) :
    MirrorsOne value (g.put (labels s) (value s)) (known.insert s.ref s) := by
  have hself : (known.insert s.ref s)[s.ref]? = some s := Std.ExtTreeMap.getElem?_insert_self
  intro l t
  rw [(hg.put _ _).shows_iff, Gauge.getElem?_put]
  split
  · rename_i hkey
    rw [← hkey, h.labels?_getD_eq hg hvalue halone]
    constructor
    · intro hset
      obtain ⟨t', ht', heq⟩ := Option.map_eq_some_iff.mp hset
      cases heq
      exact ⟨s, hself, rfl, ht'⟩
    · rintro ⟨o, ho, rfl, ht⟩
      have hcertified : certificates o ≠ [] := (hvalue o).mp (by rw [ht]; rfl)
      have hsame : o.ref = s.ref := by
        by_contra hne
        exact halone o ho hcertified hne hkey.symm
      rw [hsame, hself] at ho
      cases ho
      rw [ht, Option.map_some]
  · rename_i hkey
    rw [← hg.shows_iff, h l t]
    refine (exists_known_congr fun o ho => Known.getElem?_insert_of_ne known fun href => ?_).symm
    exact hkey (congrArg GaugeLabels.key ((labels_congr href).symm.trans ho.1))

include hg hvalue in
theorem MirrorsOne.alone_of_arrive
    (hns : ∀ o : Secret, (known.insert s.ref s)[o.ref]? = some o → o.metadata.ns.isSome)
    (h' : MirrorsOne value (g.put (labels s) (value s)) (known.insert s.ref s)) :
    Alone s (known.insert s.ref s) := by
  have hself : (known.insert s.ref s)[s.ref]? = some s := Std.ExtTreeMap.getElem?_insert_self
  intro o ho hcertified hne hkey
  have hfound := h'.labels?_eq (hg.put _ _) ho ((hvalue o).mpr hcertified)
  rw [hkey] at hfound
  cases hs : value s with
  | none => simp [hs, Gauge.labels?_put] at hfound
  | some t =>
    have hown := h'.labels?_eq (hg.put _ _) hself (by rw [hs]; rfl)
    have hlabels : labels o = labels s := Option.some.inj (hfound.symm.trans hown)
    exact hne (ref_eq_of_labels_eq (hns o ho) (hns s hself) hlabels)

variable {gone : List Secret}
  (hknown : ∀ ref, known'[ref]? = if ref ∈ gone.map Object.ref then none else known[ref]?)

include hg in
theorem keyed_follow_deleted : (follow value g (gone.map .deleted)).Keyed := by
  intro key e he
  rw [getElem?_follow_deleted] at he
  split at he
  · cases he
  · exact hg key e he

include h hg hvalue hknown in
theorem MirrorsOne.depart (halone : ∀ d ∈ gone, Alone d known') :
    MirrorsOne value (follow value g (gone.map .deleted)) known' := by
  intro l t
  rw [(keyed_follow_deleted hg).shows_iff, getElem?_follow_deleted]
  split
  · rename_i hkey
    obtain ⟨d, hd, hkey⟩ := List.mem_map.mp hkey
    constructor
    · intro h
      cases h
    · rintro ⟨o, ho, rfl, ht⟩
      have hstays : o.ref ∉ gone.map Object.ref := by
        intro hmem
        rw [hknown, if_pos hmem] at ho
        cases ho
      have hne : o.ref ≠ d.ref := fun href => hstays (href ▸ List.mem_map_of_mem hd)
      have hcertified : certificates o ≠ [] := (hvalue o).mp (by rw [ht]; rfl)
      exact absurd hkey.symm (halone d hd o ho hcertified hne)
  · rename_i hkey
    rw [← hg.shows_iff, h l t]
    refine (exists_known_congr fun o ho => ?_).symm
    rw [hknown, if_neg]
    intro hmem
    obtain ⟨d, hd, href⟩ := List.mem_map.mp hmem
    have hlabels : labels d = l := (labels_congr href).trans ho.1
    exact hkey (List.mem_map.mpr ⟨d, hd, congrArg GaugeLabels.key hlabels⟩)

include hg hvalue in
theorem MirrorsOne.alone_of_depart
    (h' : MirrorsOne value (follow value g (gone.map .deleted)) known') :
    ∀ d ∈ gone, Alone d known' := by
  intro d hd o ho hcertified _ hkey
  have hfound := h'.labels?_eq (keyed_follow_deleted hg) ho ((hvalue o).mpr hcertified)
  have hmem : (labels o).key ∈ gone.map fun s => (labels s).key :=
    List.mem_map.mpr ⟨d, hd, hkey.symm⟩
  rw [Gauge.labels?, getElem?_follow_deleted, if_pos hmem] at hfound
  cases hfound

include h hg hvalue in
/-- Changes keep the mirror exactly if each tells of a secret for which no other is taken. -/
theorem MirrorsOne.moves_iff
    (hns : ∀ o : Secret, known'[o.ref]? = some o → o.metadata.ns.isSome)
    (hmoves : Classifier.Moves known changes known') :
    MirrorsOne value (follow value g changes) known' ↔ ∀ e ∈ changes, Alone e.object known' := by
  cases hmoves with
  | @arrives e o he =>
    rw [List.forall_mem_singleton]
    obtain rfl | ⟨old, rfl⟩ := he
    · exact ⟨fun h' => h'.alone_of_arrive hg hvalue hns, h.arrive hg hvalue⟩
    · exact ⟨fun h' => h'.alone_of_arrive hg hvalue hns, h.arrive hg hvalue⟩
  | departs gone hknown =>
    rw [List.forall_mem_map]
    exact ⟨fun h' => h'.alone_of_depart hg hvalue, h.depart hg hvalue hknown⟩

end Moves

theorem gauges_append (events : List (RawEvent .secret)) (e : RawEvent .secret) :
    gauges (events ++ [e])
      = ((Classifier.empty.after events).step e).1.foldl track (gauges events) := by
  rw [gauges, Classifier.run_append, List.flatten_append, List.foldl_append, gauges]
  simp only [Classifier.run, List.flatten_cons, List.flatten_nil, List.append_nil]

theorem mirrors_empty : Mirrors .empty ∅ := mirrors_iff.mpr ⟨.empty, .empty⟩

theorem coherent_gauges (events : List (RawEvent .secret)) : (gauges events).Coherent :=
  coherent_foldl_track .empty _

theorem mirrors_append_iff {events : List (RawEvent .secret)} {e : RawEvent .secret}
    (hns : ∀ e' ∈ events ++ [e], ∀ s, e'.shown? = some s → s.metadata.ns.isSome)
    (h : Mirrors (gauges events) (Classifier.empty.after events).known) :
    Mirrors (gauges (events ++ [e])) (Classifier.empty.after (events ++ [e])).known ↔
      ∀ change ∈ ((Classifier.empty.after events).step e).1,
        Alone change.object (Classifier.empty.after (events ++ [e])).known := by
  have hmoves := (Classifier.Named.empty.after events).moves_step e
  have hns' (o : Secret) (ho : (Classifier.empty.after (events ++ [e])).known[o.ref]? = some o) :
      o.metadata.ns.isSome := by
    obtain ⟨e', he', hshown⟩ := Classifier.exists_shown_of_known ho
    exact hns e' he' o hshown
  rw [Classifier.after_append] at hns' ⊢
  rw [gauges_append, foldl_track_eq, mirrors_iff]
  have hissued := (mirrors_iff.mp h).1.moves_iff (coherent_gauges events).issueTime
    (fun _ => isSome_issued?_iff) hns' hmoves
  have hexpires := (mirrors_iff.mp h).2.moves_iff (coherent_gauges events).expiryTime
    (fun _ => isSome_expires?_iff) hns' hmoves
  exact (and_congr hissued hexpires).trans and_self_iff

/-- Both certificate gauges always carry the same labels. They show the certificates of the known
secrets after each raw event exactly if no raw event tells of a secret that is taken for another one
that is known then and has a certificate. -/
theorem gauges_mirror_known_iff (events : List (RawEvent .secret))
    (hns : ∀ e ∈ events, ∀ s, e.shown? = some s → s.metadata.ns.isSome) :
    (∀ before, before <+: events → ∀ l,
      (∃ t, (gauges before).issueTime.Shows l t) ↔ ∃ t, (gauges before).expiryTime.Shows l t) ∧
    ((∀ before, before <+: events →
        Mirrors (gauges before) (Classifier.empty.after before).known) ↔
      ∀ before e, before ++ [e] <+: events → ∀ change ∈ ((Classifier.empty.after before).step e).1,
        Alone change.object (Classifier.empty.after (before ++ [e])).known) := by
  have hns' {before : List (RawEvent .secret)} (hbefore : before <+: events) :
      ∀ e ∈ before, ∀ s, e.shown? = some s → s.metadata.ns.isSome :=
    fun e he => hns e (hbefore.subset he)
  refine ⟨fun before _ => (coherent_gauges before).shows_iff, fun h before e hbefore => ?_,
    fun h before hbefore => ?_⟩
  · have hprefix : before <+: events := (List.prefix_append before [e]).trans hbefore
    exact (mirrors_append_iff (hns' hbefore) (h before hprefix)).mp (h _ hbefore)
  · induction before using List.reverseRecOn with
    | nil => exact mirrors_empty
    | append_singleton before e ih =>
      have hprefix : before <+: events := (List.prefix_append before [e]).trans hbefore
      exact (mirrors_append_iff (hns' hbefore) (ih hprefix)).mpr (h before e hbefore)

namespace Leaf

/-- A certificate that was issued in 2024 and expires in 2030. -/
def pem : Bytes :=
  Bytes.ofString <|
    "-----BEGIN CERTIFICATE-----\n" ++
    "MIGKMHOgAwIBAgIBATANBgkqhkiG9w0BAQsFADANMQswCQYDVQQDDAJjYTAeFw0y\n" ++
    "NDAxMDEwMDAwMDBaFw0zMDAxMDEwMDAwMDBaMA8xDTALBgNVBAMMBGxlYWYwGjAN\n" ++
    "BgkqhkiG9w0BAQEFAAMJADAGAgEFAgEDMA0GCSqGSIb3DQEBCwUAAwQAc2ln\n" ++
    "-----END CERTIFICATE-----\n"

def secret (ns name : String) : Secret where
  metadata := { Metadata.empty with name := some name, ns := some ns }
  content := ⟨some Field.tlsSecretType, some ((∅ : Dict Bytes).insert Field.tlsCert pem), ∅⟩

theorem latestIssue?_pem : Bundle.latestIssue? pem = some 1704067200 := by
  decide +kernel

theorem issued?_secret (ns name : String) : issued? (secret ns name) = some 1704067200 := by
  have hfield : (secret ns name).content.field Field.tlsCert = some pem :=
    Std.ExtTreeMap.getElem?_insert_self
  have htls : (secret ns name).content.isTls = true := by
    simp [secret, Secret.Content.isTls]
  rw [issued?, certificates, if_pos htls, hfield, Option.map_some, Option.getD_some,
    ← latestIssue?_eq, latestIssue?_pem]

end Leaf

open Leaf in
/-- One secret is taken for no other. -/
theorem gauges_mirror_known_iff_one_secret :
    Mirrors (gauges [.applied (secret "ns" "tls")])
      (Classifier.empty.after [.applied (secret "ns" "tls")]).known := by
  let events : List (RawEvent .secret) := [.applied (secret "ns" "tls")]
  have hns : ∀ e ∈ events, ∀ s, e.shown? = some s → s.metadata.ns.isSome := by
    intro e he s hs
    cases List.mem_singleton.mp he
    cases hs
    rfl
  refine (gauges_mirror_known_iff events hns).2.mpr ?_ events List.prefix_rfl
  intro before e hbefore change hchange s hs _ hne
  obtain ⟨rfl, rfl⟩ : before = [] ∧ e = .applied (secret "ns" "tls") := by
    have hlength : before = [] := by simpa [events] using hbefore.length_le
    subst hlength
    simpa [events] using hbefore
  have hother : s.ref ≠ (secret "ns" "tls").ref := by
    cases List.mem_singleton.mp hchange
    simpa [Classifier.object_change] using hne
  have hnone : (Classifier.empty.after [.applied (secret "ns" "tls")]).known[s.ref]? = none :=
    Known.getElem?_insert_of_ne _ hother
  cases hs.symm.trans hnone

open Leaf in
/-- The gauges take `tls` in `1` for `tl` in `s1`. -/
theorem unlike_secrets_share_gauges :
    let events := [.applied (secret "s1" "tl"), .applied (secret "1" "tls")]
    (∀ e ∈ events, ∀ s, e.shown? = some s → s.metadata.ns.isSome) ∧
      ¬ Mirrors (gauges events) (Classifier.empty.after events).known := by
  intro events
  constructor
  · intro e he s hs
    simp only [events, List.mem_cons, List.not_mem_nil, or_false] at he
    obtain rfl | rfl := he <;> cases hs <;> rfl
  · intro h
    have hknown : (Classifier.empty.after events).known[(secret "1" "tls").ref]?
        = some (secret "1" "tls") :=
      Std.ExtTreeMap.getElem?_insert_self
    have hlabels := (mirrors_iff.mp h).1.labels?_eq (coherent_gauges events).issueTime hknown
      (by rw [issued?_secret]; rfl)
    have hchanges : (Classifier.empty.run events).flatten
        = [.created (secret "s1" "tl"), .created (secret "1" "tls")] := rfl
    have hkey : (labels (secret "1" "tls")).key = (labels (secret "s1" "tl")).key := by
      decide
    have hfollow (s s' : Secret) : follow issued? ∅ [.created s, .created s']
        = ((∅ : Gauge).put (labels s) (issued? s)).put (labels s') (issued? s') := rfl
    rw [gauges, hchanges, foldl_track_eq, Metrics.empty, hfollow, issued?_secret, issued?_secret,
      Gauge.labels?_put, Gauge.labels?_put, hkey] at hlabels
    have hkept : labels (secret "s1" "tl") = labels (secret "1" "tls") := by
      simpa using hlabels
    revert hkept
    decide

end CertKeeper.Expiry
