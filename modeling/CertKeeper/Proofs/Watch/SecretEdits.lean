import CertKeeper.Proofs.Expiry.GaugeMirror
import CertKeeper.Proofs.Sync.SecretControllers

/-!
# Descriptions stay in line

A secret is edited time and again, in its annotations, its certificates and all else but its
descriptions. The filter passes an edit on if it changes what the descriptions are made from, and
the run that follows brings them in line. What the filter passes over leaves them in line as they
are. Only a certificate that cannot be described cuts the run off, and leaves the descriptions of
another one behind.
-/

namespace CertKeeper

open Watch

/-- The cluster after an object was put in its place from outside. -/
def Cluster.put {k : Kind} (c : Cluster) (o : Object k) : Cluster :=
  { c with store := c.store.insert o }

theorem Cluster.get_put {k : Kind} {c : Cluster} {o : Object k}
    (hget : c.refusals.get k o.key = none) : (c.put o).get k o.key = .ok (some o) :=
  get_eq_ok.mpr ⟨hget, Store.find?_insert c.store o⟩

namespace CertificateInfo

/-- Whether one version of a secret is made from another one by an edit that neither changes its
type nor touches its descriptions. -/
structure Edit (old new : Secret) : Prop where
  key : new.key = old.key
  type : new.content.type = old.content.type
  certificate : new.content.field Field.certInfo = old.content.field Field.certInfo
  ca : new.content.field Field.caInfo = old.content.field Field.caInfo

/-- Puts the edited secret in its place, and runs for it if the filter passes the edit on. -/
def follow (c : Cluster) (h : Host) (old new : Secret) : Cluster :=
  if kind.targetFilter.accepts (.updated old new) then (kind.sync (c.put new) h new.key).2
  else c.put new

/-- Edits of the secret `r`, one after the other, each of which is followed. -/
inductive Edited (r : Reference) (c : Cluster) : Cluster → Prop where
  | refl : Edited r c c
  | step {c' : Cluster} {old new : Secret} (hedits : Edited r c c')
      (hold : c'.store.find? .secret r = some old) (hedit : Edit old new) (h : Host) :
      Edited r c (follow c' h old new)

variable {c c' : Cluster} {h : Host} {r : Reference} {s old new : Secret}

namespace Edit

theorem isTls (hedit : Edit old new) : new.content.isTls = old.content.isTls := by
  rw [Secret.Content.isTls, Secret.Content.isTls, hedit.type]

theorem current_eq (hedit : Edit old new) : current new = current old := by
  simp only [current, Secret.Content.value, hedit.certificate, hedit.ca]

end Edit

/-- What the filter passes over does not change what there is to be described. -/
theorem desired_eq_of_rejected (htls : new.content.isTls = true)
    (he : kind.targetFilter.accepts (.updated old new) = false) : desired new = desired old := by
  obtain ⟨henabled, hfields⟩ := (Mirror.annotatedTlsSecret_eq_false htls).mp he
  cases hold : old.annotations.isEnabled Key.generateCertInfo with
  | false => simp [desired, henabled, hold]
  | true =>
    have hvalue {key : String} (hkey : key ∈ [Field.tlsCert, Field.caCert]) :
        new.content.value key = old.content.value key := ((hfields hold).value hkey).symm
    simp only [desired, henabled, describe, hvalue (.head _), hvalue (.tail _ (.head _))]

theorem describable_congr (hdesired : desired new = desired old) :
    Describable new ↔ Describable old := by
  rw [← exists_desired_iff, ← exists_desired_iff, hdesired]

/-- How a run for a secret ends. -/
inductive EndsFor (s : Secret) : Except SyncError Outcome → Prop where
  | unchanged (hline : InLine s) : EndsFor s (.ok .unchanged)
  | updated (hs : Describable s) (hline : ¬ InLine s) : EndsFor s (.ok .updated)
  | panic (hs : ¬ Describable s) : EndsFor s (.error (.panic .addOverflow))

theorem EndsFor.exists_done {result : Except SyncError Outcome} (h : EndsFor s result)
    (hs : Describable s) :
    ∃ outcome, result = .ok outcome ∧ (outcome = .updated ∨ outcome = .unchanged) := by
  cases h with
  | unchanged => exact ⟨_, rfl, .inr rfl⟩
  | updated => exact ⟨_, rfl, .inl rfl⟩
  | panic hnot => exact absurd hs hnot

theorem EndsFor.eq_error {result : Except SyncError Outcome} (h : EndsFor s result)
    (hs : ¬ Describable s) : result = .error (.panic .addOverflow) := by
  cases h with
  | unchanged hline => exact absurd hline.describable hs
  | updated hdescribable => exact absurd hdescribable hs
  | panic => rfl

theorem endsFor_sync (hget : c.get .secret r = .ok (some s))
    (hupdate : c.refusals.update .secret r = none) (htls : s.content.isTls = true) (h : Host) :
    EndsFor s (kind.sync c h r).1 := by
  have happlies : kind.applies s = true := htls
  rw [sourceless.fst_sync_eq hget hupdate, if_pos happlies]
  show EndsFor s (((desired s).mapError SyncError.panic).map _)
  cases hdesired : desired s with
  | error cause =>
    cases cause
    refine .panic fun hs => ?_
    obtain ⟨i, hi⟩ := exists_desired_iff.mpr hs
    cases hdesired.symm.trans hi
  | ok i =>
    have hline : InLine s ↔ current s = i := by
      rw [inLine_iff, hdesired, Except.ok.injEq, eq_comm]
    by_cases hi : current s = i
    · have hunchanged : derivation.unchanged s (derivation.current s) i = true :=
        decide_eq_true hi
      simpa [Except.mapError, Except.map, hunchanged] using EndsFor.unchanged (hline.mpr hi)
    · have hunchanged : derivation.unchanged s (derivation.current s) i = false :=
        decide_eq_false hi
      simpa [Except.mapError, Except.map, hunchanged] using
        EndsFor.updated (exists_desired_iff.mp ⟨i, hdesired⟩) (mt hline.mp hi)

structure EditFollowed (c : Cluster) (h : Host) (old new : Secret) : Prop where
  /-- What is passed over is not written, and a run would have had nothing to do. -/
  rejected : kind.targetFilter.accepts (.updated old new) = false →
    follow c h old new = c.put new ∧ (Describable new →
      InLine new ∧ kind.sync (c.put new) h new.key = (.ok .unchanged, c.put new))
  /-- What is passed on is written if the descriptions are no longer in line. -/
  accepted : kind.targetFilter.accepts (.updated old new) = true → ∃ result,
    kind.sync (c.put new) h new.key = (result, follow c h old new) ∧ EndsFor new result ∧
      (¬ Describable new → follow c h old new = c.put new)
  /-- The edit stays, and the descriptions are in line with it if there can be any. -/
  after : ∃ s, (follow c h old new).store.find? .secret new.key = some s ∧
    new.SameBut [Field.certInfo, Field.caInfo] s ∧ (InLine s ↔ Describable new)

/-- Whether a secret that holds a certificate stands under `r`, with descriptions that are in line
with it if there can be any, and can be fetched and updated. -/
structure Kept (c : Cluster) (r : Reference) (s : Secret) : Prop where
  find? : c.store.find? .secret r = some s
  isTls : s.content.isTls = true
  inLine : Describable s → InLine s
  fetched : c.refusals.get .secret r = none
  updated : c.refusals.update .secret r = none

theorem Kept.editFollowed_of_rejected (hkept : Kept c r old) (hedit : Edit old new) (h : Host)
    (he : kind.targetFilter.accepts (.updated old new) = false) : EditFollowed c h old new := by
  have htls : new.content.isTls = true := hedit.isTls.trans hkept.isTls
  obtain rfl : new.key = r := hedit.key.trans (Store.key_of_find? hkept.find?)
  have hget : (c.put new).get .secret new.key = .ok (some new) := Cluster.get_put hkept.fetched
  have hfollow : follow c h old new = c.put new := by simp [follow, he]
  have hdesired : desired new = desired old := desired_eq_of_rejected htls he
  have hline (hs : Describable new) : InLine new := by
    have hold := hkept.inLine ((describable_congr hdesired).mp hs)
    rw [inLine_iff] at hold ⊢
    rw [hedit.current_eq, hdesired, hold]
  refine ⟨fun _ => ⟨hfollow, fun hs => ⟨hline hs, ?_⟩⟩, fun h => by simp [he] at h, new, ?_,
    .refl _ _, InLine.describable, hline⟩
  · exact (sourceless.sync_eq_unchanged_iff hget).mpr ⟨htls, revise_eq_none_iff.mpr (hline hs)⟩
  · rw [hfollow]
    exact (Cluster.get_eq_ok.mp hget).2

theorem Kept.editFollowed_of_accepted (hkept : Kept c r old) (hedit : Edit old new) (h : Host)
    (he : kind.targetFilter.accepts (.updated old new) = true) : EditFollowed c h old new := by
  have htls : new.content.isTls = true := hedit.isTls.trans hkept.isTls
  obtain rfl : new.key = r := hedit.key.trans (Store.key_of_find? hkept.find?)
  have hget : (c.put new).get .secret new.key = .ok (some new) := Cluster.get_put hkept.fetched
  have hstored : (c.put new).store.find? .secret new.key = some new :=
    (Cluster.get_eq_ok.mp hget).2
  have hfollow : follow c h old new = (kind.sync (c.put new) h new.key).2 := by
    simp [follow, he]
  have hend := endsFor_sync hget hkept.updated htls h
  have hstays (hs : ¬ Describable new) : follow c h old new = c.put new := by
    rw [hfollow]
    refine SyncKind.snd_sync_eq_of_ne ?_
    rw [hend.eq_error hs]
    exact fun h => by cases h
  refine ⟨fun h => by simp [he] at h, fun _ => ⟨_, Prod.ext rfl hfollow.symm, hend, hstays⟩, ?_⟩
  by_cases hs : Describable new
  · obtain ⟨outcome, hrun, hdone⟩ := hend.exists_done hs
    obtain ⟨s, hs', hline, hafter⟩ := exists_after hstored (Prod.ext hrun hfollow.symm) hdone
    refine ⟨s, hs', ?_, iff_of_true hline hs⟩
    rcases hafter with rfl | ⟨i, version, -, rfl⟩
    · exact .refl _ _
    · exact sameBut_write i new version
  · refine ⟨new, ?_, .refl _ _, InLine.describable, fun h => absurd h hs⟩
    rw [hstays hs]
    exact hstored

theorem Kept.editFollowed (hkept : Kept c r old) (hedit : Edit old new) (h : Host) :
    EditFollowed c h old new := by
  cases he : kind.targetFilter.accepts (.updated old new) with
  | false => exact hkept.editFollowed_of_rejected hedit h he
  | true => exact hkept.editFollowed_of_accepted hedit h he

theorem refusals_follow (c : Cluster) (h : Host) (old new : Secret) :
    (follow c h old new).refusals = c.refusals := by
  unfold follow
  split
  · exact SyncKind.refusals_sync _ _ _ _
  · rfl

theorem Kept.follow (hkept : Kept c r old) (hedit : Edit old new) (h : Host) :
    ∃ s, Kept (follow c h old new) r s := by
  obtain ⟨s, hs, hsame, hline⟩ := (hkept.editFollowed hedit h).after
  have hkey : new.key = r := hedit.key.trans (Store.key_of_find? hkept.find?)
  have hdesired : desired s = desired new :=
    desired_congr hsame.annotations (hsame.value (by decide)) (hsame.value (by decide))
  refine ⟨s, hkey ▸ hs, hsame.isTls.trans (hedit.isTls.trans hkept.isTls), ?_, ?_, ?_⟩
  · exact fun hdescribable => hline.mpr ((describable_congr hdesired).mp hdescribable)
  · rw [refusals_follow, hkept.fetched]
  · rw [refusals_follow, hkept.updated]

theorem Edited.exists_kept (hedits : Edited r c c') (hkept : Kept c r s) : ∃ s', Kept c' r s' := by
  induction hedits with
  | refl => exact ⟨s, hkept⟩
  | step hedits hold hedit h ih =>
    obtain ⟨found, hfound⟩ := ih
    cases hold.symm.trans hfound.find?
    exact hfound.follow hedit h

/-- Where the descriptions of a secret are in line with it, they are so after every sequence of
edits, and after each further edit, exactly if the certificates can be described. There is nothing
to write after an edit that the filter passes over. -/
theorem descriptions_in_line_iff (hs : c.store.find? .secret r = some s)
    (htls : s.content.isTls = true) (hline : InLine s)
    (hget : c.refusals.get .secret r = none) (hupdate : c.refusals.update .secret r = none)
    (hedits : Edited r c c') : ∃ last, c'.store.find? .secret r = some last ∧
      last.content.isTls = true ∧ (InLine last ↔ Describable last) ∧
        ∀ new, Edit last new → ∀ h, EditFollowed c' h last new := by
  obtain ⟨last, hlast⟩ := hedits.exists_kept ⟨hs, htls, fun _ => hline, hget, hupdate⟩
  exact ⟨last, hlast.find?, hlast.isTls, ⟨InLine.describable, hlast.inLine⟩,
    fun new hedit h => hlast.editFollowed hedit h⟩

namespace EditedLeaf

open Expiry.Leaf

def host : Host := CaTarget.NamedSecret.host

def start : Secret := secret "ns" "tls"

def optedIn : Secret :=
  { start with metadata := { start.metadata with
      annotations := some ((∅ : Annotations).insert Key.generateCertInfo "true") } }

def cluster : Cluster := .ofStore (Store.empty.insert start)

def rekeyed (s : Secret) : Secret := { s with content := s.content.set Field.tlsKey (some [1]) }

theorem edit_optedIn : Edit start optedIn := ⟨rfl, rfl, rfl, rfl⟩

theorem edit_rekeyed (s : Secret) : Edit s (rekeyed s) where
  key := rfl
  type := rfl
  certificate := Secret.Content.field_set_of_ne _ _ _ (by decide)
  ca := Secret.Content.field_set_of_ne _ _ _ (by decide)

theorem rejected_rekeyed {s : Secret} (htls : s.content.isTls = true) :
    kind.targetFilter.accepts (.updated s (rekeyed s)) = false := by
  have htls' : (rekeyed s).content.isTls = true := htls
  refine (Mirror.annotatedTlsSecret_eq_false htls').mpr ⟨rfl, fun _ key hkey => ?_⟩
  have hne : key ≠ Field.tlsKey := by
    rintro rfl
    exact absurd hkey (by decide)
  exact (Secret.Content.field_set_of_ne s.content Field.tlsKey (some [1]) hne).symm

theorem inLine_start : InLine start := inLine_iff.mpr (by decide +kernel)

def undescribable : Secret :=
  { optedIn with content :=
      optedIn.content.set Field.tlsCert (some (Bundle.Versions.pem "////8")) }

theorem edit_undescribable : Edit start undescribable where
  key := rfl
  type := rfl
  certificate := Secret.Content.field_set_of_ne _ _ _ (by decide)
  ca := Secret.Content.field_set_of_ne _ _ _ (by decide)

theorem not_describable_undescribable : ¬ Describable undescribable := by
  obtain ⟨c, hc, hversion⟩ := Bundle.Versions.exists_beyond
  have hpem : Bundle.Versions.pem "////8" ≠ [] := by
    intro h
    rw [h] at hc
    cases hc
  have hfield : undescribable.content.field Field.tlsCert = some (Bundle.Versions.pem "////8") :=
    (Secret.Content.field_set _ _ _).trans (Bytes.nonEmpty?_of_ne_nil hpem)
  have hmem : c ∈ Bundle.certificates (Bundle.Versions.pem "////8") := by
    rw [hc]
    exact List.mem_singleton_self c
  exact fun hs => hs rfl Field.tlsCert (.head _) _ hfield c hmem hversion

end EditedLeaf

open EditedLeaf in
/-- The certificate is described as soon as the secret opts in, and another key changes nothing. -/
theorem descriptions_in_line_iff_opted_in : ∃ c' last,
    kind.sync (cluster.put optedIn) host ⟨"ns", "tls"⟩ = (.ok .updated, c') ∧
      c'.store.find? .secret ⟨"ns", "tls"⟩ = some last ∧ InLine last ∧
        kind.sync (c'.put (rekeyed last)) host ⟨"ns", "tls"⟩
          = (.ok .unchanged, c'.put (rekeyed last)) := by
  have hs : cluster.store.find? .secret ⟨"ns", "tls"⟩ = some start := Store.find?_insert _ _
  have hupdated : (kind.sync (cluster.put optedIn) host ⟨"ns", "tls"⟩).1.toOption
      = some .updated := by
    decide +kernel
  have haccepted : kind.targetFilter.accepts (.updated start optedIn) = true := by
    decide +kernel
  obtain ⟨c', hrun⟩ := SyncKind.exists_sync_eq hupdated
  have hfollow : follow cluster host start optedIn = c' := by
    rw [follow, if_pos haccepted]
    exact congrArg Prod.snd hrun
  have hedits : Edited ⟨"ns", "tls"⟩ cluster c' :=
    hfollow ▸ .step .refl hs edit_optedIn host
  have htls : start.content.isTls = true := by decide +kernel
  obtain ⟨last, hlast, hlastTls, -, hnext⟩ :=
    descriptions_in_line_iff hs htls inLine_start rfl rfl hedits
  obtain ⟨found, hfound, hfoundLine, -⟩ :=
    exists_after (Store.find?_insert _ optedIn) hrun (.inl rfl)
  cases hlast.symm.trans hfound
  have hkey : (rekeyed last).key = ⟨"ns", "tls"⟩ :=
    (edit_rekeyed last).key.trans (Store.key_of_find? hlast)
  have hrejected := rejected_rekeyed hlastTls
  obtain ⟨-, hidle⟩ := (hnext (rekeyed last) (edit_rekeyed last) host).rejected hrejected
  have hdesired : desired (rekeyed last) = desired last :=
    desired_eq_of_rejected hlastTls hrejected
  obtain ⟨-, hidle⟩ := hidle ((describable_congr hdesired).mpr hfoundLine.describable)
  rw [hkey] at hidle
  exact ⟨c', last, hrun, hlast, hfoundLine, hidle⟩

open EditedLeaf in
/-- The run that follows the edit is cut off, and the secret is left without a description. -/
theorem undescribable_edit_not_followed : InLine start ∧ Edit start undescribable ∧
    kind.targetFilter.accepts (.updated start undescribable) = true ∧
      kind.sync (cluster.put undescribable) host ⟨"ns", "tls"⟩
        = (.error (.panic .addOverflow), cluster.put undescribable) ∧
      (cluster.put undescribable).store.find? .secret ⟨"ns", "tls"⟩ = some undescribable ∧
        ¬ InLine undescribable := by
  have hs : cluster.store.find? .secret ⟨"ns", "tls"⟩ = some start := Store.find?_insert _ _
  have hput : (cluster.put undescribable).store.find? .secret ⟨"ns", "tls"⟩ = some undescribable :=
    Store.find?_insert _ undescribable
  have htls : start.content.isTls = true := by decide +kernel
  have haccepted : kind.targetFilter.accepts (.updated start undescribable) = true := by
    decide +kernel
  have hkept : Kept cluster ⟨"ns", "tls"⟩ start := ⟨hs, htls, fun _ => inLine_start, rfl, rfl⟩
  obtain ⟨result, hrun, hend, hstays⟩ :=
    (hkept.editFollowed edit_undescribable host).accepted haccepted
  have hnot := not_describable_undescribable
  rw [hstays hnot, hend.eq_error hnot] at hrun
  exact ⟨inLine_start, edit_undescribable, haccepted, hrun, hput, fun h => hnot h.describable⟩

end CertificateInfo
end CertKeeper
