import CertKeeper.Proofs.Watch.Dependents
import CertKeeper.Watch.Broadcast

/-!
# No change of the system CA is lost

A subscriber notes what it has seen of the signals when it takes an item, before it lists its
targets. So a signal that comes later is worth another item, and the targets are always listed once
more after the last signal, as they are by then. Signals that come while a subscriber is busy share
an item.
-/

namespace CertKeeper

/-- Whether runs are asked for, once for each target that has opted in to the system CA. If the
targets cannot be listed, there are none. -/
structure Controller.AsksForOptedIn (w : Controller) (c : Cluster) (requests : List ObjectRef) :
    Prop where
  nodup : requests.Nodup
  mem_iff : ∀ ref, ref ∈ requests ↔ c.refusals.list w.kind = none ∧
    ∃ target, c.store.find? w.kind target.key = some target ∧
      target.annotations[Key.injectCaFromServiceCa]? = some "true" ∧
        target.annotations[Key.injectCaFromSecret]? = none ∧ target.ref = ref

theorem Controller.asksForOptedIn {w : Controller} (hw : w ∈ all)
    (huses : w.sync.usesSystemCa = true) (c : Cluster) :
    w.AsksForOptedIn c (w.sync.resolveSystemCa c) := by
  cases hlist : c.refusals.list w.kind with
  | some e =>
    have hnil : w.sync.resolveSystemCa c = [] := by
      simp only [SyncKind.resolveSystemCa, SyncKind.resolve, Cluster.list, hlist]
    exact ⟨by simp [hnil], by simp [hnil, hlist]⟩
  | none =>
    refine ⟨List.Nodup.of_map _ (SyncKind.nodup_keys_resolve hlist), fun ref => ?_⟩
    rw [SyncKind.mem_resolveSystemCa hlist]
    simp only [(traceable hw).dependsOn_systemCa, huses, hlist, true_and, and_assoc]

namespace Watch

namespace CaSubscriber

variable {r r' r'' : CaSubscriber} {s s' s'' : Signal} {n : Nat}

/-- The item that is to come for what was signalled already, if there is one. -/
def due (r : CaSubscriber) (s : Signal) : Nat := if r.receiver.seen = s.count then 0 else 1

structure Fits (s : Signal) (r : CaSubscriber) : Prop where
  seen_le : r.receiver.seen ≤ s.count
  ended : r.hasEnded = true →
    s.isOpen = false ∧ r.receiver.seen = s.count ∧ r.isBusy = false

theorem fits_start (w : Controller) (s : Signal) : (start w s).Fits s :=
  ⟨Nat.le_refl _, fun h => nomatch h⟩

theorem Fits.send (hr : r.Fits s) (hopen : s.isOpen = true) : r.Fits s.send where
  seen_le := Nat.le_succ_of_le hr.seen_le
  ended h := by
    rw [(hr.ended h).1] at hopen
    cases hopen

theorem Fits.close (hr : r.Fits s) : r.Fits s.close :=
  ⟨hr.seen_le, fun h => ⟨rfl, (hr.ended h).2⟩⟩

theorem Fits.due_send (hr : r.Fits s) : r.due s.send = 1 :=
  if_neg (Nat.ne_of_lt (Nat.lt_succ_of_le hr.seen_le))

theorem due_le_one (r : CaSubscriber) (s : Signal) : r.due s ≤ 1 := by
  unfold due
  split <;> decide

/-- A subscriber delivers the item that it holds or takes the one that is due. Where none is due, it
waits, or ends if there will be no more. -/
theorem Fits.advance_cases (hr : r.Fits s) (c : Cluster) :
    (r.isBusy = true ∧ r.advance s c = r.deliver c) ∨
    (r.isBusy = false ∧ r.hasEnded = false ∧ r.due s = 1 ∧
      r.advance s c = { r with receiver := ⟨s.count⟩, isBusy := true }) ∨
    (r.isBusy = false ∧ r.receiver.seen = s.count ∧
      r.advance s c = { r with hasEnded := r.hasEnded || !s.isOpen }) := by
  rcases r with ⟨w, receiver, isBusy, hasEnded, requested⟩
  cases isBusy with
  | true => exact .inl ⟨rfl, rfl⟩
  | false =>
    by_cases hseen : receiver.seen = s.count
    · refine .inr (.inr ⟨rfl, hseen, ?_⟩)
      cases hasEnded <;> cases hopen : s.isOpen <;>
        simp [advance, poll, Follower.poll, hseen, hopen]
    · have hended : hasEnded = false := by
        by_contra h
        exact hseen (hr.ended (by simpa using h)).2.1
      subst hended
      exact .inr (.inl ⟨rfl, rfl, if_neg hseen, by simp [advance, poll, Follower.poll, hseen]⟩)

theorem Fits.advance (hr : r.Fits s) (c : Cluster) : (r.advance s c).Fits s := by
  obtain ⟨hbusy, h⟩ | ⟨-, hended, -, h⟩ | ⟨hbusy, hseen, h⟩ := hr.advance_cases c
  · rw [h]
    refine ⟨hr.seen_le, fun hended => ?_⟩
    rw [(hr.ended hended).2.2] at hbusy
    cases hbusy
  · rw [h]
    exact ⟨Nat.le_refl _, fun h => by rw [hended] at h; cases h⟩
  · rw [h]
    refine ⟨hr.seen_le, fun hended => ⟨?_, hseen, hbusy⟩⟩
    cases hopen : s.isOpen with
    | false => rfl
    | true => exact absurd (hr.ended (by simpa [hopen] using hended)).1 (by simp [hopen])

theorem items_deliver (hbusy : r.isBusy = true) (c : Cluster) : (r.deliver c).items = r.items := by
  simp [items, deliver, hbusy]

/-- What becomes of a subscriber while its listener comes from one state to another. The items that
are due count as if they were taken. -/
structure Grows (s s' : Signal) (r r' : CaSubscriber) : Prop where
  controller : r'.controller = r.controller
  le_promised : r.items + r.due s ≤ r'.items + r'.due s'
  promised_le : r'.items + r'.due s' + s.count ≤ r.items + r.due s + s'.count

theorem Grows.refl (s : Signal) (r : CaSubscriber) : Grows s s r r :=
  ⟨rfl, Nat.le_refl _, Nat.le_refl _⟩

theorem Grows.trans (h : Grows s s' r r') (h' : Grows s' s'' r' r'') : Grows s s'' r r'' where
  controller := h'.controller.trans h.controller
  le_promised := Nat.le_trans h.le_promised h'.le_promised
  promised_le := by
    have := h.promised_le
    have := h'.promised_le
    omega

theorem Fits.grows_send (hr : r.Fits s) : Grows s s.send r r where
  controller := rfl
  le_promised := by
    rw [hr.due_send]
    exact Nat.add_le_add_left (due_le_one r s) _
  promised_le := by
    rw [hr.due_send]
    simp only [Signal.send]
    omega

theorem Fits.grows_advance (hr : r.Fits s) (c : Cluster) : Grows s s r (r.advance s c) := by
  obtain ⟨hbusy, h⟩ | ⟨hbusy, -, hdue, h⟩ | ⟨-, -, h⟩ := hr.advance_cases c
  · rw [h]
    have hdue : (r.deliver c).due s = r.due s := rfl
    exact ⟨rfl, by rw [items_deliver hbusy, hdue], by rw [items_deliver hbusy, hdue]⟩
  · have hitems : (r.advance s c).items = r.items + 1 := by simp [h, items, hbusy]
    have hdue' : (r.advance s c).due s = 0 := by simp [h, due]
    refine ⟨by rw [h], ?_, ?_⟩ <;> rw [hitems, hdue, hdue']
  · rw [h]
    exact ⟨rfl, Nat.le_refl _, Nat.le_refl _⟩

/-- How many turns a subscriber needs at most until it has asked for the runs for the item `n`, if
that item was taken or is due. The last turn delivers it and the one before takes it. -/
def turnsTo (n : Nat) (r : CaSubscriber) : Nat :=
  if n < r.requested.length then 0 else if n < r.items then 1 else if r.isBusy then 3 else 2

theorem turnsTo_le_three (n : Nat) (r : CaSubscriber) : r.turnsTo n ≤ 3 := by
  unfold turnsTo
  split
  · decide
  · split
    · decide
    · split <;> decide

theorem lt_length_requested (h : r.turnsTo n = 0) : n < r.requested.length := by
  grind [turnsTo]

theorem lt_items (h : r.turnsTo n ≤ 1) : n < r.items := by
  grind [turnsTo, items]

theorem Fits.turnsTo_advance (hr : r.Fits s) (hn : n < r.items + r.due s) (c : Cluster) :
    (r.advance s c).turnsTo n ≤ r.turnsTo n - 1 := by
  obtain ⟨hbusy, h⟩ | ⟨hbusy, -, hdue, h⟩ | ⟨hbusy, hseen, h⟩ := hr.advance_cases c
  · have hlength : (r.deliver c).requested.length = r.requested.length + 1 := by simp [deliver]
    have hidle : (r.deliver c).isBusy = false := rfl
    rw [h]
    grind [turnsTo, items]
  · rw [h]
    grind [turnsTo, items]
  · have hdue : r.due s = 0 := if_pos hseen
    rw [h]
    grind [turnsTo, items]

theorem requested_advance (r : CaSubscriber) (s : Signal) (c : Cluster) :
    (r.advance s c).requested = r.requested ∨ r.isBusy = true ∧
      (r.advance s c).requested = r.requested ++ [r.controller.sync.resolveSystemCa c] := by
  cases hbusy : r.isBusy with
  | true => exact .inr ⟨rfl, by simp [advance, hbusy, deliver]⟩
  | false =>
    refine .inl ?_
    cases hended : r.hasEnded with
    | true => simp [advance, hbusy, hended]
    | false =>
      simp only [advance, hbusy, hended, Bool.false_eq_true, if_false, poll]
      split <;> rfl

end CaSubscriber

namespace CaBroadcast

open CaSubscriber

variable {b : CaBroadcast} {r r' m : CaSubscriber} {w : Controller} {i j n : Nat}
  {requests : List ObjectRef} {steps : List Step}

@[simp] theorem run_nil (b : CaBroadcast) : b.run [] = b := rfl

@[simp] theorem run_cons (b : CaBroadcast) (s : Step) (steps : List Step) :
    b.run (s :: steps) = (b.step s).run steps := rfl

theorem run_append (b : CaBroadcast) (steps steps' : List Step) :
    b.run (steps ++ steps') = (b.run steps).run steps' := List.foldl_append

def Step.isTurnOf (i : Nat) : Step → Bool
  | .advance j => i == j
  | _ => false

def turns (i : Nat) (steps : List Step) : Nat := steps.countP (·.isTurnOf i)

theorem exists_step (hr : b.subscribers[i]? = some r) (s : Step) :
    ∃ r', (b.step s).subscribers[i]? = some r' ∧
      ((s = .advance i ∧ r' = r.advance b.signal b.cluster) ∨ (s.isTurnOf i = false ∧ r' = r)) := by
  cases s with
  | signal | stop =>
    refine ⟨r, ?_, .inr ⟨rfl, rfl⟩⟩
    rw [step]
    split <;> exact hr
  | drop | edit c => exact ⟨r, hr, .inr ⟨rfl, rfl⟩⟩
  | subscribe w =>
    refine ⟨r, ?_, .inr ⟨rfl, rfl⟩⟩
    rw [step]
    split
    · rw [List.getElem?_append_left (List.getElem?_eq_some_iff.mp hr).1, hr]
    · exact hr
  | advance j =>
    by_cases hj : i = j
    · subst hj
      exact ⟨_, by simp [step, hr], .inl ⟨rfl, rfl⟩⟩
    · refine ⟨r, ?_, .inr ⟨by simp [Step.isTurnOf, hj], rfl⟩⟩
      simp [step, Ne.symm hj, hr]

/-- Whether nobody has seen more than there was, and the listener has stopped only if it was
dropped. -/
structure Sound (b : CaBroadcast) : Prop where
  isDropped : b.signal.isOpen = false → b.isDropped = true
  fits : ∀ r ∈ b.subscribers, r.Fits b.signal

theorem Sound.step (hb : b.Sound) (s : Step) : (b.step s).Sound := by
  cases s with
  | signal =>
    rw [CaBroadcast.step]
    split
    · rename_i hopen
      exact ⟨hb.isDropped, fun r hr => (hb.fits r hr).send hopen⟩
    · exact hb
  | drop => exact ⟨fun _ => rfl, hb.fits⟩
  | stop =>
    rw [CaBroadcast.step]
    split
    · rename_i hdropped
      exact ⟨fun _ => hdropped, fun r hr => (hb.fits r hr).close⟩
    · exact hb
  | subscribe w =>
    rw [CaBroadcast.step]
    split
    · refine ⟨hb.isDropped, fun r hr => ?_⟩
      rcases List.mem_append.mp hr with hr | hr
      · exact hb.fits r hr
      · rw [List.mem_singleton.mp hr]
        exact fits_start w b.signal
    · exact hb
  | edit c => exact ⟨hb.isDropped, hb.fits⟩
  | advance i =>
    refine ⟨hb.isDropped, fun r hr => ?_⟩
    obtain ⟨j, hj⟩ := List.mem_iff_getElem?.mp hr
    simp only [CaBroadcast.step, List.getElem?_modify, Option.map_eq_map,
      Option.map_eq_some_iff] at hj
    obtain ⟨r₀, hr₀, rfl⟩ := hj
    have hfits := hb.fits r₀ (List.mem_iff_getElem?.mpr ⟨j, hr₀⟩)
    split
    · exact hfits.advance b.cluster
    · exact hfits

theorem Sound.run (hb : b.Sound) (steps : List Step) : (b.run steps).Sound := by
  induction steps generalizing b with
  | nil => exact hb
  | cons s steps ih => exact ih (hb.step s)

theorem sound_start (c : Cluster) : (start c).Sound where
  isDropped h := nomatch h
  fits _ hr := nomatch hr

theorem signal_step (b : CaBroadcast) (s : Step) : (b.step s).signal = b.signal ∨
    (b.step s).signal = b.signal.send ∨ (b.step s).signal = b.signal.close := by
  cases s with
  | signal =>
    rw [step]
    split
    · exact .inr (.inl rfl)
    · exact .inl rfl
  | stop =>
    rw [step]
    split
    · exact .inr (.inr rfl)
    · exact .inl rfl
  | subscribe w =>
    rw [step]
    split <;> exact .inl rfl
  | drop | edit c | advance i => exact .inl rfl

theorem Sound.grows_step (hb : b.Sound) (hr : b.subscribers[i]? = some r) {s : Step}
    (hr' : (b.step s).subscribers[i]? = some r') : Grows b.signal (b.step s).signal r r' := by
  have hfits := hb.fits r (List.mem_of_getElem? hr)
  obtain ⟨r₁, hr₁, hmove⟩ := exists_step hr s
  obtain rfl : r' = r₁ := Option.some.inj (hr'.symm.trans hr₁)
  rcases hmove with ⟨rfl, rfl⟩ | ⟨-, rfl⟩
  · exact hfits.grows_advance b.cluster
  · rcases signal_step b s with h | h | h
    · rw [h]
      exact .refl _ _
    · rw [h]
      exact hfits.grows_send
    · rw [h]
      exact ⟨rfl, Nat.le_refl _, Nat.le_refl _⟩

theorem Sound.grows_run (hb : b.Sound) (hr : b.subscribers[i]? = some r) (steps : List Step) :
    ∃ r', (b.run steps).subscribers[i]? = some r' ∧ Grows b.signal (b.run steps).signal r r' := by
  induction steps generalizing b r with
  | nil => exact ⟨r, hr, .refl _ _⟩
  | cons s steps ih =>
    obtain ⟨r₁, hr₁, -⟩ := exists_step hr s
    obtain ⟨r', hr', hrun⟩ := ih (hb.step s) hr₁
    exact ⟨r', hr', (hb.grows_step hr hr₁).trans hrun⟩

theorem Sound.turnsTo_run (hb : b.Sound) (hr : b.subscribers[i]? = some r)
    (hn : n < r.items + r.due b.signal) (hr' : (b.run steps).subscribers[i]? = some r') :
    r'.turnsTo n ≤ r.turnsTo n - turns i steps := by
  induction steps generalizing b r with
  | nil =>
    rw [run_nil, hr] at hr'
    cases hr'
    exact Nat.le_refl _
  | cons s steps ih =>
    obtain ⟨r₁, hr₁, hmove⟩ := exists_step hr s
    have hgrows := hb.grows_step hr hr₁
    have hrun := ih (hb.step s) hr₁ (Nat.lt_of_lt_of_le hn hgrows.le_promised) hr'
    rcases hmove with ⟨rfl, rfl⟩ | ⟨hturn, rfl⟩
    · have hstep := (hb.fits r (List.mem_of_getElem? hr)).turnsTo_advance hn b.cluster
      have hturns : turns i (.advance i :: steps) = turns i steps + 1 := by
        simp [turns, Step.isTurnOf]
      omega
    · have hturns : turns i (s :: steps) = turns i steps := by simp [turns, hturn]
      omega

/-- Whether the subscriber `i` asks, in the course of these steps, for the runs for its item `j`: of
the targets that have opted in when it does. -/
def Delivers (b : CaBroadcast) (i j : Nat) (requests : List ObjectRef) (steps : List Step) : Prop :=
  ∃ before after m, steps = before ++ .advance i :: after ∧
    (b.run before).subscribers[i]? = some m ∧ m.isBusy = true ∧ m.requested.length = j ∧
      m.controller.AsksForOptedIn (b.run before).cluster requests

theorem Delivers.append (h : b.Delivers i j requests steps) (steps' : List Step) :
    b.Delivers i j requests (steps ++ steps') := by
  obtain ⟨before, after, m, rfl, hm⟩ := h
  exact ⟨before, after ++ steps', m, by simp, hm⟩

/-- Runs that were not asked for at first are asked for in some step. The induction goes by the last
step, since what was asked for stays. -/
theorem Sound.delivers (hb : b.Sound) (hr : b.subscribers[i]? = some r)
    (hw : r.controller ∈ Controller.all) (huses : r.controller.sync.usesSystemCa = true)
    (hr' : (b.run steps).subscribers[i]? = some r') (hj : r.requested.length ≤ j)
    (hrequests : r'.requested[j]? = some requests) : b.Delivers i j requests steps := by
  induction steps using List.reverseRecOn generalizing r' with
  | nil =>
    rw [run_nil, hr] at hr'
    cases hr'
    rw [List.getElem?_eq_none hj] at hrequests
    cases hrequests
  | append_singleton steps s ih =>
    obtain ⟨m, hm, hgrows⟩ := hb.grows_run hr steps
    obtain ⟨r'', hr'', hmove⟩ := exists_step hm s
    have hlast : (b.run steps).step s = b.run (steps ++ [s]) := (run_append b steps [s]).symm
    rw [hlast, hr'] at hr''
    cases hr''
    rcases hmove with ⟨rfl, rfl⟩ | ⟨-, rfl⟩
    · rcases requested_advance m (b.run steps).signal (b.run steps).cluster with h | ⟨hbusy, h⟩
      · rw [h] at hrequests
        exact (ih hm hrequests).append _
      · rw [h] at hrequests
        rcases Nat.lt_or_ge j m.requested.length with hlt | hge
        · rw [List.getElem?_append_left hlt] at hrequests
          exact (ih hm hrequests).append _
        · rw [List.getElem?_append_right hge, List.getElem?_singleton] at hrequests
          split at hrequests
          · cases hrequests
            refine ⟨steps, [], m, rfl, hm, hbusy, by omega, ?_⟩
            rw [← hgrows.controller] at hw huses
            exact Controller.asksForOptedIn hw huses _
          · cases hrequests
    · exact (ih hm hrequests).append _

def Reachable (b : CaBroadcast) : Prop := ∃ c steps, (start c).run steps = b

theorem Reachable.sound (hb : b.Reachable) : b.Sound := by
  obtain ⟨c, steps, rfl⟩ := hb
  exact (sound_start c).run steps

/-- Whether the subscriber `i`, who is `r` at first and `r'` after these steps, has followed the
signals on the way. -/
structure Followed (b : CaBroadcast) (i : Nat) (r : CaSubscriber) (steps : List Step)
    (r' : CaSubscriber) : Prop where
  /-- It ends only if the listener was dropped, and not before it has taken all items. -/
  ended : r'.hasEnded = true →
    (b.run steps).isDropped = true ∧ r'.due (b.run steps).signal = 0 ∧ r'.isBusy = false
  /-- It takes at most one item for each signal, besides the one that was due before. -/
  items_le : r'.items + b.signal.count ≤
    r.items + r.due b.signal + (b.run steps).signal.count
  /-- It takes an item after a signal, with its second move at the latest. -/
  item : ∀ rest, steps = .signal :: rest → b.signal.isOpen = true →
    r'.hasEnded = true ∨ 2 ≤ turns i rest → r.items < r'.items
  /-- It asks for the runs for that item with its third move at the latest. -/
  asks : ∀ rest, steps = .signal :: rest → b.signal.isOpen = true →
    r'.hasEnded = true ∨ 3 ≤ turns i rest → r.items < r'.requested.length
  /-- The runs that it has asked for are those of the targets that had opted in just then. -/
  delivers : ∀ j requests, r.requested.length ≤ j → r'.requested[j]? = some requests →
    b.Delivers i j requests steps

/-- A signal owes an item to all that have subscribed. It comes with their moves, and nobody ends
before. -/
theorem Sound.turnsTo_of_signal (hb : b.Sound) (hr : b.subscribers[i]? = some r)
    (hopen : b.signal.isOpen = true) (hr' : (b.run (.signal :: steps)).subscribers[i]? = some r')
    (h : r'.hasEnded = true ∨ n ≤ turns i steps) : r'.turnsTo r.items ≤ 3 - n := by
  have hstep : b.step .signal = { b with signal := b.signal.send } := if_pos hopen
  have hr₁ : (b.step .signal).subscribers[i]? = some r := by rw [hstep, hr]
  have hdue : r.due (b.step .signal).signal = 1 := by
    rw [hstep]
    exact (hb.fits r (List.mem_of_getElem? hr)).due_send
  have hb₁ := hb.step .signal
  rcases h with hended | hturns
  · obtain ⟨r₂, hr₂, hgrows⟩ := hb₁.grows_run hr₁ steps
    obtain rfl : r' = r₂ := Option.some.inj (hr'.symm.trans hr₂)
    obtain ⟨-, hseen, hidle⟩ := ((hb₁.run steps).fits r' (List.mem_of_getElem? hr')).ended hended
    have hdue' : r'.due ((b.step .signal).run steps).signal = 0 := if_pos hseen
    have hitems : r'.items = r'.requested.length := by simp [items, hidle]
    have hle := hgrows.le_promised
    have hzero : r'.turnsTo r.items = 0 := if_pos (by omega)
    omega
  · have hrun := hb₁.turnsTo_run hr₁ (n := r.items) (by omega) hr'
    have hthree := turnsTo_le_three r.items r
    omega

theorem Sound.followed (hb : b.Sound) (hr : b.subscribers[i]? = some r)
    (hw : r.controller ∈ Controller.all) (huses : r.controller.sync.usesSystemCa = true)
    (hr' : (b.run steps).subscribers[i]? = some r')
    (hgrows : Grows b.signal (b.run steps).signal r r') : b.Followed i r steps r' where
  ended hended := by
    obtain ⟨hclosed, hseen, hidle⟩ :=
      ((hb.run steps).fits r' (List.mem_of_getElem? hr')).ended hended
    exact ⟨(hb.run steps).isDropped hclosed, if_pos hseen, hidle⟩
  items_le := Nat.le_trans (Nat.add_le_add_right (Nat.le_add_right ..) _) hgrows.promised_le
  item rest hsteps hopen h := by
    subst hsteps
    exact lt_items (hb.turnsTo_of_signal hr hopen hr' h)
  asks rest hsteps hopen h := by
    subst hsteps
    exact lt_length_requested (Nat.le_zero.mp (hb.turnsTo_of_signal hr hopen hr' h))
  delivers j requests hj hrequests := hb.delivers hr hw huses hr' hj hrequests

/-- From its subscription on, a controller takes at most one item for each signal and never ends
unless the listener was dropped. After each signal it takes an item and then asks for runs of the
targets that have opted in by then, whatever was edited between, and however its moves, those of
others, further signals and edits follow each other. It asks for nothing while the targets cannot be
listed. -/
theorem changes_are_followed (hb : b.Reachable) (hdropped : b.isDropped = false)
    (hw : w ∈ Controller.all) (huses : w.sync.usesSystemCa = true) (steps rest : List Step) :
    ∃ r r', (b.run (.subscribe w :: steps)).subscribers[b.subscribers.length]? = some r ∧
      (b.run (.subscribe w :: (steps ++ rest))).subscribers[b.subscribers.length]? = some r' ∧
      r.controller = w ∧
      r.items + b.signal.count ≤ (b.run (.subscribe w :: steps)).signal.count ∧
      (b.run (.subscribe w :: steps)).Followed b.subscribers.length r rest r' := by
  have hstep : b.step (.subscribe w)
      = { b with subscribers := b.subscribers ++ [.start w b.signal] } := by
    simp [step, hdropped, huses]
  have hstart : (b.step (.subscribe w)).subscribers[b.subscribers.length]?
      = some (.start w b.signal) := by
    simp [hstep]
  have hb₁ := hb.sound.step (.subscribe w)
  obtain ⟨r, hr, hgrows⟩ := hb₁.grows_run hstart steps
  obtain ⟨r', hr', hgrows'⟩ := (hb₁.run steps).grows_run hr rest
  have hcontroller : r.controller = w := hgrows.controller
  have hcount : r.items + b.signal.count ≤ ((b.step (.subscribe w)).run steps).signal.count := by
    have hle := hgrows.promised_le
    have hitems : (CaSubscriber.start w b.signal).items = 0 := rfl
    have hdue : (CaSubscriber.start w b.signal).due b.signal = 0 := if_pos rfl
    simp only [hstep] at hle ⊢
    omega
  refine ⟨r, r', hr, ?_, hcontroller, hcount, ?_⟩
  · rw [run_cons, run_append, hr']
  · rw [← hcontroller] at hw huses
    exact (hb₁.run steps).followed hr hw huses hr' hgrows'

namespace LateTarget

def service : Controller := ⟨_, CaTarget.apiService.injection⟩

def course : List Step :=
  [.signal, .signal, .advance 0, .edit TwoServices.cluster, .advance 0, .advance 0]

end LateTarget

open LateTarget in
/-- Two signals come to one item, and the target is found though it opts in only after them. -/
theorem changes_are_followed_late_target :
    ((start .empty).run (.subscribe service :: course)).subscribers[0]?.map
      (fun r => (r.items, r.requested)) = some (1, [[TwoServices.optedIn.ref]]) ∧
    ((start .empty).step (.subscribe service)).Delivers 0 0 [TwoServices.optedIn.ref] course := by
  have hw : service ∈ Controller.all := .tail _ (.tail _ (.head _))
  have hcourse : ((start .empty).run (.subscribe service :: course)).subscribers[0]?.map
      (fun r => (r.items, r.requested)) = some (1, [[TwoServices.optedIn.ref]]) := by
    decide +kernel
  obtain ⟨r, r', hr, hr', -, -, hfollowed⟩ :=
    changes_are_followed (b := start .empty) ⟨.empty, [], rfl⟩ rfl hw rfl [] course
  cases hr
  refine ⟨hcourse, hfollowed.delivers 0 _ (Nat.zero_le 0) ?_⟩
  have hlast : ((start .empty).run (.subscribe service :: course)).subscribers[0]? = some r' := hr'
  rw [hlast, Option.map_some, Option.some.injEq, Prod.mk.injEq] at hcourse
  rw [hcourse.2]
  rfl

end CaBroadcast
end Watch
end CertKeeper
