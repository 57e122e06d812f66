import CertKeeper.Watch.FanOut
import Mathlib.Data.List.Nodup

/-!
# Every subscriber is handed every change

The distributor waits for a subscriber whose queue is full and passes over one who has left. So what
a subscriber has been handed is at any time a first part of the changes of the watch, and one who
stays is handed all of them, each once, as long as those who stay read on.
-/

namespace CertKeeper.Watch

namespace Subscriber

variable {α : Type} (s : Subscriber α)

@[simp] theorem hasLeft_take : s.take.hasLeft = s.hasLeft := by
  rcases s with ⟨received, _ | ⟨a, rest⟩, hasLeft⟩ <;> rfl

@[simp] theorem hasLeft_push (a : α) : (s.push a).hasLeft = s.hasLeft := rfl

@[simp] theorem length_queue_take : s.take.queue.length = s.queue.length - 1 := by
  rcases s with ⟨received, _ | ⟨a, rest⟩, hasLeft⟩ <;> simp [take]

@[simp] theorem length_queue_push (a : α) : (s.push a).queue.length = s.queue.length + 1 := by
  simp [push]

end Subscriber

namespace FanOut

variable {α : Type} {f : FanOut α} {d : Delivery α} {total : List α} {n i j : Nat}
  {rest : List Nat} {steps : List Step}

@[simp] theorem subscriber_mapSubscriber_self (f : FanOut α) (i : Nat)
    (change : Subscriber α → Subscriber α) :
    (f.mapSubscriber i change).subscriber i = change (f.subscriber i) := by
  simp [mapSubscriber]

theorem subscriber_mapSubscriber_of_ne (h : j ≠ i) (change : Subscriber α → Subscriber α) :
    (f.mapSubscriber i change).subscriber j = f.subscriber j := by
  simp [mapSubscriber, h]

@[simp] theorem run_nil (f : FanOut α) : f.run [] = f := rfl

@[simp] theorem run_cons (f : FanOut α) (s : Step) (steps : List Step) :
    f.run (s :: steps) = (f.step s).run steps := rfl

theorem run_append (f : FanOut α) (steps steps' : List Step) :
    f.run (steps ++ steps') = (f.run steps).run steps' := List.foldl_append

theorem advance_of_delivery_eq_none (hd : f.delivery = none) : f.advance = f.takeItem := by
  simp only [advance, hd]

theorem advance_of_handed (hd : f.delivery = some d) (hpending : d.pending = []) :
    f.advance = f.finish d := by
  simp only [advance, hd, hpending]

theorem advance_of_left (hd : f.delivery = some d) (hpending : d.pending = i :: rest)
    (hleft : (f.subscriber i).hasLeft = true) :
    f.advance = { f with delivery := some ⟨d.change, rest, true⟩ } := by
  simp only [advance, hd, hpending, hand, hleft, if_true]

theorem advance_of_room (hd : f.delivery = some d) (hpending : d.pending = i :: rest)
    (hstays : (f.subscriber i).hasLeft = false)
    (hroom : (f.subscriber i).queue.length < f.capacity) :
    f.advance = { f.mapSubscriber i (·.push d.change) with
      delivery := some ⟨d.change, rest, d.metLeaver⟩ } := by
  simp only [advance, hd, hpending, hand, hstays, Bool.false_eq_true, if_false, hroom, if_true]

theorem advance_of_full (hd : f.delivery = some d) (hpending : d.pending = i :: rest)
    (hstays : (f.subscriber i).hasLeft = false)
    (hfull : ¬ (f.subscriber i).queue.length < f.capacity) : f.advance = f := by
  simp only [advance, hd, hpending, hand, hstays, Bool.false_eq_true, if_false, hfull]

theorem hasLeft_advance (f : FanOut α) (i : Nat) :
    (f.advance.subscriber i).hasLeft = (f.subscriber i).hasLeft := by
  cases hd : f.delivery with
  | none =>
    rw [advance_of_delivery_eq_none hd, takeItem]
    split <;> rfl
  | some d =>
    cases hpending : d.pending with
    | nil => rw [advance_of_handed hd hpending, finish]
    | cons j rest =>
      cases hleft : (f.subscriber j).hasLeft with
      | true => rw [advance_of_left hd hpending hleft]
      | false =>
        by_cases hroom : (f.subscriber j).queue.length < f.capacity
        · rw [advance_of_room hd hpending hleft hroom]
          by_cases hi : i = j
          · rw [hi, subscriber_mapSubscriber_self, Subscriber.hasLeft_push]
          · rw [subscriber_mapSubscriber_of_ne hi]
        · rw [advance_of_full hd hpending hleft hroom]

theorem hasLeft_run : ((f.run steps).subscriber i).hasLeft = true ↔
    (f.subscriber i).hasLeft = true ∨ .leave i ∈ steps := by
  induction steps generalizing f with
  | nil => simp
  | cons s steps ih =>
    rw [run_cons, ih, List.mem_cons, ← or_assoc]
    refine or_congr_left ?_
    cases s with
    | advance => simp [step, hasLeft_advance]
    | take j =>
      by_cases hj : i = j
      · simp [step, hj]
      · simp [step, subscriber_mapSubscriber_of_ne hj]
    | leave j =>
      by_cases hj : i = j
      · simp [step, hj, Subscriber.leave]
      · simp [step, subscriber_mapSubscriber_of_ne hj, hj]

@[simp] theorem changes_error (e : Error) (items : List (Except Error α)) :
    changes (.error e :: items) = changes items := rfl

@[simp] theorem changes_ok (a : α) (items : List (Except Error α)) :
    changes (.ok a :: items) = a :: changes items := rfl

/-- The changes that are still to be handed to the subscriber `i`. -/
def due (f : FanOut α) (i : Nat) : List α :=
  (f.delivery.elim [] fun d => if i ∈ d.pending then [d.change] else []) ++ changes f.items

theorem due_of_delivery_eq_none (hd : f.delivery = none) : f.due i = changes f.items := by
  simp [due, hd]

theorem due_of_mem (hd : f.delivery = some d) (hi : i ∈ d.pending) :
    f.due i = d.change :: changes f.items := by
  simp [due, hd, hi]

theorem due_of_notMem (hd : f.delivery = some d) (hi : i ∉ d.pending) :
    f.due i = changes f.items := by
  simp [due, hd, hi]

/-- Whether all has gone right for `n` subscribers who are to be handed the changes `total`. -/
structure Fair (total : List α) (n : Nat) (f : FanOut α) : Prop where
  served : f.served.Sublist (List.range n)
  pending : ∀ d, f.delivery = some d → d.pending.Sublist (List.range n)
  queue : ∀ i, (f.subscriber i).queue.length ≤ f.capacity
  seen : ∀ i, (f.subscriber i).seen <+: total
  stays : ∀ i < n, (f.subscriber i).hasLeft = false →
    i ∈ f.served ∧ (f.subscriber i).seen ++ f.due i = total

theorem fair_start (capacity n : Nat) (items : List (Except Error α)) :
    Fair (changes items) n (start capacity n items) where
  served := List.Sublist.refl _
  pending _ hd := by cases hd
  queue _ := Nat.zero_le _
  seen _ := List.nil_prefix
  stays i hi _ := ⟨List.mem_range.mpr hi, rfl⟩

/-- A subscriber may do with its queue and its place what it wants, as long as it loses nothing. -/
theorem Fair.mapSubscriber (hf : Fair total n f) (i : Nat) {change : Subscriber α → Subscriber α}
    (hseen : ∀ s, (change s).seen = s.seen)
    (hqueue : ∀ s, (change s).queue.length ≤ s.queue.length)
    (hleft : ∀ s, (change s).hasLeft = false → s.hasLeft = false) :
    Fair total n (f.mapSubscriber i change) where
  served := hf.served
  pending := hf.pending
  queue j := by
    by_cases hj : j = i
    · rw [hj, subscriber_mapSubscriber_self]
      exact Nat.le_trans (hqueue _) (hf.queue i)
    · rw [subscriber_mapSubscriber_of_ne hj]
      exact hf.queue j
  seen j := by
    by_cases hj : j = i
    · rw [hj, subscriber_mapSubscriber_self, hseen]
      exact hf.seen i
    · rw [subscriber_mapSubscriber_of_ne hj]
      exact hf.seen j
  stays j hjn hstays := by
    by_cases hj : j = i
    · subst hj
      rw [subscriber_mapSubscriber_self] at hstays ⊢
      rw [hseen]
      exact hf.stays j hjn (hleft _ hstays)
    · rw [subscriber_mapSubscriber_of_ne hj] at hstays ⊢
      exact hf.stays j hjn hstays

theorem Fair.takeItem (hf : Fair total n f) (hd : f.delivery = none) :
    Fair total n f.takeItem := by
  have hstays (i : Nat) (hi : i < n) (hleft : (f.subscriber i).hasLeft = false) :
      i ∈ f.served ∧ (f.subscriber i).seen ++ changes f.items = total := by
    have h := hf.stays i hi hleft
    rwa [due_of_delivery_eq_none hd] at h
  unfold FanOut.takeItem
  split
  · exact hf
  · rename_i e rest hitems
    rw [hitems] at hstays
    refine { hf with stays := fun i hi hleft => ?_ }
    rw [due_of_delivery_eq_none (f := { f with items := rest }) hd]
    exact hstays i hi hleft
  · rename_i a rest hitems
    rw [hitems] at hstays
    refine { hf with pending := fun d hd => ?_, stays := fun i hi hleft => ?_ }
    · cases hd
      exact hf.served
    · obtain ⟨hserved, htotal⟩ := hstays i hi hleft
      rw [due_of_mem rfl hserved]
      exact ⟨hserved, htotal⟩

theorem Fair.finish (hf : Fair total n f) (hd : f.delivery = some d) (hpending : d.pending = []) :
    Fair total n (f.finish d) where
  served := by
    show (if d.metLeaver then _ else f.served).Sublist _
    split
    · exact List.filter_sublist.trans hf.served
    · exact hf.served
  pending _ hd := by cases hd
  queue := hf.queue
  seen := hf.seen
  stays i hi hleft := by
    obtain ⟨hserved, htotal⟩ := hf.stays i hi hleft
    rw [due_of_notMem hd (hpending ▸ List.not_mem_nil)] at htotal
    refine ⟨?_, htotal⟩
    show i ∈ if d.metLeaver then f.served.filter fun i => !(f.subscriber i).hasLeft else f.served
    split
    · exact List.mem_filter.mpr ⟨hserved, by simpa [FanOut.finish] using hleft⟩
    · exact hserved

theorem Fair.passOver (hf : Fair total n f) (hd : f.delivery = some d)
    (hpending : d.pending = i :: rest) (hleft : (f.subscriber i).hasLeft = true) :
    Fair total n { f with delivery := some ⟨d.change, rest, true⟩ } where
  served := hf.served
  pending d' hd' := by
    cases hd'
    have h := hf.pending d hd
    rw [hpending] at h
    exact (List.sublist_cons_self i rest).trans h
  queue := hf.queue
  seen := hf.seen
  stays j hj hstays := by
    obtain ⟨hserved, htotal⟩ := hf.stays j hj hstays
    refine ⟨hserved, ?_⟩
    have hne : j ≠ i := by
      rintro rfl
      rw [hleft] at hstays
      cases hstays
    have hmem : j ∈ d.pending ↔ j ∈ rest := by simp [hpending, hne]
    rw [← htotal]
    simp only [due, hd, hmem, Option.elim_some]

theorem Fair.handOver (hf : Fair total n f) (hd : f.delivery = some d)
    (hpending : d.pending = i :: rest) (hstays : (f.subscriber i).hasLeft = false)
    (hroom : (f.subscriber i).queue.length < f.capacity) :
    Fair total n { f.mapSubscriber i (·.push d.change) with
      delivery := some ⟨d.change, rest, d.metLeaver⟩ } := by
  have hsublist := hf.pending d hd
  rw [hpending] at hsublist
  have hi : i < n := List.mem_range.mp (hsublist.subset List.mem_cons_self)
  -- nobody is handed a change twice
  have hnodup : i ∉ rest := (List.nodup_cons.mp (hsublist.nodup List.nodup_range)).1
  obtain ⟨hserved, htotal⟩ := hf.stays i hi hstays
  rw [due_of_mem hd (hpending ▸ List.mem_cons_self)] at htotal
  have hseen : (f.subscriber i).seen ++ [d.change] ++ changes f.items = total := by
    rw [List.append_assoc]
    exact htotal
  refine ⟨hf.served, fun d' hd' => ?_, fun j => ?_, fun j => ?_, fun j hj hleft => ?_⟩
  · cases hd'
    exact (List.sublist_cons_self i rest).trans hsublist
  · show ((f.mapSubscriber i (·.push d.change)).subscriber j).queue.length ≤ f.capacity
    by_cases hj : j = i
    · rw [hj, subscriber_mapSubscriber_self, Subscriber.length_queue_push]
      exact hroom
    · rw [subscriber_mapSubscriber_of_ne hj]
      exact hf.queue j
  · show ((f.mapSubscriber i (·.push d.change)).subscriber j).seen <+: total
    by_cases hj : j = i
    · rw [hj, subscriber_mapSubscriber_self, Subscriber.seen_push]
      exact ⟨_, hseen⟩
    · rw [subscriber_mapSubscriber_of_ne hj]
      exact hf.seen j
  · show j ∈ f.served ∧ ((f.mapSubscriber i (·.push d.change)).subscriber j).seen ++ _ = total
    have hleft : ((f.mapSubscriber i (·.push d.change)).subscriber j).hasLeft = false := hleft
    by_cases hji : j = i
    · subst hji
      rw [subscriber_mapSubscriber_self, Subscriber.seen_push, due_of_notMem rfl hnodup]
      exact ⟨hserved, hseen⟩
    · rw [subscriber_mapSubscriber_of_ne hji] at hleft ⊢
      obtain ⟨hserved, htotal⟩ := hf.stays j hj hleft
      have hmem : j ∈ d.pending ↔ j ∈ rest := by simp [hpending, hji]
      refine ⟨hserved, ?_⟩
      rw [← htotal]
      simp only [due, hd, hmem, Option.elim_some, FanOut.mapSubscriber]

theorem Fair.advance (hf : Fair total n f) : Fair total n f.advance := by
  cases hd : f.delivery with
  | none =>
    rw [advance_of_delivery_eq_none hd]
    exact hf.takeItem hd
  | some d =>
    cases hpending : d.pending with
    | nil =>
      rw [advance_of_handed hd hpending]
      exact hf.finish hd hpending
    | cons i rest =>
      cases hleft : (f.subscriber i).hasLeft with
      | true =>
        rw [advance_of_left hd hpending hleft]
        exact hf.passOver hd hpending hleft
      | false =>
        by_cases hroom : (f.subscriber i).queue.length < f.capacity
        · rw [advance_of_room hd hpending hleft hroom]
          exact hf.handOver hd hpending hleft hroom
        · rwa [advance_of_full hd hpending hleft hroom]

theorem Fair.step (hf : Fair total n f) (s : Step) : Fair total n (f.step s) := by
  cases s with
  | advance => exact hf.advance
  | take i =>
    refine hf.mapSubscriber i Subscriber.seen_take (fun s => ?_) (fun s hs => ?_)
    · rw [Subscriber.length_queue_take]
      exact Nat.sub_le _ _
    · rwa [Subscriber.hasLeft_take] at hs
  | leave i =>
    exact hf.mapSubscriber i Subscriber.seen_leave (fun _ => Nat.le_refl _) fun _ hs => by cases hs

theorem Fair.run (hf : Fair total n f) (steps : List Step) : Fair total n (f.run steps) := by
  induction steps generalizing f with
  | nil => exact hf
  | cons s steps ih => exact ih (hf.step s)

theorem hasEnded_iff : f.hasEnded = true ↔ f.items = [] ∧ f.delivery = none := by
  simp [hasEnded]

theorem Fair.seen_eq (hf : Fair total n f) (hended : f.hasEnded = true) (hi : i < n)
    (hstays : (f.subscriber i).hasLeft = false) : (f.subscriber i).seen = total := by
  obtain ⟨hitems, hd⟩ := hasEnded_iff.mp hended
  obtain ⟨-, htotal⟩ := hf.stays i hi hstays
  rw [due_of_delivery_eq_none hd, hitems] at htotal
  rw [← htotal]
  exact (List.append_nil _).symm

theorem capacity_advance (f : FanOut α) : f.advance.capacity = f.capacity := by
  cases hd : f.delivery with
  | none =>
    rw [advance_of_delivery_eq_none hd, takeItem]
    split <;> rfl
  | some d =>
    cases hpending : d.pending with
    | nil => rw [advance_of_handed hd hpending, finish]
    | cons i rest =>
      simp only [advance, hd, hpending, hand]
      split
      · rfl
      · split <;> rfl

@[simp] theorem capacity_run (f : FanOut α) (steps : List Step) :
    (f.run steps).capacity = f.capacity := by
  induction steps generalizing f with
  | nil => rfl
  | cons s steps ih =>
    rw [run_cons, ih]
    cases s with
    | advance => exact capacity_advance f
    | take i | leave i => rfl

/-- Whether `f'` is what has come of `f` when the subscriber `i` had its turn. -/
structure Served (f : FanOut α) (d : Delivery α) (i : Nat) (rest : List Nat) (f' : FanOut α) :
    Prop where
  items : f'.items = f.items
  served : f'.served = f.served
  subscriber : ∀ j, j ≠ i → f'.subscriber j = f.subscriber j
  delivery : ∃ metLeaver, f'.delivery = some ⟨d.change, rest, metLeaver⟩

theorem served_of_take (hcap : 0 < f.capacity)
    (hqueue : (f.subscriber i).queue.length ≤ f.capacity) (hd : f.delivery = some d)
    (hpending : d.pending = i :: rest) : Served f d i rest (f.run [.take i, .advance]) := by
  let taken := f.mapSubscriber i .take
  have hd' : taken.delivery = some d := hd
  show Served f d i rest taken.advance
  cases hleft : (taken.subscriber i).hasLeft with
  | true =>
    rw [advance_of_left hd' hpending hleft]
    exact ⟨rfl, rfl, fun j hj => subscriber_mapSubscriber_of_ne hj _, _, rfl⟩
  | false =>
    have hroom : (taken.subscriber i).queue.length < taken.capacity := by
      show ((f.mapSubscriber i .take).subscriber i).queue.length < f.capacity
      rw [subscriber_mapSubscriber_self, Subscriber.length_queue_take]
      omega
    rw [advance_of_room hd' hpending hleft hroom]
    refine ⟨rfl, rfl, fun j hj => ?_, _, rfl⟩
    show (taken.mapSubscriber i (·.push d.change)).subscriber j = f.subscriber j
    rw [subscriber_mapSubscriber_of_ne hj, subscriber_mapSubscriber_of_ne hj]

theorem Fair.exists_handed (hf : Fair total n f) (hcap : 0 < f.capacity)
    (hd : f.delivery = some d) : ∃ more, (∀ j, .leave j ∉ more) ∧
      (f.run more).delivery = none ∧ (f.run more).items = f.items := by
  -- one round is as long as the list of those who still wait for their turn
  induction hpending : d.pending generalizing f d with
  | nil =>
    refine ⟨[.advance], by simp, ?_⟩
    show f.advance.delivery = none ∧ f.advance.items = f.items
    rw [advance_of_handed hd hpending]
    exact ⟨rfl, rfl⟩
  | cons i rest ih =>
    have hserved := served_of_take hcap (hf.queue i) hd hpending
    obtain ⟨metLeaver, hd'⟩ := hserved.delivery
    obtain ⟨more, hmore, hnone, hitems⟩ := ih (hf.run [.take i, .advance])
      (by rwa [capacity_run]) hd' rfl
    refine ⟨[.take i, .advance] ++ more, by simpa using hmore, ?_⟩
    rw [run_append]
    exact ⟨hnone, hitems.trans hserved.items⟩

theorem Fair.exists_ended_of_none (hf : Fair total n f) (hcap : 0 < f.capacity)
    (hd : f.delivery = none) :
    ∃ more, (∀ j, .leave j ∉ more) ∧ (f.run more).hasEnded = true := by
  induction hitems : f.items generalizing f with
  | nil => exact ⟨[], by simp, hasEnded_iff.mpr ⟨hitems, hd⟩⟩
  | cons item items ih =>
    have hadvance : f.step .advance = f.takeItem := advance_of_delivery_eq_none hd
    have hf' := hf.step .advance
    rw [hadvance] at hf'
    cases item with
    | error e =>
      have htaken : f.takeItem = { f with items } := by simp only [FanOut.takeItem, hitems]
      rw [htaken] at hf' hadvance
      obtain ⟨more, hmore, hended⟩ := ih hf' hcap hd rfl
      refine ⟨.advance :: more, by simpa using hmore, ?_⟩
      rwa [run_cons, hadvance]
    | ok a =>
      have htaken : f.takeItem = { f with items, delivery := some ⟨a, f.served, false⟩ } := by
        simp only [FanOut.takeItem, hitems]
      rw [htaken] at hf' hadvance
      obtain ⟨round, hround, hnone, hitems'⟩ := hf'.exists_handed hcap rfl
      obtain ⟨more, hmore, hended⟩ := ih (hf'.run round) (by rwa [capacity_run]) hnone hitems'
      refine ⟨.advance :: (round ++ more), ?_, ?_⟩
      · intro j hj
        rw [List.mem_cons, List.mem_append] at hj
        rcases hj with hj | hj | hj
        · cases hj
        · exact hround j hj
        · exact hmore j hj
      · rwa [run_cons, hadvance, run_append]

/-- If those who stay go on reading, the distributor comes to its end. -/
theorem Fair.exists_ended (hf : Fair total n f) (hcap : 0 < f.capacity) :
    ∃ more, (∀ j, .leave j ∉ more) ∧ (f.run more).hasEnded = true := by
  cases hd : f.delivery with
  | none => exact hf.exists_ended_of_none hcap hd
  | some d =>
    obtain ⟨round, hround, hnone, -⟩ := hf.exists_handed hcap hd
    obtain ⟨more, hmore, hended⟩ :=
      (hf.run round).exists_ended_of_none (by rwa [capacity_run]) hnone
    refine ⟨round ++ more, fun j hj => ?_, by rwa [run_append]⟩
    rcases List.mem_append.mp hj with hj | hj
    · exact hround j hj
    · exact hmore j hj

end FanOut
end CertKeeper.Watch
