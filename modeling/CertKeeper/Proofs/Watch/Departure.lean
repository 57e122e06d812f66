import CertKeeper.Proofs.Watch.Distribution

/-!
# Subscribers who leave

One who leaves takes nothing from the others: the same happens to them in a run in which it stays
and reads on. The two runs are kept beside each other. Where the distributor passes over the one who
has left, the other run lets it make room for the change and be handed it.
-/

namespace CertKeeper.Watch.FanOut

variable {α : Type} {f g : FanOut α} {d e : Delivery α} {total : List α} {n i j : Nat}
  {rest : List Nat}

def serves (f : FanOut α) (j : Nat) : Bool := !(f.subscriber j).hasLeft

def ofOthers (i : Nat) (steps : List Step) : List Step :=
  steps.filter fun
    | .advance => false
    | .take j | .leave j => j ≠ i

theorem ofOthers_append (i : Nat) (steps steps' : List Step) :
    ofOthers i (steps ++ steps') = ofOthers i steps ++ ofOthers i steps' :=
  List.filter_append ..

/-- Whether two deliveries of one change have the same turns to come, as far as `p` holds of the
subscribers. -/
def SameTurns (p : Nat → Bool) (d e : Delivery α) : Prop :=
  e.change = d.change ∧ e.pending.filter p = d.pending.filter p

/-- Whether `g`, where the subscriber `i` has stayed, is beside `f`, where it has left. Both are at
the same change, and apart from those who have left in `f` the same subscribers wait for it. -/
structure Beside (i : Nat) (f g : FanOut α) : Prop where
  left : (f.subscriber i).hasLeft = true
  stays : (g.subscriber i).hasLeft = false
  capacity : g.capacity = f.capacity
  items : g.items = f.items
  subscriber : ∀ j, j ≠ i → g.subscriber j = f.subscriber j
  served : g.served.filter f.serves = f.served.filter f.serves
  delivery : Option.Rel (SameTurns f.serves) f.delivery g.delivery

theorem Beside.exists_delivery (hb : Beside i f g) (hd : f.delivery = some d) :
    ∃ e, g.delivery = some e ∧ SameTurns f.serves d e := by
  have hrel := hb.delivery
  rw [hd] at hrel
  cases he : g.delivery with
  | none => cases he ▸ hrel
  | some e => exact ⟨e, rfl, Option.rel_some_some.mp (he ▸ hrel)⟩

theorem Beside.exists_delivery_left (hb : Beside i f g) (he : g.delivery = some e) :
    ∃ d, f.delivery = some d ∧ SameTurns f.serves d e := by
  have hrel := hb.delivery
  rw [he] at hrel
  cases hd : f.delivery with
  | none => cases hd ▸ hrel
  | some d => exact ⟨d, rfl, Option.rel_some_some.mp (hd ▸ hrel)⟩

theorem Beside.delivery_eq_none (hb : Beside i f g) : g.delivery = none ↔ f.delivery = none := by
  rw [Option.eq_none_iff_forall_ne_some, Option.eq_none_iff_forall_ne_some]
  refine ⟨fun hnone d hd => ?_, fun hnone e he => ?_⟩
  · obtain ⟨e, he, -⟩ := hb.exists_delivery hd
    exact hnone e he
  · obtain ⟨d, hd, -⟩ := hb.exists_delivery_left he
    exact hnone d hd

theorem serves_eq_true : f.serves j = true ↔ (f.subscriber j).hasLeft = false := by
  simp [serves]

theorem serves_eq_false : f.serves j = false ↔ (f.subscriber j).hasLeft = true := by
  simp [serves]

theorem filter_congr_of_imp {p q : Nat → Bool} (himp : ∀ j, q j = true → p j = true)
    {l l' : List Nat} (h : l.filter p = l'.filter p) : l.filter q = l'.filter q := by
  have hfilter (l : List Nat) : (l.filter p).filter q = l.filter q := by
    rw [List.filter_filter]
    refine List.filter_congr fun j _ => ?_
    cases hq : q j with
    | false => rfl
    | true => rw [himp j hq, Bool.true_and]
  rw [← hfilter l, h, hfilter]

theorem beside_leave (hstays : (f.subscriber i).hasLeft = false) :
    Beside i (f.step (.leave i)) f where
  left := by simp [step, Subscriber.leave]
  stays := hstays
  capacity := rfl
  items := rfl
  subscriber j hj := (subscriber_mapSubscriber_of_ne hj _).symm
  served := rfl
  delivery := by
    show Option.Rel _ f.delivery f.delivery
    cases f.delivery with
    | none => exact .none
    | some d => exact .some ⟨rfl, rfl⟩

theorem Beside.map_self (hb : Beside i f g) {change : Subscriber α → Subscriber α}
    (hchange : ∀ s, s.hasLeft = true → (change s).hasLeft = true) :
    Beside i (f.mapSubscriber i change) g := by
  have hleft : ((f.mapSubscriber i change).subscriber i).hasLeft = true := by
    rw [subscriber_mapSubscriber_self]
    exact hchange _ hb.left
  have hserves : (f.mapSubscriber i change).serves = f.serves := by
    funext j
    by_cases hj : j = i
    · rw [hj, serves_eq_false.mpr hleft, serves_eq_false.mpr hb.left]
    · rw [serves, subscriber_mapSubscriber_of_ne hj, serves]
  refine ⟨hleft, hb.stays, hb.capacity, hb.items, fun j hj => ?_, ?_, ?_⟩
  · rw [subscriber_mapSubscriber_of_ne hj, hb.subscriber j hj]
  · rw [hserves]
    exact hb.served
  · rw [hserves]
    exact hb.delivery

theorem Beside.map_other (hb : Beside i f g) (hj : j ≠ i)
    {change : Subscriber α → Subscriber α}
    (hchange : ∀ s, (change s).hasLeft = false → s.hasLeft = false) :
    Beside i (f.mapSubscriber j change) (g.mapSubscriber j change) := by
  have hserves (k : Nat) (hk : (f.mapSubscriber j change).serves k = true) :
      f.serves k = true := by
    rw [serves_eq_true] at hk ⊢
    by_cases hkj : k = j
    · rw [hkj, subscriber_mapSubscriber_self] at hk
      exact hkj ▸ hchange _ hk
    · rwa [subscriber_mapSubscriber_of_ne hkj] at hk
  refine ⟨?_, ?_, hb.capacity, hb.items, fun k hk => ?_, ?_, ?_⟩
  · rw [subscriber_mapSubscriber_of_ne hj.symm]
    exact hb.left
  · rw [subscriber_mapSubscriber_of_ne hj.symm]
    exact hb.stays
  · by_cases hkj : k = j
    · rw [hkj, subscriber_mapSubscriber_self, subscriber_mapSubscriber_self, hb.subscriber j hj]
    · rw [subscriber_mapSubscriber_of_ne hkj, subscriber_mapSubscriber_of_ne hkj,
        hb.subscriber k hk]
  · exact filter_congr_of_imp hserves hb.served
  · show Option.Rel _ f.delivery g.delivery
    cases hd : f.delivery with
    | none =>
      rw [hb.delivery_eq_none.mpr hd]
      exact .none
    | some d =>
      obtain ⟨e, he, hchange, hpending⟩ := hb.exists_delivery hd
      rw [he]
      exact .some ⟨hchange, filter_congr_of_imp hserves hpending⟩

theorem Beside.passed_over (hb : Beside i f g) (hd : f.delivery = some d)
    (hpending : d.pending = j :: rest) (hj : f.serves j = false) : Beside i f.advance g := by
  rw [advance_of_left hd hpending (serves_eq_false.mp hj)]
  obtain ⟨e, he, hchange, hturns⟩ := hb.exists_delivery hd
  rw [hpending, List.filter_cons_of_neg (by simp [hj])] at hturns
  exact { hb with delivery := he ▸ .some ⟨hchange, hturns⟩ }

/-- Where the subscriber `i` stays, the turn of one who has left in its absence is passed as well.
The subscriber itself makes room for what it is handed. -/
theorem Beside.exists_pass (hb : Beside i f g) (hg : Fair total n g) (hcap : 0 < g.capacity)
    (he : g.delivery = some e) (hpending : e.pending = j :: rest) (hj : f.serves j = false) :
    ∃ steps, ofOthers i steps = [] ∧ .leave i ∉ steps ∧ Beside i f (g.run steps) ∧
      ∃ metLeaver, (g.run steps).delivery = some ⟨e.change, rest, metLeaver⟩ := by
  obtain ⟨d, hd, hchange, hturns⟩ := hb.exists_delivery_left he
  rw [hpending, List.filter_cons_of_neg (by simp [hj])] at hturns
  have hdelivery (metLeaver : Bool) :
      Option.Rel (SameTurns f.serves) f.delivery (some ⟨e.change, rest, metLeaver⟩) :=
    hd ▸ .some ⟨hchange, hturns⟩
  by_cases hji : j = i
  · subst hji
    have hserved := served_of_take hcap (hg.queue j) he hpending
    obtain ⟨metLeaver, he'⟩ := hserved.delivery
    refine ⟨[.take j, .advance], by simp [ofOthers], by simp, ?_, metLeaver, he'⟩
    have hstays : ((g.run [.take j, .advance]).subscriber j).hasLeft = false := by
      rw [← Bool.not_eq_true, hasLeft_run]
      simp [hb.stays]
    exact {
      left := hb.left
      stays := hstays
      capacity := (capacity_run ..).trans hb.capacity
      items := hserved.items.trans hb.items
      subscriber := fun k hk => (hserved.subscriber k hk).trans (hb.subscriber k hk)
      served := by rw [hserved.served, hb.served]
      delivery := he' ▸ hdelivery metLeaver }
  · have hleft : (g.subscriber j).hasLeft = true := by
      rw [hb.subscriber j hji]
      exact serves_eq_false.mp hj
    refine ⟨[.advance], by simp [ofOthers], by simp, ?_⟩
    show Beside i f g.advance ∧ ∃ metLeaver, g.advance.delivery = some ⟨e.change, rest, metLeaver⟩
    rw [advance_of_left he hpending hleft]
    exact ⟨{ hb with delivery := hdelivery true }, true, rfl⟩

theorem Beside.exists_skip (hb : Beside i f g) (hg : Fair total n g) (hcap : 0 < g.capacity)
    (he : g.delivery = some e) :
    ∃ steps e', ofOthers i steps = [] ∧ .leave i ∉ steps ∧ Beside i f (g.run steps) ∧
      (g.run steps).delivery = some e' ∧
        ∀ j rest, e'.pending = j :: rest → f.serves j = true := by
  induction hpending : e.pending generalizing g e with
  | nil => exact ⟨[], e, rfl, by simp, hb, he, by simp [hpending]⟩
  | cons j rest ih =>
    cases hj : f.serves j with
    | true =>
      refine ⟨[], e, rfl, by simp, hb, he, fun k rest' hk => ?_⟩
      cases hpending.symm.trans hk
      exact hj
    | false =>
      obtain ⟨pass, hothers, hstays, hb', metLeaver, he'⟩ :=
        hb.exists_pass hg hcap he hpending hj
      obtain ⟨skip, e'', hothers', hstays', hb'', he'', hhead⟩ :=
        ih hb' (hg.run pass) (by rwa [capacity_run]) he' rfl
      refine ⟨pass ++ skip, e'', ?_, ?_, ?_, ?_, hhead⟩
      · rw [ofOthers_append, hothers, hothers', List.append_nil]
      · simp [hstays, hstays']
      · rwa [run_append]
      · rwa [run_append]

theorem Beside.takeItem (hb : Beside i f g) :
    Beside i f.takeItem g.takeItem := by
  have hitems := hb.items
  unfold FanOut.takeItem
  rw [hitems]
  split
  · exact hb
  · exact { hb with items := rfl }
  · refine { hb with items := rfl, delivery := .some ⟨rfl, hb.served⟩ }

theorem filter_serves_served_finish (hserves : ∀ j, f.serves j = true → g.serves j = true) :
    (g.finish e).served.filter f.serves = g.served.filter f.serves := by
  show (if e.metLeaver then g.served.filter g.serves else g.served).filter f.serves = _
  split
  · rw [List.filter_filter]
    refine List.filter_congr fun j _ => ?_
    cases hj : f.serves j with
    | false => rfl
    | true => rw [hserves j hj, Bool.and_self]
  · rfl

theorem Beside.serves (hb : Beside i f g) (hj : f.serves j = true) : g.serves j = true := by
  rw [serves_eq_true] at hj ⊢
  by_cases hji : j = i
  · rw [hji, hb.left] at hj
    cases hj
  · rwa [hb.subscriber j hji]

theorem Beside.finish (hb : Beside i f g) (d e : Delivery α) :
    Beside i (f.finish d) (g.finish e) where
  left := hb.left
  stays := hb.stays
  capacity := hb.capacity
  items := hb.items
  subscriber := hb.subscriber
  served := by
    have hf := filter_serves_served_finish (f := f) (g := f) (e := d) fun _ => id
    have hg := filter_serves_served_finish (f := f) (e := e) fun _ => hb.serves
    exact hg.trans (hb.served.trans hf.symm)
  delivery := .none

theorem Beside.hand (hb : Beside i f g) (hd : f.delivery = some d) (he : g.delivery = some e)
    (hchange : e.change = d.change) {rest' : List Nat} (hpending : d.pending = j :: rest)
    (hpending' : e.pending = j :: rest')
    (hrest : rest'.filter f.serves = rest.filter f.serves) (hj : f.serves j = true) :
    Beside i f.advance g.advance := by
  have hji : j ≠ i := by
    rintro rfl
    rw [serves_eq_true, hb.left] at hj
    cases hj
  have hstays := serves_eq_true.mp hj
  have hstays' : (g.subscriber j).hasLeft = false := by rwa [hb.subscriber j hji]
  by_cases hroom : (f.subscriber j).queue.length < f.capacity
  · have hroom' : (g.subscriber j).queue.length < g.capacity := by
      rwa [hb.subscriber j hji, hb.capacity]
    rw [advance_of_room hd hpending hstays hroom, advance_of_room he hpending' hstays' hroom',
      hchange]
    have hmap : Beside i (f.mapSubscriber j (·.push d.change))
        (g.mapSubscriber j (·.push d.change)) := hb.map_other hji fun _ => id
    have hserves (k : Nat) (hk : (f.mapSubscriber j (·.push d.change)).serves k = true) :
        f.serves k = true := by
      rw [serves_eq_true] at hk ⊢
      by_cases hkj : k = j
      · rw [hkj]
        exact hstays
      · rwa [subscriber_mapSubscriber_of_ne hkj] at hk
    exact { hmap with delivery := .some ⟨rfl, filter_congr_of_imp hserves hrest⟩ }
  · have hroom' : ¬ (g.subscriber j).queue.length < g.capacity := by
      rwa [hb.subscriber j hji, hb.capacity]
    rwa [advance_of_full hd hpending hstays hroom, advance_of_full he hpending' hstays' hroom']

/-- Beside every move of the distributor there are moves of it, and of the subscriber that stays,
which lead to the same place. -/
theorem Beside.exists_advance (hb : Beside i f g) (hg : Fair total n g) (hcap : 0 < g.capacity) :
    ∃ steps, ofOthers i steps = [] ∧ .leave i ∉ steps ∧ Beside i f.advance (g.run steps) := by
  cases hd : f.delivery with
  | none =>
    refine ⟨[.advance], by simp [ofOthers], by simp, ?_⟩
    show Beside i f.advance g.advance
    rw [advance_of_delivery_eq_none hd, advance_of_delivery_eq_none (hb.delivery_eq_none.mpr hd)]
    exact hb.takeItem
  | some d =>
    obtain ⟨e₀, he₀, -⟩ := hb.exists_delivery hd
    obtain ⟨skip, e, hothers, hstays, hb', he, hhead⟩ := hb.exists_skip hg hcap he₀
    obtain ⟨e', he', hchange, hturns⟩ := hb'.exists_delivery hd
    cases he.symm.trans he'
    have hskip : ofOthers i (skip ++ [.advance]) = [] ∧ .leave i ∉ skip ++ [.advance] := by
      rw [ofOthers_append, hothers]
      exact ⟨by simp [ofOthers], by simp [hstays]⟩
    have hrun : (g.run skip).advance = g.run (skip ++ [.advance]) := by
      rw [run_append]
      rfl
    cases hpending : d.pending with
    | nil =>
      have hnil : e.pending = [] := by
        rw [hpending] at hturns
        cases hq : e.pending with
        | nil => rfl
        | cons j rest =>
          rw [hq, List.filter_cons_of_pos (hhead j rest hq)] at hturns
          cases hturns
      refine ⟨_, hskip.1, hskip.2, ?_⟩
      rw [← hrun, advance_of_handed hd hpending, advance_of_handed he hnil]
      exact hb'.finish d e
    | cons j rest =>
      cases hj : f.serves j with
      | false => exact ⟨skip, hothers, hstays, hb'.passed_over hd hpending hj⟩
      | true =>
        rw [hpending, List.filter_cons_of_pos hj] at hturns
        cases hq : e.pending with
        | nil =>
          rw [hq] at hturns
          cases hturns
        | cons k rest' =>
          rw [hq, List.filter_cons_of_pos (hhead k rest' hq)] at hturns
          obtain ⟨rfl, hrest⟩ := List.cons.inj hturns
          refine ⟨_, hskip.1, hskip.2, ?_⟩
          rw [← hrun]
          exact hb'.hand hd he hchange hpending hq hrest hj

theorem Beside.exists_step (hb : Beside i f g) (hg : Fair total n g) (hcap : 0 < g.capacity)
    (s : Step) : ∃ steps, ofOthers i steps = ofOthers i [s] ∧ .leave i ∉ steps ∧
      Beside i (f.step s) (g.run steps) := by
  cases s with
  | advance => exact hb.exists_advance hg hcap
  | take j =>
    by_cases hj : j = i
    · subst hj
      refine ⟨[], by simp [ofOthers], by simp, hb.map_self fun s hs => ?_⟩
      rwa [Subscriber.hasLeft_take]
    · refine ⟨[.take j], rfl, by simp, hb.map_other hj fun s hs => ?_⟩
      rwa [Subscriber.hasLeft_take] at hs
  | leave j =>
    by_cases hj : j = i
    · subst hj
      exact ⟨[], by simp [ofOthers], by simp, hb.map_self fun s _ => rfl⟩
    · exact ⟨[.leave j], rfl, by simpa using Ne.symm hj, hb.map_other hj fun s hs => by cases hs⟩

theorem Beside.exists_run (hb : Beside i f g) (hg : Fair total n g) (hcap : 0 < g.capacity)
    (steps : List Step) : ∃ steps', ofOthers i steps' = ofOthers i steps ∧ .leave i ∉ steps' ∧
      Beside i (f.run steps) (g.run steps') := by
  induction steps generalizing f g with
  | nil => exact ⟨[], rfl, by simp, hb⟩
  | cons s steps ih =>
    obtain ⟨first, hothers, hstays, hb'⟩ := hb.exists_step hg hcap s
    obtain ⟨more, hothers', hstays', hb''⟩ := ih hb' (hg.run first) (by rwa [capacity_run])
    refine ⟨first ++ more, ?_, by simp [hstays, hstays'], by rwa [run_cons, run_append]⟩
    rw [ofOthers_append, hothers, hothers', ← ofOthers_append, List.singleton_append]

theorem Beside.hasEnded (hb : Beside i f g) : g.hasEnded = f.hasEnded := by
  rw [Bool.eq_iff_iff, hasEnded_iff, hasEnded_iff, hb.items, hb.delivery_eq_none]

/-- One who leaves takes nothing from the others: it might as well have stayed and read on. -/
theorem Fair.exists_stays (hf : Fair total n f) (hcap : 0 < f.capacity)
    (hstays : (f.subscriber i).hasLeft = false) (steps : List Step) :
    ∃ steps', .leave i ∉ steps' ∧ ofOthers i steps' = ofOthers i steps ∧
      (f.run steps').hasEnded = (f.run steps).hasEnded ∧
      ∀ j, j ≠ i → (f.run steps').subscriber j = (f.run steps).subscriber j := by
  by_cases hleave : .leave i ∈ steps
  · obtain ⟨before, after, rfl, hbefore⟩ := List.eq_append_cons_of_mem hleave
    have hstill : ((f.run before).subscriber i).hasLeft = false := by
      rw [← Bool.not_eq_true, hasLeft_run]
      simp [hstays, hbefore]
    obtain ⟨after', hothers, hafter, hb⟩ :=
      (beside_leave hstill).exists_run (hf.run before) (by rwa [capacity_run]) after
    rw [run_append, run_cons]
    refine ⟨before ++ after', by simp [hbefore, hafter], ?_, ?_, fun j hj => ?_⟩
    · rw [ofOthers_append, ofOthers_append, hothers]
      simp [ofOthers]
    · rw [run_append, hb.hasEnded]
    · rw [run_append, hb.subscriber j hj]
  · exact ⟨steps, hleave, rfl, rfl, fun _ _ => rfl⟩

/-- Each of `n` subscribers is at any time handed a first part of the changes of the watch, and its
queue holds no more than it may. Who has not left when the distributor is done was handed all of
them, and the distributor can always be brought to its end. One who leaves makes no difference to
the others: what they do and are handed is the same in a run in which it stays. -/
theorem handed_changes_in_order (capacity n : Nat) (hcap : 0 < capacity)
    (items : List (Except Error α)) (steps : List Step) (i : Nat) (hi : i < n) :
    let f := (start capacity n items).run steps
    (f.subscriber i).seen <+: changes items ∧
    (f.subscriber i).queue.length ≤ capacity ∧
    (f.hasEnded = true → .leave i ∉ steps → (f.subscriber i).seen = changes items) ∧
    (∃ more, (∀ j, .leave j ∉ more) ∧ (f.run more).hasEnded = true) ∧
    ∃ steps', .leave i ∉ steps' ∧ ofOthers i steps' = ofOthers i steps ∧
      ((start capacity n items).run steps').hasEnded = f.hasEnded ∧
      ∀ j, j ≠ i → ((start capacity n items).run steps').subscriber j = f.subscriber j := by
  intro f
  have hstart := fair_start capacity n items
  have hf : Fair (changes items) n f := hstart.run steps
  have hcapacity : f.capacity = capacity := capacity_run _ steps
  refine ⟨hf.seen i, hcapacity ▸ hf.queue i, fun hended hstays => ?_, ?_, ?_⟩
  · have hstill : (f.subscriber i).hasLeft = false := by
      rw [← Bool.not_eq_true, hasLeft_run]
      simp [start, Subscriber.start, hstays]
    exact hf.seen_eq hended hi hstill
  · exact hf.exists_ended (hcapacity ▸ hcap)
  · exact hstart.exists_stays hcap rfl steps

/-- The second of two subscribers leaves before its turn comes, and the second change has to wait
until the first subscriber makes room for it. -/
theorem handed_changes_in_order_one_of_two_left :
    let items : List (Except Error Nat) := [.ok 1, .error .noResourceVersion, .ok 2]
    let steps : List Step := [.advance, .advance, .leave 1, .advance, .advance, .advance, .advance,
      .advance, .take 0, .advance, .advance]
    ((start 1 2 items).run steps).hasEnded = true ∧
      (((start 1 2 items).run steps).subscriber 0).seen = [1, 2] ∧
      ∃ steps', .leave 1 ∉ steps' ∧
        (((start 1 2 items).run steps').subscriber 0).seen = [1, 2] := by
  intro items steps
  have hchanges : changes items = [1, 2] := rfl
  have hended : ((start 1 2 items).run steps).hasEnded = true := by decide +kernel
  obtain ⟨-, -, hseen, -, -⟩ := handed_changes_in_order 1 2 (by decide) items steps 0 (by decide)
  obtain ⟨-, -, -, -, steps', hstays, -, -, hsame⟩ :=
    handed_changes_in_order 1 2 (by decide) items steps 1 (by decide)
  have hfirst := hchanges ▸ hseen hended (by decide)
  refine ⟨hended, hfirst, steps', hstays, ?_⟩
  rw [hsame 0 (by decide)]
  exact hfirst

end CertKeeper.Watch.FanOut
