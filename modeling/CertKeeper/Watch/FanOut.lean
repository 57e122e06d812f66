import CertKeeper.Watch.Event

/-!
# One watch for many subscribers

Everybody who reacts to secrets listens to one watch of them. A distributor takes its items one after
the other and hands each change to one subscriber after the other. The queue of a subscriber holds a
limited number of changes: the distributor waits for a subscriber whose queue is full, and passes
over those who have left.
-/

namespace CertKeeper.Watch

/-- One who listens to a shared watch. -/
structure Subscriber (α : Type) where
  /-- The changes that were taken from the queue, the oldest first. -/
  received : List α
  /-- The changes that were handed over since, the oldest first. -/
  queue : List α
  hasLeft : Bool

namespace Subscriber

variable {α : Type}

def start : Subscriber α := ⟨[], [], false⟩

def seen (s : Subscriber α) : List α := s.received ++ s.queue

def take (s : Subscriber α) : Subscriber α :=
  match s.queue with
  | [] => s
  | a :: rest => { s with received := s.received ++ [a], queue := rest }

def leave (s : Subscriber α) : Subscriber α := { s with hasLeft := true }

def push (s : Subscriber α) (a : α) : Subscriber α := { s with queue := s.queue ++ [a] }

@[simp] theorem seen_take (s : Subscriber α) : s.take.seen = s.seen := by
  rcases s with ⟨received, queue, hasLeft⟩
  cases queue <;> simp [take, seen]

@[simp] theorem seen_leave (s : Subscriber α) : s.leave.seen = s.seen := rfl

@[simp] theorem seen_push (s : Subscriber α) (a : α) : (s.push a).seen = s.seen ++ [a] := by
  simp [push, seen]

end Subscriber

structure Delivery (α : Type) where
  change : α
  /-- The subscribers to whom it is still to be handed. -/
  pending : List Nat
  /-- Whether one of the subscribers had left. -/
  metLeaver : Bool

/-- The distributor and its subscribers, who are numbered. -/
structure FanOut (α : Type) where
  /-- How many changes a queue holds. -/
  capacity : Nat
  /-- The items of the watch that were not taken yet. -/
  items : List (Except Error α)
  delivery : Option (Delivery α)
  /-- The subscribers that are served, in turn. -/
  served : List Nat
  subscriber : Nat → Subscriber α

namespace FanOut

variable {α : Type}

def start (capacity n : Nat) (items : List (Except Error α)) : FanOut α :=
  ⟨capacity, items, none, List.range n, fun _ => .start⟩

def mapSubscriber (f : FanOut α) (i : Nat) (g : Subscriber α → Subscriber α) : FanOut α :=
  { f with subscriber := fun j => if j = i then g (f.subscriber j) else f.subscriber j }

def hasEnded (f : FanOut α) : Bool := f.items.isEmpty && f.delivery.isNone

/-- Takes the next item. Errors of the watch go to nobody. -/
def takeItem (f : FanOut α) : FanOut α :=
  match f.items with
  | [] => f
  | .error _ :: rest => { f with items := rest }
  | .ok a :: rest => { f with items := rest, delivery := some ⟨a, f.served, false⟩ }

/-- Ends a delivery. Those who have left are no longer served once one of them was met. -/
def finish (f : FanOut α) (d : Delivery α) : FanOut α :=
  { f with
    delivery := none
    served := if d.metLeaver then f.served.filter fun i => !(f.subscriber i).hasLeft else f.served }

/-- Hands a change to the subscriber `i`, unless the queue is full. -/
def hand (f : FanOut α) (d : Delivery α) (i : Nat) (rest : List Nat) : FanOut α :=
  if (f.subscriber i).hasLeft then
    { f with delivery := some { d with pending := rest, metLeaver := true } }
  else if (f.subscriber i).queue.length < f.capacity then
    { f.mapSubscriber i (·.push d.change) with delivery := some { d with pending := rest } }
  else f

def advance (f : FanOut α) : FanOut α :=
  match f.delivery with
  | none => f.takeItem
  | some d =>
    match d.pending with
    | [] => f.finish d
    | i :: rest => f.hand d i rest

/-- What may happen next. -/
inductive Step where
  | advance
  | take (subscriber : Nat)
  | leave (subscriber : Nat)
  deriving DecidableEq, Repr

def step (f : FanOut α) : Step → FanOut α
  | .advance => f.advance
  | .take i => f.mapSubscriber i .take
  | .leave i => f.mapSubscriber i .leave

def run (f : FanOut α) (steps : List Step) : FanOut α := steps.foldl step f

def changes (items : List (Except Error α)) : List α := items.filterMap Except.toOption

end FanOut
end CertKeeper.Watch
