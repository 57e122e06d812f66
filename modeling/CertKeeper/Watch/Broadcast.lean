import CertKeeper.Sync.Controller
import CertKeeper.Watch.Resolver
import CertKeeper.Watch.Signal

/-!
# One listener for many controllers

All controllers that use the system CA follow the signals of one listener on its file. A controller
that has taken an item lists its targets and asks for runs of those that have opted in, and only
then looks for the next item. Meanwhile there may be further signals, and the targets may be edited.
-/

namespace CertKeeper.Watch

/-- A controller that follows the system CA. -/
structure CaSubscriber where
  controller : Controller
  receiver : Follower
  /-- Whether an item was taken for which the targets were not listed yet. -/
  isBusy : Bool
  hasEnded : Bool
  /-- The targets whose runs were asked for, item by item. -/
  requested : List (List ObjectRef)

namespace CaSubscriber

def start (w : Controller) (s : Signal) : CaSubscriber := ⟨w, s.subscribe, false, false, []⟩

def items (r : CaSubscriber) : Nat := r.requested.length + r.isBusy.toNat

def deliver (r : CaSubscriber) (c : Cluster) : CaSubscriber :=
  { r with isBusy := false, requested := r.requested ++ [r.controller.sync.resolveSystemCa c] }

def poll (r : CaSubscriber) (s : Signal) : CaSubscriber :=
  match r.receiver.poll s with
  | (.pending, receiver) => { r with receiver }
  | (.item, receiver) => { r with receiver, isBusy := true }
  | (.ended, receiver) => { r with receiver, hasEnded := true }

def advance (r : CaSubscriber) (s : Signal) (c : Cluster) : CaSubscriber :=
  if r.isBusy then r.deliver c else if r.hasEnded then r else r.poll s

end CaSubscriber

/-- The listener on the system CA, its subscribers, who are numbered, and their targets. -/
structure CaBroadcast where
  signal : Signal
  /-- Whether the listener was dropped. It may signal until it has stopped. -/
  isDropped : Bool
  cluster : Cluster
  subscribers : List CaSubscriber

namespace CaBroadcast

def start (c : Cluster) : CaBroadcast := ⟨.start, false, c, []⟩

/-- What may happen next. -/
inductive Step where
  | signal
  | drop
  | stop
  | subscribe (w : Controller)
  | edit (c : Cluster)
  | advance (subscriber : Nat)

/-- A step that is not possible changes nothing: a listener that has stopped does not signal, it
stops only after it was dropped, and nobody subscribes to one that was. Controllers that never use
the system CA do not follow it. -/
def step (b : CaBroadcast) : Step → CaBroadcast
  | .signal => if b.signal.isOpen then { b with signal := b.signal.send } else b
  | .drop => { b with isDropped := true }
  | .stop => if b.isDropped then { b with signal := b.signal.close } else b
  | .subscribe w =>
    if !b.isDropped && w.sync.usesSystemCa then
      { b with subscribers := b.subscribers ++ [.start w b.signal] }
    else b
  | .edit c => { b with cluster := c }
  | .advance i => { b with subscribers := b.subscribers.modify i (·.advance b.signal b.cluster) }

def run (b : CaBroadcast) (steps : List Step) : CaBroadcast := steps.foldl step b

end CaBroadcast
end CertKeeper.Watch
