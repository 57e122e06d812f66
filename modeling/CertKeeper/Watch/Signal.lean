import CertKeeper.Watch.SystemCa

/-!
# Signals of change

The listener on the system CA counts the changes that it signals. A follower remembers the count that
it saw last and yields an item when the count is another one, so that changes made while it was busy
come to one item.
-/

namespace CertKeeper.Watch

/-- The sending end: how many changes were signalled, and whether there may be more. -/
structure Signal where
  count : Nat
  isOpen : Bool
  deriving DecidableEq, Repr

/-- The receiving end: the count that was seen last. -/
structure Follower where
  seen : Nat
  deriving DecidableEq, Repr

inductive Poll where
  | pending
  | item
  | ended
  deriving DecidableEq, Repr

namespace Signal

def start : Signal := ⟨0, true⟩

def send (s : Signal) : Signal := { s with count := s.count + 1 }

def close (s : Signal) : Signal := { s with isOpen := false }

def observe (s : Signal) (name : String) (e : SystemCa.FileEvent) : Signal :=
  if SystemCa.signals name e then s.send else s

def subscribe (s : Signal) : Follower := ⟨s.count⟩

end Signal

namespace Follower

/-- Looks for a change. One that was signalled before the end is still found. -/
def poll (f : Follower) (s : Signal) : Poll × Follower :=
  if f.seen ≠ s.count then (.item, ⟨s.count⟩)
  else if s.isOpen then (.pending, f)
  else (.ended, f)

end Follower
end CertKeeper.Watch
