import CertBroker.Dict

namespace CertBroker

/-- The state of one sequence of delays, in seconds. -/
structure Backoff where
  least : UInt64
  previous : UInt64
  current : UInt64
  cap : UInt64
deriving DecidableEq, Repr

namespace Backoff

def start (least cap : UInt64) : Backoff := ⟨least, 0, least, cap⟩

/-- From five seconds up to five minutes. -/
def standard : Backoff := start 5 300

/-- The delay to wait now, and the state after it. -/
def next (b : Backoff) : UInt64 × Backoff :=
  let sum := b.previous + b.current
  (b.current, { b with previous := b.current, current := if sum ≤ b.cap then sum else b.cap })

def reset (b : Backoff) : Backoff := { b with previous := 0, current := b.least }

end Backoff

/-- The delays of many objects by key; an object without an entry has not failed. -/
structure BackoffTable where
  states : Dict Backoff := .empty
deriving DecidableEq

namespace BackoffTable

def next (t : BackoffTable) (key : String) : UInt64 × BackoffTable :=
  let (delay, state) := ((t.states.get? key).getD .standard).next
  (delay, ⟨t.states.insert key state⟩)

/-- Forgets the failures of an object. -/
def reset (t : BackoffTable) (key : String) : BackoffTable := ⟨t.states.erase key⟩

end BackoffTable

end CertBroker
