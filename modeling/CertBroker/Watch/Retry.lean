import CertBroker.Backoff
import CertBroker.Watch.Watched

namespace CertBroker

/-- What follows a pass over an object: after how many seconds the next one is due, if one is, and
the delays from then on. -/
def BackoffTable.afterPass (delays : BackoffTable) (id : Identity)
    (outcome : Except Failure Action) : Option Nat × BackoffTable :=
  match outcome with
  | .ok .awaitChange => (none, delays.reset id.key)
  | .ok (.requeue seconds) => (some seconds, delays.reset id.key)
  | .error _ =>
    let (delay, delays) := delays.next id.key
    (some delay.toNat, delays)

/-- A pass over one object leaves the delays of others alone. -/
theorem BackoffTable.get?_afterPass_of_ne (delays : BackoffTable) (id : Identity)
    (outcome : Except Failure Action) {key : String} (other : id.key ≠ key) :
    (delays.afterPass id outcome).2.states.get? key = delays.states.get? key := by
  match outcome with
  | .ok .awaitChange => simp [afterPass, reset, Dict.get?_erase, other]
  | .ok (.requeue _) => simp [afterPass, reset, Dict.get?_erase, other]
  | .error _ => simp [afterPass, next, other]

end CertBroker
