import Reckoner.Number.Arithmetic
import Reckoner.Fault

/-! When a call of a service is made again: if it fails for a reason that may pass, each time after
twice the delay of the time before, until it has been made as often as it may be. -/

namespace Reckoner

/-- Names of errors that say by themselves that a call may succeed later. -/
def transientNames : List Text := ["RateLimitError", "APITimeoutError", "APIConnectionError"]

/-- Names of errors that are told apart by the status of the answer. -/
def statusNames : List Text := ["APIStatusError", "InternalServerError"]

/-- Whether a call may succeed when it is made again. -/
def Foreign.isTransient (error : Foreign) : Bool :=
  if transientNames.elem error.name then true
  else if statusNames.elem error.name then decide (500 ≤ error.status.getD 0)
  else error.isSystem

/-- Whether a call that ended so may succeed when it is made again. -/
def Fault.isTransient : Fault → Bool
  | .failure _ => false
  | .foreign error => error.isTransient
  | .crash cause => cause.isSystem

/-- How often a failed call is made again, and the delay before the first time. -/
structure Backoff where
  retries : Nat
  firstDelay : Double

namespace Backoff

/-- The usual policy: four calls, and one second between the first two. -/
def standard : Backoff := ⟨3, 1⟩

/-- The delay after the failed call of this number, counted from zero.  There is none where the power
of two is no double. -/
def delay (backoff : Backoff) (number : Nat) : Except Fault Double :=
  let factor := Double.ofNat (Nat.pow 2 number)
  if factor.isFinite then .ok (backoff.firstDelay.mul factor) else .error (.crash .delayTooLong)

end Backoff

end Reckoner
