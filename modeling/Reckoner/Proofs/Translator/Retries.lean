import Reckoner.Proofs.Number.Exact
import Reckoner.Proofs.Program.Runs
import Reckoner.Proofs.Translator.Backends

/-! The calls of a service that are made again.  A call is repeated, with a warning and a delay, for
as long as it fails in a way that may pass, there are calls left, and the delay is a double; the
outcome of the last call is the outcome of all. -/

namespace Reckoner

/-- What comes of the next calls of a service, as far as its script goes: answers, and faults. -/
def Scripts.results (scripts : Scripts) : Service → List (Except Fault Text)
  | .openai => scripts.openAi.outcomes.map (·.bind OpenAi.Response.answer)
  | .anthropic => scripts.anthropic.outcomes.map (·.bind Anthropic.Response.answer)

section Faults

variable {α : Type} {outcomes : List (Except Fault α)}

end Faults

namespace Backoff

/-- The delay after the failed call of this number, where there is one. -/
def wait (backoff : Backoff) (number : ℕ) : Double := backoff.firstDelay.mul (.ofNat (2 ^ number))

end Backoff

namespace Call

open Backoff

variable {backoff : Backoff} {call : Call} {world : World} {result : Except Fault Text}
  {results : List (Except Fault Text)} {failed left : ℕ}

/-! ### Single calls -/

end Call

end Reckoner
