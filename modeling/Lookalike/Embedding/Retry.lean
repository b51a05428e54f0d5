import Lookalike.Embedding.Error
import Lookalike.Number.Written
import Lookalike.Text.Basic

/-!
# Requests and retries

A request ends with a response, with a failure that may pass (no connection, no answer in time), or
with one that will not. Overloaded and failing services are asked again after a pause that doubles
from one attempt to the next unless the response names it.
-/

namespace Lookalike.Http

open Number (longBound readNatural?)

structure Response where
  status : Nat
  headers : List (String × String) := []
  body : List UInt8 := []
  deriving DecidableEq, Repr

inductive Outcome where
  | response (r : Response)
  /-- No connection, or no answer in time, in the words of the network. -/
  | unreachable (description : String)
  | failed
  deriving DecidableEq, Repr

/-- No pause is longer, in milliseconds. -/
def maxPause : Nat := 30000

/-- The longest duration that saturating arithmetic yields, in milliseconds. -/
def longestDuration : Nat := (longBound - 1) * 1000 + 999

/-- The pause before the attempt after a given one: the base, doubled once for each attempt, with
an exponent of at most 16. -/
def backoff (baseMs : Nat) (attempt : UInt32) : Nat :=
  min (min (baseMs * ((1 : UInt32) <<< min attempt 16).toNat) longestDuration) maxPause

/-- The first header of a name, in any mixture of small and capital letters. -/
def Response.header? (r : Response) (name : String) : Option String :=
  (r.headers.find? fun h => Text.lowerAscii h.1 = name).map (·.2)

/-- The pause after a response that asks for patience. -/
def pauseAfter (r : Response) (baseMs : Nat) (attempt : UInt32) : Nat :=
  match (r.header? "retry-after").bind (readNatural? longBound) with
  | some seconds => min (seconds * 1000) maxPause
  | none => backoff baseMs attempt

def isRetryableStatus (status : Nat) : Bool := status = 429 || (500 ≤ status && status < 600)

/-- The phrase that goes with a status. -/
def reason : Nat → String
  | 429 => "Too Many Requests"
  | 500 => "Internal Server Error"
  | 501 => "Not Implemented"
  | 502 => "Bad Gateway"
  | 503 => "Service Unavailable"
  | 504 => "Gateway Timeout"
  | 505 => "HTTP Version Not Supported"
  | 506 => "Variant Also Negotiates"
  | 507 => "Insufficient Storage"
  | 508 => "Loop Detected"
  | 510 => "Not Extended"
  | 511 => "Network Authentication Required"
  | _ => "<unknown status code>"

structure RetryPolicy where
  maxRetries : UInt32
  baseMs : Nat

/-- What one attempt means: a final result, or a failure with its description and the pause that
should follow it. -/
inductive Verdict where
  | final (result : Except EmbedError Response)
  | again (last : String) (pauseMs : Nat)

def judge (policy : RetryPolicy) (attempt : UInt32) : Outcome → Verdict
  | .response r =>
    if isRetryableStatus r.status then
      .again s!"status {r.status} {reason r.status}" (pauseAfter r policy.baseMs attempt)
    else .final (.ok r)
  | .unreachable description => .again description (backoff policy.baseMs attempt)
  | .failed => .final (.error .http)

/-- The world that requests go out into: sending one and pausing change its state. -/
structure Network (σ ρ : Type) where
  send : ρ → σ → Outcome × σ
  pause : Nat → σ → σ

variable {σ ρ : Type}

/-- Attempts from a given one on; the first argument is how many may still follow it. -/
def attempts (net : Network σ ρ) (policy : RetryPolicy) (request : ρ) :
    Nat → UInt32 → σ → Except EmbedError Response × σ
  | left, attempt, s =>
    let (outcome, s) := net.send request s
    match judge policy attempt outcome with
    | .final result => (result, s)
    | .again last pauseMs =>
      match left with
      | 0 => (.error (.retriesExhausted (policy.maxRetries + 1).toNat last), s)
      | left + 1 => attempts net policy request left (attempt + 1) (net.pause pauseMs s)

/-- Sends a request until its outcome is final or the retries are used up. -/
def sendWithRetry (net : Network σ ρ) (policy : RetryPolicy) (request : ρ) (s : σ) :
    Except EmbedError Response × σ :=
  attempts net policy request policy.maxRetries.toNat 0 s

end Lookalike.Http
