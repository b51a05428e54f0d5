/-!
# Failures of embedding
-/

namespace Lookalike

inductive EmbedError where
  /-- The request failed in a way that no retry mends. -/
  | http
  | unavailable (url : String) (waitedMs : Nat)
  /-- Every attempt failed; the description is that of the last failure. -/
  | retriesExhausted (attempts : Nat) (last : String)
  | status (code : Nat) (body : String)
  | malformed (reason : String)
  | dimensionMismatch (expected actual : Nat)
  | other (text : String)
  deriving DecidableEq, Repr

namespace EmbedError

def message : EmbedError → String
  | http => "HTTP request failed: <cut>"
  | unavailable url waitedMs =>
    s!"embedding service at {url} not ready after {waitedMs / 1000}s"
  | retriesExhausted attempts last =>
    s!"embedding request failed after {attempts} attempts: {last}"
  | status code body => s!"embedding service returned {code}: {body}"
  | malformed reason => s!"malformed embedding response: {reason}"
  | dimensionMismatch expected actual =>
    s!"embedding dimension mismatch: expected {expected}, got {actual}"
  | other text => text

/-- Whether only the submitted texts are at fault, so that others may still be embedded. -/
def isInputSpecific : EmbedError → Bool
  | malformed _ => true
  | status code _ => 400 ≤ code && code < 500 && code ≠ 429
  | _ => false

end EmbedError

end Lookalike
