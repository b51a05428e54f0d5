import Lookalike.Embedding.Error
import Lookalike.Index.VectorTable

/-!
# Embedding providers

A provider turns texts into vectors. It may keep a state between calls, such as counters or a
connection, and clones of a provider share it; so the state is passed along and the provider itself
is a value.
-/

namespace Lookalike

structure Provider (σ : Type) where
  /-- A short name of the kind of provider. -/
  name : String
  /-- The model, as it is recorded in manifests. -/
  model : String
  /-- The length of the vectors, if it is known beforehand. -/
  dimension : Option Nat
  /-- The answer to some texts with a model, one vector for each text in order. -/
  answer : String → List String → σ → Except EmbedError (List Embedding) × σ

namespace Provider

variable {σ : Type}

/-- The same provider with another model. -/
def withModel (p : Provider σ) (model : String) : Provider σ := { p with model }

def embedBatch (p : Provider σ) (texts : List String) (s : σ) :
    Except EmbedError (List Embedding) × σ := p.answer p.model texts s

/-- The vector in the answer to one text. -/
def single : Except EmbedError (List Embedding) → Except EmbedError Embedding
  | .error e => .error e
  | .ok vectors =>
    match vectors.getLast? with
    | some v => .ok v
    | none => .error (.malformed "empty embedding batch")

/-- Embeds one text as a batch of its own. -/
def embed (p : Provider σ) (text : String) (s : σ) : Except EmbedError Embedding × σ :=
  let (result, s) := p.embedBatch [text] s
  (single result, s)

end Provider

/-- Whether the vectors of an answer have one length that is positive and, if a length is expected,
the expected one. -/
def checkDimension (expected : Option Nat) (vectors : List Embedding) : Except EmbedError Unit :=
  match vectors with
  | [] => .ok ()
  | first :: _ =>
    let actual := first.size
    if actual = 0 then .error (.malformed "empty embedding vector")
    else
      match vectors.find? (·.size ≠ actual) with
      | some v =>
        .error (.malformed s!"inconsistent vector lengths in batch: {actual} and {v.size}")
      | none =>
        match expected with
        | some expected =>
          if expected ≠ actual then .error (.dimensionMismatch expected actual) else .ok ()
        | none => .ok ()

end Lookalike
