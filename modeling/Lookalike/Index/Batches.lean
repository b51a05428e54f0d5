import Lookalike.Index.Plan
import Lookalike.Index.World

/-!
# Embedding a queue in batches

The queue is cut into batches, of which a bounded number are in flight at once and are answered in
any order. A batch whose texts are at fault is embedded text by text, so that only the faulty texts
go without a vector. Every other failure ends the run.
-/

namespace Lookalike

section Order

variable {α : Type}

/-- Cuts a list into pieces of a size, which is at least one; the last piece may be shorter. -/
def batches (size : Nat) : List α → List (List α)
  | [] => []
  | x :: rest => (x :: rest.take (size - 1)) :: batches size (rest.drop (size - 1))
termination_by xs => xs.length

/-- Takes an item out of a list, by its place; a place behind the last item is that of the last. -/
def takeOut : Nat → α → List α → α × List α
  | 0, first, rest => (first, rest)
  | _ + 1, first, [] => (first, [])
  | place + 1, first, next :: rest =>
    let (taken, left) := takeOut place next rest
    (taken, first :: left)

theorem perm_takeOut (place : Nat) (first : α) (rest : List α) :
    ((takeOut place first rest).1 :: (takeOut place first rest).2).Perm (first :: rest) := by
  fun_induction takeOut place first rest with
  | case1 => exact .refl _
  | case2 => exact .refl _
  | case3 place first next rest taken left out ih =>
    rw [out] at ih
    exact (List.Perm.swap first taken left).trans (ih.cons first)

end Order

namespace Embedded

def addVector (e : Embedded) (contentHash : String) (vector : Embedding) : Embedded :=
  { e with vectors := e.vectors.insert contentHash vector }

def addFailure (e : Embedded) (contentHash reason : String) : Embedded :=
  { e with failures := e.failures.insert contentHash reason }

/-- Gives each text of a batch its vector. -/
def addBatch (e : Embedded) (batch : List QueuedText) (vectors : List Embedding) : Embedded :=
  (batch.zip vectors).foldl (fun e (q, v) => e.addVector q.contentHash v) e

end Embedded

/-- What the answer to a batch means. -/
inductive BatchVerdict where
  | accepted (vectors : List Embedding)
  /-- Texts of the batch are at fault. -/
  | rejected
  | fatal (cause : EmbedError)

def BatchVerdict.of (count : Nat) : Except EmbedError (List Embedding) → BatchVerdict
  | .ok vectors => if vectors.length = count then .accepted vectors else .rejected
  | .error e => if e.isInputSpecific then .rejected else .fatal e

/-- A batch that was sent, with the answer that comes to it. -/
structure SentBatch where
  batch : List QueuedText
  answer : Except EmbedError (List Embedding)

/-- What is done next with batches of which some are in flight and some wait. -/
inductive BatchStep where
  | finish
  | send (batch : List QueuedText) (waiting : List (List QueuedText))
  | take (sent : SentBatch) (flying : List SentBatch)

namespace BatchStep

/-- The answer to one of the batches in flight is taken in. -/
def takeOf (place : Nat) (first : SentBatch) (others : List SentBatch) : BatchStep :=
  .take (takeOut place first others).1 (takeOut place first others).2

/-- The place that a move names, which is the first for a move that cannot be made. -/
def placeOf : Option Move → Nat
  | some (.take place) => place
  | _ => 0

/-- The next step: a batch is sent when that is the move and there is room, or when none is in
flight, as long as one waits. -/
def next (limit : Nat) (move : Option Move) :
    List SentBatch → List (List QueuedText) → BatchStep
  | [], [] => .finish
  | [], batch :: waiting => .send batch waiting
  | first :: others, [] => takeOf (placeOf move) first others
  | first :: others, batch :: waiting =>
    if move = some .send ∧ others.length + 1 < limit then .send batch waiting
    else takeOf (placeOf move) first others

/-- What a step does with the batches in flight and those that wait. -/
inductive Does (limit : Nat) (flying : List SentBatch) (waiting : List (List QueuedText)) :
    BatchStep → Prop
  | finish (landed : flying = []) (sent : waiting = []) : Does limit flying waiting .finish
  | send {batch : List QueuedText} {rest : List (List QueuedText)} (first : waiting = batch :: rest)
      (room : flying = [] ∨ flying.length < limit) : Does limit flying waiting (.send batch rest)
  | take {sent : SentBatch} {rest : List SentBatch} (perm : (sent :: rest).Perm flying) :
      Does limit flying waiting (.take sent rest)

theorem does_next (limit : Nat) (move : Option Move) (flying : List SentBatch)
    (waiting : List (List QueuedText)) :
    Does limit flying waiting (next limit move flying waiting) := by
  fun_cases next limit move flying waiting with
  | case1 => exact .finish rfl rfl
  | case2 batch waiting => exact .send rfl (.inl rfl)
  | case3 first others => exact .take (perm_takeOut _ first others)
  | case4 first others batch waiting turn => exact .send rfl (.inr turn.2)
  | case5 first others batch waiting => exact .take (perm_takeOut _ first others)

variable {limit : Nat} {flying : List SentBatch} {waiting : List (List QueuedText)}

theorem does_eq {move : Option Move} {step : BatchStep}
    (same : next limit move flying waiting = step) : Does limit flying waiting step :=
  same ▸ does_next limit move flying waiting

theorem Does.send_lt {batch : List QueuedText} {rest : List (List QueuedText)} (sent : SentBatch)
    (does : Does limit flying waiting (.send batch rest)) :
    2 * rest.length + (flying ++ [sent]).length < 2 * waiting.length + flying.length := by
  cases does with
  | send first =>
    rw [first, List.length_append, List.length_singleton, List.length_cons]
    omega

theorem Does.take_lt {sent : SentBatch} {rest : List SentBatch}
    (does : Does limit flying waiting (.take sent rest)) :
    2 * waiting.length + rest.length < 2 * waiting.length + flying.length := by
  cases does with
  | take perm =>
    have lengths := perm.length_eq
    rw [List.length_cons] at lengths
    omega

end BatchStep

namespace Action

variable {σ : Type}

/-- Asks the provider. -/
def ask {α : Type} (question : σ → α × σ) : Action σ α := do
  let w ← get
  let (result, provider) := question w.provider
  set { w with provider }
  return result

/-- Embeds texts one by one. -/
def embedSingly (provider : Provider σ) (e : Embedded) : List QueuedText → Action σ Embedded
  | [] => pure e
  | q :: rest => do
    match ← ask (provider.embed q.text) with
    | .ok vector => embedSingly provider (e.addVector q.contentHash vector) rest
    | .error cause =>
      if cause.isInputSpecific then
        embedSingly provider (e.addFailure q.contentHash cause.message) rest
      else throw (.ofEmbedError cause)

/-- Takes in the answer to a batch. -/
def takeIn (provider : Provider σ) (options : IndexOptions) (e : Embedded) (sent : SentBatch) :
    Action σ Embedded := do
  checkCancelled options
  match BatchVerdict.of sent.batch.length sent.answer with
  | .accepted vectors => return e.addBatch sent.batch vectors
  | .rejected => embedSingly provider e sent.batch
  | .fatal cause => throw (.ofEmbedError cause)

/-- Embeds the batches that are in flight and those that wait, after `done` others. -/
def embedBatches (provider : Provider σ) (options : IndexOptions) (limit total : Nat)
    (moves : List Move) (done : Nat) (e : Embedded) (flying : List SentBatch)
    (waiting : List (List QueuedText)) : Action σ Embedded :=
  match next : BatchStep.next limit moves.head? flying waiting with
  | .finish => pure e
  | .send batch rest => do
    let answer ← ask (provider.embedBatch (batch.map (·.text)))
    embedBatches provider options limit total moves.tail done e (flying ++ [⟨batch, answer⟩]) rest
  | .take sent rest => do
    let e ← takeIn provider options e sent
    tell options { phase := .embedding, current := done + 1, total }
    embedBatches provider options limit total moves.tail (done + 1) e rest waiting
termination_by 2 * waiting.length + flying.length
decreasing_by
  · exact (BatchStep.does_eq next).send_lt _
  · exact (BatchStep.does_eq next).take_lt

/-- Embeds a queue. Nothing is told about an empty one. -/
def embedQueue (provider : Provider σ) (options : IndexOptions) (batchSize concurrency : Nat)
    (moves : List Move) (queue : List QueuedText) : Action σ Embedded := do
  if queue.isEmpty then return {}
  let all := batches batchSize queue
  tell options { phase := .embedding, total := all.length }
  embedBatches provider options (max concurrency 1) all.length moves 0 {} [] all

end Action

end Lookalike
