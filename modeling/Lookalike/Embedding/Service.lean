import Lookalike.Embedding.Provider
import Lookalike.Embedding.Retry
import Lookalike.Json.Fields
import Lookalike.Json.Printer
import Lookalike.Json.Reader

/-!
# The embedding service

A client of a local embedding service. Before its first batch it waits until the service lists its
models; then each batch is one request, whose answer has to hold one vector for each text.
-/

namespace Lookalike

structure ServiceSettings where
  baseUrl : String := "http://localhost:11434"
  model : String := "nomic-embed-text"
  /-- The declared length of the vectors; every other length is rejected. -/
  dimension : Option Nat := none
  requestTimeoutMs : Nat := 30000
  maxRetries : UInt32 := 3
  retryBackoffMs : Nat := 500
  /-- How long to wait for the service before the first request. -/
  readyTimeoutMs : Nat := 20000
  readyPollMs : Nat := 250
  deriving DecidableEq, Repr

/-- A request to the service. -/
structure ServiceRequest where
  isPost : Bool
  url : String
  headers : List (String × String)
  body : Option Json

namespace Service

/-- What the client calls itself. -/
def agent : String := "simili/0.3.0"

def trimSlashes (url : String) : String :=
  String.ofList (url.toList.reverse.dropWhile (· = '/')).reverse

def endpoint (settings : ServiceSettings) (path : String) : String :=
  trimSlashes settings.baseUrl ++ path

def listRequest (settings : ServiceSettings) : ServiceRequest :=
  { isPost := false
    url := endpoint settings "/api/tags"
    headers := [("User-Agent", agent)]
    body := none }

def batchRequest (settings : ServiceSettings) (model : String) (texts : List String) :
    ServiceRequest :=
  { isPost := true
    url := endpoint settings "/api/embed"
    headers := [("User-Agent", agent), ("Content-Type", "application/json")]
    body := some (Json.ofFields
      [("model", Json.ofText model), ("input", Json.ofList Json.ofText texts)]) }

def isSuccess (status : Nat) : Bool := 200 ≤ status && status < 300

/-- How much of an error body is kept, in bytes. -/
def maxErrorBody : Nat := 512

def vectorsOf? (value : Json) : Option (List Embedding) := do
  let r ← Json.Record.of? ["embeddings"] value
  r.required? "embeddings" (Json.toList? fun item =>
    (Json.toList? Json.toSingle? item).map List.toArray)

/-- The vectors in a final response to a request for some texts. -/
def interpret (dimension : Option Nat) (count : Nat) (r : Http.Response) :
    Except EmbedError (List Embedding) :=
  if !isSuccess r.status then .error (.status r.status (Utf8.lossy (r.body.take maxErrorBody)))
  else
    match (Json.read? r.body).bind vectorsOf? with
    | none => .error (.malformed "<json>")
    | some vectors =>
      if vectors.length ≠ count then
        .error (.malformed s!"expected {count} embeddings, got {vectors.length}")
      else
        match checkDimension dimension vectors with
        | .error e => .error e
        | .ok () => .ok vectors

/-- The state of a client and its clones: whether the service was seen to be up, and the network. -/
structure State (σ : Type) where
  ready : Bool := false
  network : σ

abbrev Net (σ : Type) := Http.Network σ ServiceRequest

variable {σ : Type}

def answersWell : Http.Outcome → Bool
  | .response r => isSuccess r.status
  | _ => false

/-- Asks until the service answers well or the waiting time is over; the time passes in the pauses.
The first argument bounds the number of further polls. -/
def poll (net : Net σ) (settings : ServiceSettings) : Nat → Nat → σ → Except EmbedError Unit × σ
  | left, waited, s =>
    let (outcome, s) := net.send (listRequest settings) s
    if answersWell outcome then (.ok (), s)
    else
      let unavailable := EmbedError.unavailable settings.baseUrl waited
      if settings.readyTimeoutMs ≤ waited then (.error unavailable, s)
      else
        match left with
        | 0 => (.error unavailable, s)
        | left + 1 =>
          let step := max settings.readyPollMs 1
          poll net settings left (waited + step) (net.pause step s)

/-- Waits for the service once; later calls find it ready. -/
def waitUntilReady (net : Net σ) (settings : ServiceSettings) (s : State σ) :
    Except EmbedError Unit × State σ :=
  if s.ready then (.ok (), s)
  else
    let (result, network) := poll net settings settings.readyTimeoutMs 0 s.network
    (result, { ready := result.isOk, network })

def policy (settings : ServiceSettings) : Http.RetryPolicy :=
  { maxRetries := settings.maxRetries, baseMs := settings.retryBackoffMs }

/-- Embeds some texts with one request. No text needs no request. -/
def embedBatch (net : Net σ) (settings : ServiceSettings) (model : String) (texts : List String)
    (s : State σ) : Except EmbedError (List Embedding) × State σ :=
  if texts.isEmpty then (.ok [], s)
  else
    match waitUntilReady net settings s with
    | (.error e, s) => (.error e, s)
    | (.ok (), s) =>
      let (result, network) :=
        Http.sendWithRetry net (policy settings) (batchRequest settings model texts) s.network
      (result.bind (interpret settings.dimension texts.length), { s with network })

def provider (net : Net σ) (settings : ServiceSettings) : Provider (State σ) :=
  { name := "ollama"
    model := settings.model
    dimension := settings.dimension
    answer := embedBatch net settings }

end Service

end Lookalike
