import Lookalike.Config.Basic
import Lookalike.Index.Documents
import Lookalike.Number.Digits
import Lookalike.Toml.Reader

/-!
# The configuration file

How a configuration is read from a TOML document. Every setting has a default; unknown ones are
passed over. A section is a table, or an array of its settings in order, in which the last ones may
be missing; a date in its place sets nothing.
-/

namespace Lookalike

namespace Toml

open Number (longBound twoTo)

/-- The settings of a section that are known. -/
def section? (names : List String) : Toml → Option Members
  | .table _ members => some (members.filter (·.1 ∈ names))
  | .moment => some []
  | .array items => some (names.zip items)
  | .tables items => some (names.zip (items.map (.table .header)))
  | _ => none

/-- Reads a setting; one that is missing has a default. -/
def setting? {α : Type} (settings : Members) (name : String) (default : α)
    (read : Toml → Option α) : Option α :=
  match settings.find? (·.1 = name) with
  | some (_, value) => read value
  | none => some default

def text? : Toml → Option String
  | .text value => some value
  | _ => none

def natural? (bound : Nat) : Toml → Option Nat
  | .integer n => if 0 ≤ n && n < bound then some n.toNat else none
  | _ => none

/-- A number in single precision: an integer of 64 bits is rounded once, a number in double
precision once more. -/
def single? : Toml → Option Float32
  | .float x => some (Number.narrow x)
  | .integer n =>
    if -(twoTo 63 : Int) ≤ n && n < longBound then
      some (Number.Decimal.toSingle ⟨n < 0, n.natAbs, 0⟩)
    else none
  | _ => none

def texts? : Toml → Option (List String)
  | .array items => items.mapM text?
  | _ => none

end Toml

open Number (wordBound longBound)
open Toml (section? setting? text? natural? single? texts?)

def EmbeddingConfig.names : List String :=
  ["base_url", "model", "dimension", "timeout_secs", "max_retries", "retry_backoff_ms",
    "ready_timeout_secs", "batch_size", "concurrency"]

def EmbeddingConfig.ofToml? (value : Toml) : Option EmbeddingConfig := do
  let settings ← section? names value
  let natural (name : String) (default bound : Nat) :=
    setting? settings name default (natural? bound)
  let d : EmbeddingConfig := {}
  return {
    baseUrl := ← setting? settings "base_url" d.baseUrl text?
    model := ← setting? settings "model" d.model text?
    dimension := ← setting? settings "dimension" none fun v => (natural? longBound v).map some
    timeoutSeconds := ← natural "timeout_secs" d.timeoutSeconds longBound
    maxRetries := ← natural "max_retries" d.maxRetries wordBound
    retryBackoffMs := ← natural "retry_backoff_ms" d.retryBackoffMs longBound
    readyTimeoutSeconds := ← natural "ready_timeout_secs" d.readyTimeoutSeconds longBound
    batchSize := ← natural "batch_size" d.batchSize longBound
    concurrency := ← natural "concurrency" d.concurrency longBound }

def IndexConfig.ofToml? (value : Toml) : Option IndexConfig := do
  let settings ← section? ["exclude", "min_chunk_size", "max_chunk_chars"] value
  let d : IndexConfig := {}
  return {
    exclude := ← setting? settings "exclude" d.exclude texts?
    minChunkSize := ← setting? settings "min_chunk_size" d.minChunkSize (natural? longBound)
    maxChunkChars := ← setting? settings "max_chunk_chars" d.maxChunkChars (natural? longBound) }

def DuplicatesConfig.ofToml? (value : Toml) : Option DuplicatesConfig := do
  let settings ← section? ["threshold", "min_group_size"] value
  let d : DuplicatesConfig := {}
  return {
    threshold := ← setting? settings "threshold" d.threshold single?
    minGroupSize := ← setting? settings "min_group_size" d.minGroupSize (natural? longBound) }

def SearchConfig.ofToml? (value : Toml) : Option SearchConfig := do
  let settings ← section? ["top", "threshold"] value
  let d : SearchConfig := {}
  return {
    top := ← setting? settings "top" d.top (natural? longBound)
    threshold := ← setting? settings "threshold" d.threshold single? }

def Config.ofToml? (value : Toml) : Option Config := do
  let settings ← section? ["embedding", "index", "duplicates", "search"] value
  return {
    embedding := ← setting? settings "embedding" {} EmbeddingConfig.ofToml?
    index := ← setting? settings "index" {} IndexConfig.ofToml?
    duplicates := ← setting? settings "duplicates" {} DuplicatesConfig.ofToml?
    search := ← setting? settings "search" {} SearchConfig.ofToml? }

end Lookalike
