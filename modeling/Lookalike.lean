import Lookalike.Code.Chunk
import Lookalike.Code.Chunking
import Lookalike.Code.Facts
import Lookalike.Code.Language
import Lookalike.Code.Normal
import Lookalike.Code.Outline
import Lookalike.Code.Tree
import Lookalike.Code.Unit
import Lookalike.CommandLine.Answer
import Lookalike.CommandLine.Arguments
import Lookalike.CommandLine.FileLine
import Lookalike.CommandLine.Run
import Lookalike.CommandLine.Surface
import Lookalike.Config.Basic
import Lookalike.Config.Document
import Lookalike.Config.Load
import Lookalike.Digest.Blake3
import Lookalike.Disk
import Lookalike.Embedding.Error
import Lookalike.Embedding.Hashing
import Lookalike.Embedding.Provider
import Lookalike.Embedding.Retry
import Lookalike.Embedding.Service
import Lookalike.Embedding.Tokens
import Lookalike.Group.DisjointSets
import Lookalike.Group.Duplicates
import Lookalike.Ignore.Glob
import Lookalike.Ignore.Rules
import Lookalike.Index.Batches
import Lookalike.Index.Catalogue
import Lookalike.Index.Documents
import Lookalike.Index.Error
import Lookalike.Index.Manifest
import Lookalike.Index.Plan
import Lookalike.Index.Registry
import Lookalike.Index.Report
import Lookalike.Index.Scan
import Lookalike.Index.Session
import Lookalike.Index.Snapshot
import Lookalike.Index.State
import Lookalike.Index.VectorTable
import Lookalike.Index.World
import Lookalike.Json.Basic
import Lookalike.Json.Fields
import Lookalike.Json.Printer
import Lookalike.Json.Reader
import Lookalike.Main
import Lookalike.Number.Binary
import Lookalike.Number.Decimal
import Lookalike.Number.Digits
import Lookalike.Number.Written
import Lookalike.Path
import Lookalike.Proofs.Code.Bindings
import Lookalike.Proofs.Code.CommentedUnits
import Lookalike.Proofs.Code.Comments
import Lookalike.Proofs.Code.Cutting
import Lookalike.Proofs.Code.Identity
import Lookalike.Proofs.Code.Keys
import Lookalike.Proofs.Code.Outermost
import Lookalike.Proofs.Code.Ranks
import Lookalike.Proofs.Code.Trees
import Lookalike.Proofs.Disk
import Lookalike.Proofs.Embedding.Answers
import Lookalike.Proofs.Embedding.Backoff
import Lookalike.Proofs.Embedding.Retry
import Lookalike.Proofs.Embedding.Tokens
import Lookalike.Proofs.Group.Components
import Lookalike.Proofs.Group.DisjointSets
import Lookalike.Proofs.Group.Duplicates
import Lookalike.Proofs.Group.PairCount
import Lookalike.Proofs.Group.Partition
import Lookalike.Proofs.Group.Refinement
import Lookalike.Proofs.Index.Addressing
import Lookalike.Proofs.Index.Alike
import Lookalike.Proofs.Index.Asking
import Lookalike.Proofs.Index.Batches
import Lookalike.Proofs.Index.Batching
import Lookalike.Proofs.Index.Carrying
import Lookalike.Proofs.Index.Catalogue
import Lookalike.Proofs.Index.CatalogueDocument
import Lookalike.Proofs.Index.Coherence
import Lookalike.Proofs.Index.Completeness
import Lookalike.Proofs.Index.Corruption
import Lookalike.Proofs.Index.Documents
import Lookalike.Proofs.Index.Drafts
import Lookalike.Proofs.Index.Failure
import Lookalike.Proofs.Index.FileRemoval
import Lookalike.Proofs.Index.Freshness
import Lookalike.Proofs.Index.Hidden
import Lookalike.Proofs.Index.History
import Lookalike.Proofs.Index.Innermost
import Lookalike.Proofs.Index.Interruption
import Lookalike.Proofs.Index.Limits
import Lookalike.Proofs.Index.Listing
import Lookalike.Proofs.Index.LoadGate
import Lookalike.Proofs.Index.Lockstep
import Lookalike.Proofs.Index.NewContents
import Lookalike.Proofs.Index.Parallel
import Lookalike.Proofs.Index.Patching
import Lookalike.Proofs.Index.Persisting
import Lookalike.Proofs.Index.Places
import Lookalike.Proofs.Index.Planning
import Lookalike.Proofs.Index.Provenance
import Lookalike.Proofs.Index.Reading
import Lookalike.Proofs.Index.Rebuild
import Lookalike.Proofs.Index.Rerun
import Lookalike.Proofs.Index.Room
import Lookalike.Proofs.Index.Run
import Lookalike.Proofs.Index.Saving
import Lookalike.Proofs.Index.Scan
import Lookalike.Proofs.Index.Settling
import Lookalike.Proofs.Index.Snapshot
import Lookalike.Proofs.Index.Soundness
import Lookalike.Proofs.Index.Standing
import Lookalike.Proofs.Index.State
import Lookalike.Proofs.Index.Synchronisation
import Lookalike.Proofs.Index.Transparency
import Lookalike.Proofs.Index.UpToDate
import Lookalike.Proofs.Index.Update
import Lookalike.Proofs.Index.VectorDocument
import Lookalike.Proofs.Index.VectorLength
import Lookalike.Proofs.Index.VectorTable
import Lookalike.Proofs.Index.VersionGate
import Lookalike.Proofs.Json.RoundTrip
import Lookalike.Proofs.Json.Values
import Lookalike.Proofs.Number.Single
import Lookalike.Proofs.Path
import Lookalike.Proofs.Query.Nearest
import Lookalike.Proofs.SortedMap
import Lookalike.Proofs.Text.ByteOrder
import Lookalike.Proofs.Text.Normal
import Lookalike.Proofs.Text.Utf8
import Lookalike.Query.Similar
import Lookalike.SortedMap
import Lookalike.SortedMap.Lemmas
import Lookalike.Sorting
import Lookalike.Text.Basic
import Lookalike.Text.Quoted
import Lookalike.Text.Upper
import Lookalike.Text.Utf8
import Lookalike.Timestamp
import Lookalike.Toml.Basic
import Lookalike.Toml.Reader
import Lookalike.Toml.Scalar
