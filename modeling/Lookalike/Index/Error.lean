import Lookalike.Embedding.Error

/-!
# Failures of indexing and querying

Where a message quotes the operating system or a pattern compiler, the quotation is cut.
-/

namespace Lookalike

inductive IndexError where
  | io
  | walk
  | embed (cause : EmbedError)
  | parse (reason : String)
  | unsupportedLanguage
  | noIndex (path : String)
  | corruptIndex (path reason : String)
  | incompatibleIndex (reason : String)
  | dimensionMismatch (expected actual : Nat)
  | noChunkAtLocation (filePath : String) (line : Nat)
  | cancelled
  /-- The program stops itself, since a check of its own or its arithmetic has failed. -/
  | panicked
  | other (text : String)
  deriving DecidableEq, Repr

namespace IndexError

def message : IndexError → String
  | io => "IO error: <cut>"
  | walk => "walk error: <cut>"
  | embed cause => s!"embedding error: {cause.message}"
  | parse reason => s!"parse failed: {reason}"
  | unsupportedLanguage => "unsupported language"
  | noIndex path => s!"no index at {path}"
  | corruptIndex path reason => s!"corrupt index document {path}: {reason}"
  | incompatibleIndex reason => s!"incompatible index: {reason}"
  | dimensionMismatch expected actual =>
    s!"vector dimension mismatch: index has {expected}, got {actual}"
  | noChunkAtLocation filePath line => s!"no chunk at {filePath}:{line}"
  | cancelled => "indexing cancelled"
  | panicked => "panicked"
  | other text => text

def isNoIndex : IndexError → Bool
  | noIndex _ => true
  | _ => false

/-- Whether only indexing from scratch can mend the failure. -/
def requiresRebuild : IndexError → Bool
  | corruptIndex _ _ | incompatibleIndex _ | dimensionMismatch _ _ => true
  | _ => false

/-- A wrong vector length is reported in the words of the index, every other failure of embedding
as such. -/
def ofEmbedError : EmbedError → IndexError
  | .dimensionMismatch expected actual => dimensionMismatch expected actual
  | cause => embed cause

end IndexError

/-- What stands for a reader's own account of what is wrong with a document. -/
def malformedDocument : String := "<json>"

end Lookalike
