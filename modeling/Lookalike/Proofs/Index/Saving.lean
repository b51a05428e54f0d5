import Lookalike.Proofs.Index.Room

/-!
# Saving and loading one document

A store is saved by replacing its document in the index folder and loaded by reading that document
alone. Saving succeeds where the folder takes the document, whatever the document is, and what is
loaded afterwards is what its bytes are read as.
-/

namespace Lookalike

open Action (run replaceDocument)

variable {σ α : Type}

/-- Replaces one of the documents in an index folder. -/
def saveDocument (folder name : String) (value : Json) : Action σ Unit :=
  replaceDocument (Path.join folder name) (documentBytes value)

/-- Reads one of the documents in an index folder. -/
def loadDocument (d : Disk) (folder name : String) (read : String → Bytes → Except IndexError α) :
    Except IndexError α := IndexContents.document folder (.ofDisk d folder) name read

def Catalogue.save (c : Catalogue) (folder : String) : Action σ Unit :=
  saveDocument folder catalogueName c.toJson

def Catalogue.load (d : Disk) (folder : String) : Except IndexError Catalogue :=
  loadDocument d folder catalogueName readCatalogue

def VectorTable.save (t : VectorTable) (folder : String) : Action σ Unit :=
  saveDocument folder vectorsName t.toJson

def VectorTable.load (d : Disk) (folder : String) : Except IndexError VectorTable :=
  loadDocument d folder vectorsName readVectors

variable {folder name : String} {value : Json} {w w' : World σ}
variable {read : String → Bytes → Except IndexError α}

theorem saveDocument_ok_iff (member : name ∈ documentNames) :
    (run (saveDocument folder name value) w).1 = .ok () ↔ w.disk.Takes folder name :=
  Action.replaceDocument_ok_iff member

/-- What was saved is what is there. -/
theorem contents_of_saveDocument (member : name ∈ documentNames)
    (saved : run (saveDocument folder name value) w = (.ok (), w')) :
    IndexContents.ofDisk w'.disk folder name = .ok (documentBytes value) := by
  rcases Action.replaceDocument_result member saved with ⟨_, same⟩ | ⟨failed, _⟩
  · refine (same name member _).mpr ?_
    simp [IndexContents.replaced]
  · cases failed

theorem loadDocument_of_saveDocument (member : name ∈ documentNames)
    (saved : run (saveDocument folder name value) w = (.ok (), w')) :
    loadDocument w'.disk folder name read = read (Path.join folder name) (documentBytes value) := by
  rw [loadDocument, IndexContents.document, contents_of_saveDocument member saved]

end Lookalike
