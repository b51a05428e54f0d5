import Lookalike.Proofs.Index.Reading

/-!
# What ends a reading

The reader of a document and the checks behind it fail in one way only: the index is corrupt. A
folder that is read document by document can fail in two more ways, and both are the disk's: a
document is not there, or the disk refuses it. One that is missing beside a manifest is corruption.
-/

namespace Lookalike

/-- A reading that ends because of what the documents hold, or because one is missing. -/
def Corrupt {α : Type} (result : Except IndexError α) : Prop :=
  ∃ path reason, result = .error (.corruptIndex path reason)

/-- A reading that nothing else can end. -/
def OnlyCorrupt {α : Type} (result : Except IndexError α) : Prop :=
  ∀ e, result = .error e → Corrupt (.error e : Except IndexError α)

section Sequencing

variable {α β : Type}

theorem bind_eq_error {x : Except IndexError α} {f : α → Except IndexError β} {e : IndexError} :
    x >>= f = .error e ↔ x = .error e ∨ ∃ a, x = .ok a ∧ f a = .error e := by
  cases x <;> simp [bind, Except.bind]

theorem onlyCorrupt_ok (a : α) : OnlyCorrupt (.ok a : Except IndexError α) := by
  intro e failed
  cases failed

theorem onlyCorrupt_corruptIndex (path reason : String) :
    OnlyCorrupt (.error (.corruptIndex path reason) : Except IndexError α) := by
  intro e failed
  cases failed
  exact ⟨path, reason, rfl⟩

theorem OnlyCorrupt.corrupt {result : Except IndexError α} (h : OnlyCorrupt result)
    (failed : ∀ a, result ≠ .ok a) : Corrupt result := by
  cases result with
  | ok a => exact absurd rfl (failed a)
  | error e => exact h e rfl

/-- A reading is ended by corruption if its first step can only be ended so and the rest is. -/
theorem OnlyCorrupt.bind {x : Except IndexError α} {f : α → Except IndexError β}
    (first : OnlyCorrupt x) (rest : ∀ a, Corrupt (f a)) : Corrupt (x >>= f) := by
  cases x with
  | ok a => exact rest a
  | error e =>
    obtain ⟨path, reason, same⟩ := first e rfl
    cases same
    exact ⟨path, reason, rfl⟩

theorem Corrupt.bind {x : Except IndexError α} (f : α → Except IndexError β) (h : Corrupt x) :
    Corrupt (x >>= f) := by
  obtain ⟨path, reason, rfl⟩ := h
  exact ⟨path, reason, rfl⟩

theorem Corrupt.ne_noIndex {result : Except IndexError α} (h : Corrupt result) (path : String) :
    result ≠ .error (.noIndex path) := by
  obtain ⟨_, _, rfl⟩ := h
  exact fun same => by cases same

end Sequencing

theorem onlyCorrupt_readManifest (path : String) (bytes : Bytes) :
    OnlyCorrupt (readManifest path bytes) := by
  rw [readManifest]
  split
  next => exact onlyCorrupt_ok _
  next => exact onlyCorrupt_corruptIndex _ _

theorem onlyCorrupt_readCatalogue (path : String) (bytes : Bytes) :
    OnlyCorrupt (readCatalogue path bytes) := by
  simp only [readCatalogue]
  split
  next => exact onlyCorrupt_corruptIndex _ _
  next =>
    split
    next => exact onlyCorrupt_corruptIndex _ _
    next =>
      split
      next => exact onlyCorrupt_corruptIndex _ _
      next => exact onlyCorrupt_ok _

theorem onlyCorrupt_readVectors (path : String) (bytes : Bytes) :
    OnlyCorrupt (readVectors path bytes) := by
  rw [readVectors]
  split
  next => exact onlyCorrupt_corruptIndex _ _
  next =>
    split
    next => exact onlyCorrupt_ok _
    next =>
      split
      next => exact onlyCorrupt_corruptIndex _ _
      next => exact onlyCorrupt_ok _

theorem onlyCorrupt_readFiles (path : String) (bytes : Bytes) :
    OnlyCorrupt (readFiles path bytes) := by
  rw [readFiles]
  split
  next => exact onlyCorrupt_ok _
  next => exact onlyCorrupt_corruptIndex _ _

theorem Manifest.onlyCorrupt_checkCounts (m : Manifest) (folder : String) (chunks files : Nat) :
    OnlyCorrupt (m.checkCounts folder chunks files) := by
  rw [checkCounts]
  split
  next => exact onlyCorrupt_corruptIndex _ _
  next => exact onlyCorrupt_ok _

namespace IndexContents

variable {α : Type} {folder name : String} {contents : IndexContents}
variable {read : String → Bytes → Except IndexError α}

theorem document_eq_noIndex (reads : ∀ path bytes, OnlyCorrupt (read path bytes)) {path : String} :
    document folder contents name read = .error (.noIndex path) ↔
      contents name = .error .notFound ∧ path = Path.join folder name := by
  rw [document]
  split
  next bytes there =>
    rw [there]
    refine iff_of_false (fun failed => ?_) (fun absent => by cases absent.1)
    exact (reads _ _ _ failed).ne_noIndex path rfl
  next absent =>
    rw [absent]
    simp only [Except.error.injEq, IndexError.noIndex.injEq, true_and]
    exact eq_comm
  next refused =>
    rw [refused]
    exact iff_of_false (fun failed => by cases failed) (fun absent => by cases absent.1)

theorem onlyCorrupt_document (reads : ∀ path bytes, OnlyCorrupt (read path bytes)) {bytes : Bytes}
    (there : contents name = .ok bytes) : OnlyCorrupt (document folder contents name read) := by
  rw [document, there]
  exact reads _ bytes

/-- A missing document beside a manifest. -/
theorem corrupt_companion (absent : contents name = .error .notFound) :
    Corrupt (companion folder contents name read) := by
  rw [companion, document, absent]
  exact ⟨Path.join folder name, s!"missing from {folder}", rfl⟩

theorem onlyCorrupt_companion (reads : ∀ path bytes, OnlyCorrupt (read path bytes))
    (allowed : contents name ≠ .error .refused) :
    OnlyCorrupt (companion folder contents name read) := by
  cases found : contents name with
  | ok bytes =>
    intro e failed
    rw [companion] at failed
    split at failed
    next =>
      cases failed
      exact ⟨_, _, rfl⟩
    next => exact onlyCorrupt_document reads found e failed
  | error e =>
    cases e with
    | notFound =>
      have corrupt : Corrupt (companion folder contents name read) := corrupt_companion found
      obtain ⟨path, reason, failed⟩ := corrupt
      rw [failed]
      exact onlyCorrupt_corruptIndex path reason
    | refused => exact absurd found allowed

theorem companion_ne_noIndex (path : String) :
    companion folder contents name read ≠ .error (.noIndex path) := by
  intro failed
  rw [companion] at failed
  split at failed
  next => cases failed
  next others => exact others path failed

end IndexContents

namespace IndexState

theorem onlyCorrupt_checkAgreement (folder : String) (m : Manifest) (c : Catalogue)
    (t : VectorTable) (files : Snapshot) : OnlyCorrupt (checkAgreement folder m c t files) := by
  simp only [checkAgreement]
  split
  next => exact onlyCorrupt_corruptIndex _ _
  next =>
    split
    next => exact onlyCorrupt_corruptIndex _ _
    next =>
      split
      next =>
        split
        next => exact onlyCorrupt_corruptIndex _ _
        next => exact m.onlyCorrupt_checkCounts _ _ _
      next => exact m.onlyCorrupt_checkCounts _ _ _

end IndexState

end Lookalike
