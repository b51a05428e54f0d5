import Lookalike.Proofs.Index.Carrying

/-!
# What drafts do not depend on

Whether a report tells of a discarded index does not matter for what becomes of a draft. And where
nothing was indexed before, no chunk takes over a vector: none is planned to, and the report counts
none.
-/

namespace Lookalike

section Marks

/-- A report that tells otherwise whether an index was discarded. -/
def IndexReport.marked (rebuilt : Bool) (r : IndexReport) : IndexReport := { r with rebuilt }

namespace Draft

variable (rebuilt : Bool) {embedded : Embedded}

def marked (d : Draft) : Draft := { d with report := d.report.marked rebuilt }

theorem forgetFiles_marked (deleted : List String) (d : Draft) :
    deleted.foldl forgetFile (d.marked rebuilt) = (deleted.foldl forgetFile d).marked rebuilt :=
  List.foldl_hom (marked rebuilt) fun _ _ => rfl

theorem planFile_marked (base : IndexState) (d : Draft) (f : CutFile) :
    (d.marked rebuilt).planFile base f =
      ((d.planFile base f).1.marked rebuilt, (d.planFile base f).2) := by
  have dropped (comesBack gone : List String) (d : Draft) :
      gone.foldl (dropChunk comesBack) (d.marked rebuilt) =
        (gone.foldl (dropChunk comesBack) d).marked rebuilt :=
    List.foldl_hom (marked rebuilt) fun _ _ => rfl
  obtain ⟨path, hash, chunks⟩ := f
  cases chunks with
  | ok chunks => exact Prod.ext (dropped _ _ d) rfl
  | error reason => exact Prod.ext (dropped _ _ (d.skip path reason)) rfl

theorem store_marked (d : Draft) (c : Chunk) (v : Embedding) :
    (d.marked rebuilt).store c v = (d.store c v).map (marked rebuilt) := by
  rw [store, store]
  show (d.state.table.upsert c.id v >>= _) = (d.state.table.upsert c.id v >>= _).map _
  cases d.state.table.upsert c.id v <;> rfl

theorem carryOut_marked (d : Draft) (c : Chunk) (decision : Decision) :
    (d.marked rebuilt).carryOut embedded c decision =
      (d.carryOut embedded c decision).map fun (e, present) => (e.marked rebuilt, present) := by
  cases decision with
  | keep => rfl
  | reuse v =>
    simp only [carryOut, store_marked]
    cases d.store c v <;> rfl
  | embed =>
    simp only [carryOut]
    split
    next v _ =>
      rw [store_marked]
      cases d.store c v <;> rfl
    next => rfl

theorem carryOutAll_marked (d : Draft) (xs : List (Chunk × Decision)) :
    (d.marked rebuilt).carryOutAll embedded xs =
      (d.carryOutAll embedded xs).map fun (e, complete) => (e.marked rebuilt, complete) := by
  induction xs generalizing d with
  | nil => rfl
  | cons x xs ih =>
    obtain ⟨c, decision⟩ := x
    rw [carryOutAll, carryOutAll, carryOut_marked]
    cases d.carryOut embedded c decision with
    | error cause => rfl
    | ok first =>
      obtain ⟨e, present⟩ := first
      show (carryOutAll embedded (e.marked rebuilt) xs >>= _) =
        (carryOutAll embedded e xs >>= _).map _
      rw [ih]
      cases carryOutAll embedded e xs <;> rfl

theorem applyPlan_marked (d : Draft) (p : FilePlan) :
    (d.marked rebuilt).applyPlan embedded p = (d.applyPlan embedded p).map (marked rebuilt) := by
  rw [applyPlan, applyPlan, carryOutAll_marked]
  cases d.carryOutAll embedded p.chunks <;> rfl

/-- The mark on the report does not matter when plans are carried out. -/
theorem applyPlans_marked (d : Draft) (plans : List FilePlan) :
    (d.marked rebuilt).applyPlans embedded plans =
      (d.applyPlans embedded plans).map (marked rebuilt) := by
  induction plans generalizing d with
  | nil => rfl
  | cons p plans ih =>
    rw [applyPlans, applyPlans, List.foldlM_cons, List.foldlM_cons, applyPlan_marked]
    cases d.applyPlan embedded p with
    | error cause => rfl
    | ok e => exact ih e

end Draft

end Marks

section Reuse

/-- None of the chunks takes over a vector. -/
def NoReuse (xs : List (Chunk × Decision)) : Prop := ∀ x ∈ xs, ∀ v, x.2 ≠ .reuse v

/-- Where nothing was indexed before there is no vector to take over. -/
theorem IndexState.decision_ne_reuse {base : IndexState} (nothing : base.catalogue = .empty)
    (s : IndexState) (c : Chunk) (v : Embedding) : s.decision base c ≠ .reuse v := by
  intro reused
  obtain ⟨same, found, _⟩ := IndexState.reuse_known reused
  rw [nothing] at found
  cases found

namespace Draft

variable {embedded : Embedded} {d e : Draft}

theorem reused_carryOut {c : Chunk} {decision : Decision} {present : Bool}
    (h : d.carryOut embedded c decision = .ok (e, present)) (own : ∀ v, decision ≠ .reuse v) :
    e.report.chunksReused = d.report.chunksReused := by
  cases carryOut_cases h with
  | kept => rfl
  | reused => exact absurd rfl (own _)
  | embedded => rfl
  | missed => rfl

theorem reused_carryOutAll {xs : List (Chunk × Decision)} {complete : Bool}
    (h : d.carryOutAll embedded xs = .ok (e, complete)) (own : NoReuse xs) :
    e.report.chunksReused = d.report.chunksReused := by
  induction xs generalizing d complete with
  | nil =>
    cases h
    rfl
  | cons x xs ih =>
    obtain ⟨d', present, others_complete, first, others, _⟩ := carryOutAll_cons h
    have ⟨first_own, others_own⟩ := List.forall_mem_cons.mp own
    exact (ih others others_own).trans (reused_carryOut first first_own)

theorem reused_applyPlans {plans : List FilePlan} (h : d.applyPlans embedded plans = .ok e)
    (own : ∀ p ∈ plans, NoReuse p.chunks) : e.report.chunksReused = d.report.chunksReused := by
  induction plans generalizing d with
  | nil =>
    cases h
    rfl
  | cons p plans ih =>
    obtain ⟨d', first, others⟩ := applyPlans_cons h
    obtain ⟨d'', complete, all, rfl⟩ := applyPlan_ok first
    obtain ⟨first_own, others_own⟩ := List.forall_mem_cons.mp own
    have at_first : d''.report.chunksReused = d.report.chunksReused :=
      reused_carryOutAll all first_own
    exact (ih others others_own).trans at_first

theorem reused_planFile (base : IndexState) (d : Draft) (f : CutFile) :
    (d.planFile base f).1.report.chunksReused = d.report.chunksReused := by
  have dropped (comesBack gone : List String) (d : Draft) :
      (gone.foldl (dropChunk comesBack) d).report.chunksReused = d.report.chunksReused :=
    read_foldl (·.report.chunksReused) (dropChunk comesBack) (fun _ _ => rfl) gone d
  obtain ⟨path, hash, chunks⟩ := f
  cases chunks with
  | ok chunks => exact dropped _ _ d
  | error reason => exact dropped _ _ (d.skip path reason)

theorem reused_planAll {base : IndexState} (nothing : base.catalogue = .empty) (d : Draft)
    (cuts : List CutFile) : (d.planAll base cuts).1.report.chunksReused = d.report.chunksReused ∧
      ∀ p ∈ (d.planAll base cuts).2, NoReuse p.chunks := by
  induction cuts generalizing d with
  | nil => exact ⟨rfl, by simp [planAll]⟩
  | cons f cuts ih =>
    obtain ⟨later, later_own⟩ := ih (d.planFile base f).1
    have own : NoReuse (d.planFile base f).2.chunks := by
      rw [planFile_plan]
      intro x member
      obtain ⟨c, _, rfl⟩ := List.mem_map.mp member
      exact IndexState.decision_ne_reuse nothing d.state c
    exact ⟨later.trans (reused_planFile base d f), List.forall_mem_cons.mpr ⟨own, later_own⟩⟩

end Draft

end Reuse

end Lookalike
