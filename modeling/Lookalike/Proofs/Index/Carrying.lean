import Lookalike.Proofs.Index.Planning

/-!
# Carrying out the plans

The second pass over the files that changed carries out the decisions on their chunks and records
the files. A chunk that is waited for in vain lands nowhere, and its file is marked as pending. What
is found under an identity afterwards landed, or was found there before.
-/

namespace Lookalike

open IndexState (Regular)

section Carrying

namespace Decision

/-- Whether a chunk is in the index once the decision on it is carried out. -/
def lands (embedded : Embedded) (c : Chunk) : Decision → Bool
  | .keep | .reuse _ => true
  | .embed => (embedded.vectors.get? c.contentHash).isSome

/-- The vector that carrying out the decision puts under the identity of the chunk. -/
def vector? (embedded : Embedded) (c : Chunk) : Decision → Option Embedding
  | .keep => none
  | .reuse vector => some vector
  | .embed => embedded.vectors.get? c.contentHash

theorem lands_of_vector? {embedded : Embedded} {c : Chunk} {decision : Decision} {v : Embedding}
    (h : decision.vector? embedded c = some v) : decision.lands embedded c := by
  cases decision with
  | keep => rfl
  | reuse => rfl
  | embed =>
    simp only [vector?] at h
    simp [lands, h]

/-- A chunk that lands without a vector of its own is one that is kept. -/
theorem keep_of_lands {embedded : Embedded} {c : Chunk} {decision : Decision}
    (lands : decision.lands embedded c) (none_own : decision.vector? embedded c = none) :
    decision = .keep := by
  cases decision with
  | keep => rfl
  | reuse => cases none_own
  | embed =>
    simp only [vector?] at none_own
    simp [Decision.lands, none_own] at lands

end Decision

/-- What is reported of a chunk that is waited for in vain. -/
def Embedded.failure (embedded : Embedded) (c : Chunk) : FailedChunk :=
  ⟨c.id, c.filePath, (embedded.failures.get? c.contentHash).getD "not embedded"⟩

/-- What carrying out the decision on one chunk makes of a state. -/
structure Carried (embedded : Embedded) (c : Chunk) (decision : Decision) (s t : IndexState) :
    Prop where
  catalogue : t.catalogue = if decision.lands embedded c then s.catalogue.set c else s.catalogue
  table : ∀ id, t.table.get? id =
    if c.id = id then (decision.vector? embedded c).or (s.table.get? id) else s.table.get? id
  uniform : s.table.Uniform → t.table.Uniform

namespace Carried

variable {embedded : Embedded} {c : Chunk} {decision : Decision} {s t : IndexState}

theorem get?_catalogue (h : Carried embedded c decision s t) (id : String) :
    t.catalogue.get? id =
      if c.id = id ∧ decision.lands embedded c then some c else s.catalogue.get? id := by
  rw [h.catalogue]
  by_cases lands : decision.lands embedded c
  · simp [lands]
  · simp [lands]

theorem regular (h : Carried embedded c decision s t) (r : Regular s)
    (genuine : Chunk.CutFrom c.filePath c) : Regular t where
  wellFormed := by
    rw [h.catalogue]
    split
    · exact Catalogue.wellFormed_set r.wellFormed c
    · exact r.wellFormed
  genuine := by
    intro id x found
    rw [h.get?_catalogue] at found
    split at found
    next =>
      cases found
      exact genuine
    next => exact r.genuine id x found
  cataloged := by
    intro id found
    rw [h.table] at found
    rw [h.get?_catalogue]
    by_cases own : c.id = id
    · rw [if_pos own] at found
      cases put : decision.vector? embedded c with
      | some v => simp [Decision.lands_of_vector? put, own]
      | none =>
        rw [put, Option.none_or] at found
        split
        · rfl
        · exact r.cataloged id found
    · rw [if_neg own] at found
      rw [if_neg fun both => own both.1]
      exact r.cataloged id found
  uniform := h.uniform r.uniform

end Carried

namespace Draft

variable {embedded : Embedded} {d e : Draft}

theorem store_ok {c : Chunk} {v : Embedding} (h : d.store c v = .ok e) :
    ∃ table, d.state.table.upsert c.id v = .ok table ∧
      e = { d with state := { d.state with table, catalogue := d.state.catalogue.set c } } := by
  obtain ⟨table, upserted, same⟩ := bind_eq_ok.mp h
  cases same
  exact ⟨table, upserted, rfl⟩

/-- All that carrying out the decision on one chunk can do to a draft. -/
inductive CarriesOut (embedded : Embedded) (d : Draft) (c : Chunk) : Decision → Draft → Bool → Prop
  | kept : CarriesOut embedded d c .keep
      { d with state := { d.state with catalogue := d.state.catalogue.set c } } true
  | reused {v : Embedding} {table : VectorTable} (put : d.state.table.upsert c.id v = .ok table) :
      CarriesOut embedded d c (.reuse v)
        { state := { d.state with table, catalogue := d.state.catalogue.set c }
          report := { d.report with chunksReused := d.report.chunksReused + 1 } } true
  | embedded {v : Embedding} {table : VectorTable}
      (given : embedded.vectors.get? c.contentHash = some v)
      (put : d.state.table.upsert c.id v = .ok table) :
      CarriesOut embedded d c .embed
        { state := { d.state with table, catalogue := d.state.catalogue.set c }
          report := { d.report with chunksEmbedded := d.report.chunksEmbedded + 1 } } true
  | missed (missing : embedded.vectors.get? c.contentHash = none) :
      CarriesOut embedded d c .embed
        (d.fail c ((embedded.failures.get? c.contentHash).getD "not embedded")) false

theorem carryOut_cases {c : Chunk} {decision : Decision} {present : Bool}
    (h : d.carryOut embedded c decision = .ok (e, present)) :
    CarriesOut embedded d c decision e present := by
  cases decision with
  | keep =>
    cases h
    exact .kept
  | reuse v =>
    obtain ⟨d', put, same⟩ := bind_eq_ok.mp h
    cases same
    obtain ⟨table, upserted, rfl⟩ := store_ok put
    exact .reused upserted
  | embed =>
    simp only [carryOut] at h
    split at h
    next v given =>
      obtain ⟨d', put, same⟩ := bind_eq_ok.mp h
      cases same
      obtain ⟨table, upserted, rfl⟩ := store_ok put
      exact .embedded given upserted
    next missing =>
      cases h
      exact .missed missing

theorem carryOut_carried {c : Chunk} {decision : Decision} {present : Bool}
    (h : d.carryOut embedded c decision = .ok (e, present)) :
    Carried embedded c decision d.state e.state ∧ present = decision.lands embedded c ∧
      e.state.files = d.state.files ∧ e.state.manifest = d.state.manifest := by
  have stored {v : Embedding} {table : VectorTable} (put : d.state.table.upsert c.id v = .ok table)
      (id : String) : table.get? id = if c.id = id then (some v).or (d.state.table.get? id)
        else d.state.table.get? id := VectorTable.get?_upsert put id
  cases carryOut_cases h with
  | kept => exact ⟨⟨rfl, fun id => by simp [Decision.vector?], id⟩, rfl, rfl, rfl⟩
  | reused put =>
    exact ⟨⟨rfl, stored put, fun u => VectorTable.uniform_upsert u put⟩, rfl, rfl, rfl⟩
  | embedded given put =>
    refine ⟨⟨?_, fun id => ?_, fun u => VectorTable.uniform_upsert u put⟩, ?_, rfl, rfl⟩
    · simp [Decision.lands, given]
    · rw [Decision.vector?, given]
      exact stored put id
    · simp [Decision.lands, given]
  | missed missing =>
    refine ⟨⟨?_, fun id => ?_, id⟩, ?_, rfl, rfl⟩
    · simp [Decision.lands, missing, fail]
    · simp [Decision.vector?, missing, fail]
    · simp [Decision.lands, missing]

theorem failed_carryOut {c : Chunk} {decision : Decision} {present : Bool}
    (h : d.carryOut embedded c decision = .ok (e, present)) :
    e.report.classes = d.report.classes ∧ e.report.failedChunks =
      d.report.failedChunks ++ if decision.lands embedded c then [] else [embedded.failure c] := by
  cases carryOut_cases h with
  | kept => simp [Decision.lands]
  | reused => simp [Decision.lands, IndexReport.classes]
  | embedded given => simp [Decision.lands, IndexReport.classes, given]
  | missed missing =>
    simp [Decision.lands, IndexReport.classes, missing, fail, Embedded.failure]

theorem carryOutAll_cons {c : Chunk} {decision : Decision} {xs : List (Chunk × Decision)}
    {complete : Bool} (h : d.carryOutAll embedded ((c, decision) :: xs) = .ok (e, complete)) :
    ∃ d' present others, d.carryOut embedded c decision = .ok (d', present) ∧
      d'.carryOutAll embedded xs = .ok (e, others) ∧ complete = (present && others) := by
  obtain ⟨⟨d', present⟩, first, h⟩ := bind_eq_ok.mp h
  obtain ⟨⟨e', others⟩, rest, same⟩ := bind_eq_ok.mp h
  cases same
  exact ⟨d', present, others, first, rest, rfl⟩

theorem applyPlan_ok {p : FilePlan} (h : d.applyPlan embedded p = .ok e) :
    ∃ d' complete, d.carryOutAll embedded p.chunks = .ok (d', complete) ∧
      e = { d' with state :=
        d'.state.recordFile p.path (if complete then p.hash else pendingHash) } := by
  obtain ⟨⟨d', complete⟩, all, same⟩ := bind_eq_ok.mp h
  cases same
  exact ⟨d', complete, all, rfl⟩

theorem applyPlans_cons {p : FilePlan} {plans : List FilePlan}
    (h : d.applyPlans embedded (p :: plans) = .ok e) :
    ∃ d', d.applyPlan embedded p = .ok d' ∧ d'.applyPlans embedded plans = .ok e := by
  rw [applyPlans, List.foldlM_cons] at h
  exact bind_eq_ok.mp h

end Draft

/-- What carrying out some decisions makes of the stores of a state. -/
inductive CarriedAll (embedded : Embedded) :
    List (Chunk × Decision) → IndexState → IndexState → Prop
  | nil {s t : IndexState} (catalogue : t.catalogue = s.catalogue) (table : t.table = s.table) :
      CarriedAll embedded [] s t
  | cons {c : Chunk} {decision : Decision} {rest : List (Chunk × Decision)} {s t u : IndexState}
      (first : Carried embedded c decision s t) (others : CarriedAll embedded rest t u) :
      CarriedAll embedded ((c, decision) :: rest) s u

namespace CarriedAll

variable {embedded : Embedded} {xs ys : List (Chunk × Decision)} {s t u : IndexState}

/-- Only the stores matter. -/
theorem of_stores (catalogue : t.catalogue = s.catalogue) (table : t.table = s.table)
    (h : CarriedAll embedded ys t u) : CarriedAll embedded ys s u := by
  cases h with
  | nil later_catalogue later_table =>
    exact .nil (later_catalogue.trans catalogue) (later_table.trans table)
  | cons first others =>
    refine .cons ⟨?_, ?_, ?_⟩ others
    · rw [← catalogue]
      exact first.catalogue
    · rw [← table]
      exact first.table
    · rw [← table]
      exact first.uniform

theorem append (h : CarriedAll embedded xs s t) (k : CarriedAll embedded ys t u) :
    CarriedAll embedded (xs ++ ys) s u := by
  induction h with
  | nil catalogue table => exact of_stores catalogue table k
  | cons first _ ih => exact .cons first (ih k)

theorem regular (h : CarriedAll embedded xs s t) (r : Regular s)
    (genuine : ∀ x ∈ xs, Chunk.CutFrom x.1.filePath x.1) : Regular t := by
  induction h with
  | nil catalogue table =>
    exact ⟨catalogue ▸ r.wellFormed, catalogue ▸ r.genuine,
      by rw [catalogue, table]; exact r.cataloged, table ▸ r.uniform⟩
  | @cons c decision rest s t u first others ih =>
    have genuine_first := genuine (c, decision) List.mem_cons_self
    exact ih (first.regular r genuine_first) fun x hx => genuine x (List.mem_cons_of_mem _ hx)

section Presence

/-- A chunk is found afterwards if it was before or if one with its identity landed. -/
theorem isSome_catalogue (h : CarriedAll embedded xs s t) (id : String) :
    (t.catalogue.get? id).isSome ↔ (s.catalogue.get? id).isSome ∨
      ∃ x ∈ xs, x.1.id = id ∧ x.2.lands embedded x.1 := by
  induction h with
  | nil catalogue => simp [catalogue]
  | @cons c decision rest s t u first others ih =>
    rw [ih, first.get?_catalogue]
    by_cases landed : c.id = id ∧ decision.lands embedded c
    · simp [landed]
    · simp [landed]

/-- A vector is found afterwards if one was before or if one was put there. -/
theorem isSome_table (h : CarriedAll embedded xs s t) (id : String) :
    (t.table.get? id).isSome ↔ (s.table.get? id).isSome ∨
      ∃ x ∈ xs, x.1.id = id ∧ (x.2.vector? embedded x.1).isSome := by
  induction h with
  | nil _ table => simp [table]
  | @cons c decision rest s t u first others ih =>
    rw [ih, first.table]
    by_cases own : c.id = id
    · cases put : decision.vector? embedded c <;> simp [own, put]
    · simp [own]

/-- What is found afterwards is a chunk that landed, or it was found before and none landed there.
-/
theorem found (h : CarriedAll embedded xs s t) {id : String} {c : Chunk}
    (there : t.catalogue.get? id = some c) :
    (∃ x ∈ xs, x.1 = c ∧ c.id = id ∧ x.2.lands embedded x.1) ∨
      (s.catalogue.get? id = some c ∧ ∀ x ∈ xs, x.1.id = id → ¬x.2.lands embedded x.1) := by
  induction h with
  | nil catalogue =>
    rw [catalogue] at there
    exact .inr ⟨there, by simp⟩
  | @cons d decision rest s t u first others ih =>
    rcases ih there with ⟨x, hx, landed⟩ | ⟨before, none_landed⟩
    · exact .inl ⟨x, List.mem_cons_of_mem _ hx, landed⟩
    · rw [first.get?_catalogue] at before
      split at before
      next landed =>
        cases before
        exact .inl ⟨_, List.mem_cons_self, rfl, landed⟩
      next fails =>
        refine .inr ⟨before, fun x hx own landed => ?_⟩
        rcases List.mem_cons.mp hx with rfl | hx
        · exact fails ⟨own, landed⟩
        · exact none_landed x hx own landed

/-- What no chunk has the identity of is left alone. -/
theorem frame (h : CarriedAll embedded xs s t) {id : String} (foreign : ∀ x ∈ xs, x.1.id ≠ id) :
    t.catalogue.get? id = s.catalogue.get? id ∧ t.table.get? id = s.table.get? id := by
  induction h with
  | nil catalogue table => simp [catalogue, table]
  | @cons c decision rest s t u first others ih =>
    have different : c.id ≠ id := foreign (c, decision) List.mem_cons_self
    have ⟨catalogue, table⟩ := ih fun x hx => foreign x (List.mem_cons_of_mem _ hx)
    rw [catalogue, table, first.get?_catalogue, first.table, if_neg different]
    exact ⟨if_neg fun both => different both.1, rfl⟩

end Presence

end CarriedAll

/-- The hash that is recorded for a file: that of its content if all its chunks landed. -/
def FilePlan.recorded (embedded : Embedded) (p : FilePlan) : String :=
  if p.chunks.all fun x => x.2.lands embedded x.1 then p.hash else pendingHash

namespace Draft

variable {embedded : Embedded} {d e : Draft}

theorem carryOutAll_carried {xs : List (Chunk × Decision)} {complete : Bool}
    (h : d.carryOutAll embedded xs = .ok (e, complete)) :
    CarriedAll embedded xs d.state e.state ∧ (complete = xs.all fun x => x.2.lands embedded x.1) ∧
      e.state.files = d.state.files ∧ e.state.manifest = d.state.manifest := by
  induction xs generalizing d complete with
  | nil =>
    cases h
    exact ⟨.nil rfl rfl, rfl, rfl, rfl⟩
  | cons x xs ih =>
    obtain ⟨c, decision⟩ := x
    obtain ⟨d', present, others_complete, first, others, rfl⟩ := carryOutAll_cons h
    obtain ⟨carried, lands, files, manifest⟩ := carryOut_carried first
    obtain ⟨all_carried, all_land, all_files, all_manifest⟩ := ih others
    exact ⟨.cons carried all_carried, by rw [List.all_cons, lands, all_land],
      all_files.trans files, all_manifest.trans manifest⟩

/-- The chunks that do not land are reported as failed, in order. -/
theorem failed_carryOutAll {xs : List (Chunk × Decision)} {complete : Bool}
    (h : d.carryOutAll embedded xs = .ok (e, complete)) :
    e.report.classes = d.report.classes ∧
      e.report.failedChunks = d.report.failedChunks ++
        (xs.filter fun x => !x.2.lands embedded x.1).map fun x => embedded.failure x.1 := by
  induction xs generalizing d complete with
  | nil =>
    cases h
    simp
  | cons x xs ih =>
    obtain ⟨c, decision⟩ := x
    obtain ⟨d', present, others_complete, first, others, rfl⟩ := carryOutAll_cons h
    obtain ⟨first_classes, first_failed⟩ := failed_carryOut first
    obtain ⟨classes, failed⟩ := ih others
    refine ⟨classes.trans first_classes, ?_⟩
    rw [failed, first_failed]
    by_cases lands : decision.lands embedded c <;> simp [lands]

theorem applyPlan_carried {p : FilePlan} (h : d.applyPlan embedded p = .ok e) :
    CarriedAll embedded p.chunks d.state e.state ∧
      e.state.files = d.state.files.insert p.path (p.recorded embedded) ∧
      e.state.manifest = d.state.manifest := by
  obtain ⟨d', complete, all, rfl⟩ := applyPlan_ok h
  obtain ⟨carried, lands, files, manifest⟩ := carryOutAll_carried all
  refine ⟨?_, ?_, manifest⟩
  · have to_end : CarriedAll embedded [] d'.state
        (d'.state.recordFile p.path (if complete then p.hash else pendingHash)) := .nil rfl rfl
    simpa using carried.append to_end
  · simp only [IndexState.recordFile, FilePlan.recorded, files, lands]

theorem failed_applyPlans {plans : List FilePlan} (h : d.applyPlans embedded plans = .ok e) :
    e.report.classes = d.report.classes ∧ e.report.failedChunks = d.report.failedChunks ++
      ((plans.flatMap (·.chunks)).filter fun x => !x.2.lands embedded x.1).map fun x =>
        embedded.failure x.1 := by
  induction plans generalizing d with
  | nil =>
    cases h
    simp
  | cons p plans ih =>
    obtain ⟨d', first, others⟩ := applyPlans_cons h
    obtain ⟨d'', complete, all, rfl⟩ := applyPlan_ok first
    obtain ⟨first_classes, first_failed⟩ := failed_carryOutAll all
    obtain ⟨classes, failed⟩ := ih others
    refine ⟨classes.trans first_classes, ?_⟩
    rw [failed, first_failed]
    simp

/-- The hash that some plans record for a path, if one of them does. -/
def recordedBy (embedded : Embedded) (plans : List FilePlan) (files : Snapshot) : Snapshot :=
  plans.foldl (fun files p => files.insert p.path (p.recorded embedded)) files

theorem applyPlans_carried {plans : List FilePlan} (h : d.applyPlans embedded plans = .ok e) :
    CarriedAll embedded (plans.flatMap (·.chunks)) d.state e.state ∧
      e.state.files = recordedBy embedded plans d.state.files ∧
      e.state.manifest = d.state.manifest := by
  induction plans generalizing d with
  | nil =>
    cases h
    exact ⟨.nil rfl rfl, rfl, rfl⟩
  | cons p plans ih =>
    obtain ⟨d', first, others⟩ := applyPlans_cons h
    obtain ⟨carried, files, manifest⟩ := applyPlan_carried first
    obtain ⟨all_carried, all_files, all_manifest⟩ := ih others
    refine ⟨carried.append all_carried, ?_, all_manifest.trans manifest⟩
    rw [all_files, files]
    rfl

theorem get?_recordedBy_other (embedded : Embedded) {plans : List FilePlan} (files : Snapshot)
    {path : String}
    (other : ∀ p ∈ plans, p.path ≠ path) :
    (recordedBy embedded plans files).get? path = files.get? path := by
  induction plans generalizing files with
  | nil => rfl
  | cons p plans ih =>
    have rest := ih (files.insert p.path (p.recorded embedded)) fun q hq =>
      other q (List.mem_cons_of_mem p hq)
    rw [SortedMap.get?_insert, if_neg (other p List.mem_cons_self)] at rest
    exact rest

theorem get?_recordedBy {plans : List FilePlan} {files : Snapshot}
    (distinct : (plans.map (·.path)).Nodup) {p : FilePlan} (member : p ∈ plans) :
    (recordedBy embedded plans files).get? p.path = some (p.recorded embedded) := by
  induction plans generalizing files with
  | nil => simp at member
  | cons q plans ih =>
    have ⟨q_new, distinct⟩ := List.nodup_cons.mp distinct
    rcases List.mem_cons.mp member with rfl | member
    · have apart : ∀ q ∈ plans, q.path ≠ p.path := fun q hq same =>
        q_new (List.mem_map.mpr ⟨q, hq, same⟩)
      have rest := get?_recordedBy_other embedded (files.insert p.path (p.recorded embedded)) apart
      rw [SortedMap.get?_insert, if_pos rfl] at rest
      exact rest
    · exact ih distinct member

end Draft

end Carrying

end Lookalike
