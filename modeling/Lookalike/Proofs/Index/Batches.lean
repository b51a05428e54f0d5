import Lookalike.Proofs.Index.Run
import Mathlib.Data.List.Perm.Basic

/-!
# What embedding a queue gives

Batches are answered in any order, and those that are rejected are embedded again text by text. In
whatever way a text of the queue comes to its vector, the vector suits it if the answers of the
provider do; and a text that is left without one was refused.
-/

namespace Lookalike

open Action (run run_bind_ok embedSingly takeIn embedBatches embedQueue)

section Order

variable {α : Type}

theorem flatten_batches (size : Nat) (xs : List α) : (batches size xs).flatten = xs := by
  fun_induction batches size xs with
  | case1 => rfl
  | case2 x rest ih => rw [List.flatten_cons, ih, List.cons_append, List.take_append_drop]

end Order

/-- The answer is one that the provider gives to the texts of the batch. -/
def SentBatch.AnsweredBy {σ : Type} (sent : SentBatch) (p : Provider σ) : Prop :=
  ∃ s s', p.embedBatch (sent.batch.map (·.text)) s = (sent.answer, s')

/-- A batch is accepted with as many vectors as it has texts, and with no others. -/
theorem BatchVerdict.of_eq_accepted {count : Nat} {answer : Except EmbedError (List Embedding)}
    {vectors : List Embedding} :
    BatchVerdict.of count answer = .accepted vectors ↔
      vectors.length = count ∧ answer = .ok vectors := by
  cases answer with
  | error cause =>
    rw [BatchVerdict.of]
    split <;> exact ⟨nofun, nofun⟩
  | ok given =>
    rw [BatchVerdict.of, Except.ok.injEq]
    split
    next whole =>
      rw [BatchVerdict.accepted.injEq]
      exact ⟨fun same => ⟨same ▸ whole, same⟩, And.right⟩
    next other => exact ⟨nofun, fun ⟨length, same⟩ => absurd (same ▸ length) other⟩

/-- The answers of a provider: a vector suits the text that it is given for, and a text for which
only itself is at fault is refused. -/
structure Provider.Answers {σ : Type} (p : Provider σ) (Suits : String → Embedding → Prop)
    (Refused : String → Prop) : Prop where
  batch : ∀ texts vectors s s', p.embedBatch texts s = (.ok vectors, s') →
    vectors.length = texts.length → ∀ x ∈ texts.zip vectors, Suits x.1 x.2
  single : ∀ text v s s', p.embed text s = (.ok v, s') → Suits text v
  refused : ∀ text cause s s', p.embed text s = (.error cause, s') → cause.isInputSpecific →
    Refused text

variable {Suits : String → Embedding → Prop} {Refused : String → Prop}

theorem Provider.Answers.imp {σ : Type} {p : Provider σ} {Fits : String → Embedding → Prop}
    {Unfit : String → Prop} (h : p.Answers Suits Refused)
    (given : ∀ text v, Suits text v → Fits text v) (refused : ∀ text, Refused text → Unfit text) :
    p.Answers Fits Unfit where
  batch := fun texts vectors s s' answered length x member =>
    given x.1 x.2 (h.batch texts vectors s s' answered length x member)
  single := fun text v s s' answered => given text v (h.single text v s s' answered)
  refused := fun text cause s s' answered specific =>
    refused text (h.refused text cause s s' answered specific)

namespace Embedded

/-- Some queued texts are dealt with: vectors suit them, and those without one were refused. -/
structure Covers (Suits : String → Embedding → Prop) (Refused : String → Prop)
    (done : List QueuedText) (e : Embedded) : Prop where
  given : ∀ hash v, e.vectors.get? hash = some v →
    ∃ q ∈ done, q.contentHash = hash ∧ Suits q.text v
  missing : ∀ q ∈ done, e.vectors.get? q.contentHash = none → Refused q.text

variable {done : List QueuedText} {e : Embedded}

theorem covers_nothing : Covers Suits Refused [] {} where
  given := by intro hash v found; cases found
  missing := by simp

theorem Covers.congr (h : Covers Suits Refused done e) {others : List QueuedText}
    (same : ∀ q, q ∈ others ↔ q ∈ done) : Covers Suits Refused others e where
  given := by
    intro hash v found
    obtain ⟨q, member, suits⟩ := h.given hash v found
    exact ⟨q, (same q).mpr member, suits⟩
  missing := fun q member => h.missing q ((same q).mp member)

theorem Covers.addVector (h : Covers Suits Refused done e) {q : QueuedText} {v : Embedding}
    (suits : Suits q.text v) :
    Covers Suits Refused (done ++ [q]) (e.addVector q.contentHash v) where
  given := by
    intro hash w found
    rw [Embedded.addVector, SortedMap.get?_insert] at found
    split at found
    next own =>
      cases found
      exact ⟨q, by simp, own, suits⟩
    next =>
      obtain ⟨r, member, suits⟩ := h.given hash w found
      exact ⟨r, List.mem_append_left _ member, suits⟩
  missing := by
    intro r member absent
    rw [Embedded.addVector, SortedMap.get?_insert] at absent
    split at absent
    next => cases absent
    next other =>
      rcases List.mem_append.mp member with member | member
      · exact h.missing r member absent
      · exact absurd (congrArg _ (List.mem_singleton.mp member).symm) other

theorem Covers.addFailure (h : Covers Suits Refused done e) {q : QueuedText} (reason : String)
    (refused : Refused q.text) :
    Covers Suits Refused (done ++ [q]) (e.addFailure q.contentHash reason) where
  given := by
    intro hash v found
    obtain ⟨r, member, suits⟩ := h.given hash v found
    exact ⟨r, List.mem_append_left _ member, suits⟩
  missing := by
    intro r member absent
    rcases List.mem_append.mp member with member | member
    · exact h.missing r member absent
    · rw [List.mem_singleton.mp member]
      exact refused

theorem Covers.addBatch (h : Covers Suits Refused done e) {batch : List QueuedText}
    {vectors : List Embedding} (length : vectors.length = batch.length)
    (suits : ∀ x ∈ (batch.map (·.text)).zip vectors, Suits x.1 x.2) :
    Covers Suits Refused (done ++ batch) (e.addBatch batch vectors) := by
  induction batch generalizing done e vectors with
  | nil => simpa [Embedded.addBatch] using h
  | cons q batch ih =>
    obtain _ | ⟨v, vectors⟩ := vectors
    · simp at length
    have first := h.addVector (suits (q.text, v) List.mem_cons_self)
    have rest := ih first (by simpa using length) fun x member =>
      suits x (List.mem_cons_of_mem _ member)
    simpa [Embedded.addBatch] using rest

end Embedded

section Embedding

open Embedded (Covers covers_nothing)

variable {σ : Type} {provider : Provider σ} (answers : provider.Answers Suits Refused)
variable {options : IndexOptions} {done : List QueuedText} {e e' : Embedded} {w w' : World σ}

include answers

theorem covers_embedSingly {queue : List QueuedText} (h : Covers Suits Refused done e)
    (ran : run (embedSingly provider e queue) w = (.ok e', w')) :
    Covers Suits Refused (done ++ queue) e' := by
  induction queue generalizing done e w with
  | nil =>
    cases ran
    simpa using h
  | cons q queue ih =>
    obtain ⟨answer, w₁, asked, ran⟩ := run_bind_ok.mp ran
    have asked_single : provider.embed q.text w.provider = (answer, w₁.provider) := by
      cases asked
      rfl
    rw [List.append_cons]
    cases answer with
    | ok v => exact ih (h.addVector (answers.single _ _ _ _ asked_single)) ran
    | error cause =>
      dsimp only at ran
      split at ran
      next refused =>
        exact ih (h.addFailure _ (answers.refused _ _ _ _ asked_single refused)) ran
      next => cases ran

theorem covers_takeIn {sent : SentBatch} (answered : sent.AnsweredBy provider)
    (h : Covers Suits Refused done e)
    (ran : run (takeIn provider options e sent) w = (.ok e', w')) :
    Covers Suits Refused (done ++ sent.batch) e' := by
  obtain ⟨_, w₁, _, ran⟩ := run_bind_ok.mp ran
  cases verdict : BatchVerdict.of sent.batch.length sent.answer with
  | rejected =>
    rw [verdict] at ran
    exact covers_embedSingly answers h ran
  | fatal cause =>
    rw [verdict] at ran
    cases ran
  | accepted vectors =>
    rw [verdict] at ran
    cases ran
    obtain ⟨length, given⟩ := BatchVerdict.of_eq_accepted.mp verdict
    obtain ⟨s, s', asked⟩ := answered
    rw [given] at asked
    exact h.addBatch length (answers.batch _ _ _ _ asked (by simpa using length))

/-- Batches that are in flight or wait are dealt with in the end. -/
theorem covers_embedBatches {limit total number : Nat} {moves : List Move}
    {flying : List SentBatch} {waiting : List (List QueuedText)}
    (answered : ∀ sent ∈ flying, sent.AnsweredBy provider) (h : Covers Suits Refused done e)
    (ran : run (embedBatches provider options limit total moves number e flying waiting) w =
      (.ok e', w')) :
    Covers Suits Refused (done ++ (flying.flatMap (·.batch) ++ waiting.flatten)) e' := by
  fun_induction embedBatches provider options limit total moves number e flying waiting
    generalizing done w with
  | case1 moves _ _ flying waiting next =>
    cases ran
    cases BatchStep.does_eq next with
    | finish landed sent =>
      subst landed sent
      simpa using h
  | case2 moves _ _ flying waiting batch rest next ih =>
    obtain ⟨answer, w₁, asked, ran⟩ := run_bind_ok.mp ran
    have own : SentBatch.AnsweredBy ⟨batch, answer⟩ provider := by
      refine ⟨w.provider, w₁.provider, ?_⟩
      cases asked
      rfl
    have covers := ih answer (List.forall_mem_append.mpr
      ⟨answered, List.forall_mem_singleton.mpr own⟩) h ran
    cases BatchStep.does_eq next with
    | send first =>
      subst first
      simpa using covers
  | case3 moves _ _ flying waiting sent rest next ih =>
    obtain ⟨e₁, w₁, taken, ran⟩ := run_bind_ok.mp ran
    obtain ⟨_, w₂, _, ran⟩ := run_bind_ok.mp ran
    cases BatchStep.does_eq next with
    | take perm =>
      have answered (other : SentBatch) (member : other ∈ sent :: rest) :=
        answered other (perm.mem_iff.mp member)
      have first := covers_takeIn answers (answered sent List.mem_cons_self) h taken
      have covers := ih e₁ (fun other member => answered other (List.mem_cons_of_mem _ member))
        first ran
      refine covers.congr fun q => ?_
      simp only [List.mem_append, ← (perm.flatMap_right (·.batch)).mem_iff, List.flatMap_cons]
      tauto

/-- Embedding a queue deals with all of it. -/
theorem covers_embedQueue {batchSize concurrency : Nat} {moves : List Move}
    {queue : List QueuedText}
    (ran : run (embedQueue provider options batchSize concurrency moves queue) w = (.ok e, w')) :
    Covers Suits Refused queue e := by
  rw [embedQueue] at ran
  split at ran
  next empty =>
    cases ran
    rw [List.isEmpty_iff.mp empty]
    exact covers_nothing
  next =>
    obtain ⟨_, w₁, _, ran⟩ := run_bind_ok.mp ran
    have covers := covers_embedBatches answers (by simp) covers_nothing ran
    rwa [List.flatMap_nil, List.nil_append, List.nil_append, flatten_batches] at covers

end Embedding

section Queue

variable {xs : List (Chunk × Decision)} {plans : List FilePlan}

theorem mem_queueFrom {seen : List String} {q : QueuedText} (h : q ∈ queueFrom seen xs) :
    ∃ c, (c, .embed) ∈ xs ∧ q = ⟨c.contentHash, c.text⟩ := by
  fun_induction queueFrom seen xs with
  | case1 => cases h
  | case2 seen c rest known ih =>
    obtain ⟨d, member, same⟩ := ih h
    exact ⟨d, List.mem_cons_of_mem _ member, same⟩
  | case3 seen c rest new ih =>
    rcases List.mem_cons.mp h with rfl | later
    · exact ⟨c, List.mem_cons_self, rfl⟩
    · obtain ⟨d, member, same⟩ := ih later
      exact ⟨d, List.mem_cons_of_mem _ member, same⟩
  | case4 seen c decision rest other ih =>
    obtain ⟨d, member, same⟩ := ih h
    exact ⟨d, List.mem_cons_of_mem _ member, same⟩

theorem exists_mem_queueFrom {seen : List String} {c : Chunk} (h : (c, .embed) ∈ xs) :
    c.contentHash ∈ seen ∨ ∃ q ∈ queueFrom seen xs, q.contentHash = c.contentHash := by
  fun_induction queueFrom seen xs with
  | case1 => cases h
  | case2 seen d rest known ih =>
    rcases List.mem_cons.mp h with same | later
    · cases same
      exact .inl known
    · exact ih later
  | case3 seen d rest new ih =>
    rcases List.mem_cons.mp h with same | later
    · cases same
      exact .inr ⟨_, List.mem_cons_self, rfl⟩
    · rcases ih later with known | ⟨q, member, same⟩
      · rcases List.mem_cons.mp known with same | known
        · exact .inr ⟨_, List.mem_cons_self, same.symm⟩
        · exact .inl known
      · exact .inr ⟨q, List.mem_cons_of_mem _ member, same⟩
  | case4 seen d decision rest other ih =>
    rcases List.mem_cons.mp h with same | later
    · cases same
      exact (other rfl).elim
    · exact ih later

/-- A queue has the contents of the chunks that wait, and no others. -/
theorem mem_queueOf {q : QueuedText} (h : q ∈ queueOf plans) :
    ∃ c, (c, .embed) ∈ plans.flatMap (·.chunks) ∧ q = ⟨c.contentHash, c.text⟩ := mem_queueFrom h

theorem exists_mem_queueOf {c : Chunk} (h : (c, .embed) ∈ plans.flatMap (·.chunks)) :
    ∃ q ∈ queueOf plans, q.contentHash = c.contentHash :=
  (exists_mem_queueFrom h).resolve_left (by simp)

end Queue

end Lookalike
