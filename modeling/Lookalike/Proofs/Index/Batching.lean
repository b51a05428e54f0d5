import Lookalike.Proofs.Index.Batches
import Lookalike.Proofs.Index.Parallel
import Lookalike.Proofs.Index.History
import Mathlib.Data.List.Induction
import Mathlib.Data.List.Nodup

/-!
# Batches do not show in an index

A provider that answers each text in one way, alone or in a batch, determines what a queue comes to:
every content gets the vector of its text or the reason why there is none. Batches may be of any
size, be in flight together, be answered in any order, and be turned down for one of their texts;
the maps that result are the same, and so are the report and the documents of the whole run.
-/

namespace Lookalike

open Action (run run_bind embedSingly takeIn embedBatches embedQueue ask tell checkCancelled)

/-- Alone the text is turned down, and not because of what it is. -/
def Fatal (f : String → Except EmbedError Embedding) (text : String) : Prop :=
  ∃ cause, f text = .error cause ∧ ¬cause.isInputSpecific

/-- A provider that answers a single text in one way, whatever it was asked before. A batch is
answered with the vectors of its texts in order, or with too many or too few, or it is turned down
as a whole, because of its texts or because one of them is fatal. -/
structure Provider.Deterministic {σ : Type} (p : Provider σ)
    (f : String → Except EmbedError Embedding) : Prop where
  single : ∀ text s, (p.embed text s).1 = f text
  batch : ∀ texts s,
    (∃ vectors, (p.embedBatch texts s).1 = .ok vectors ∧
      (vectors.length = texts.length → vectors.map Except.ok = texts.map f)) ∨
    ∃ cause, (p.embedBatch texts s).1 = .error cause ∧
      (cause.isInputSpecific ∨ ∃ text ∈ texts, Fatal f text)

/-- A provider that embeds a single text in one way: it has a vector, or only the text is at fault.
A batch is answered with the vectors of its texts in order, or with too many or too few, or it is
turned down as a whole because of its texts. -/
structure Provider.Determined {σ : Type} (p : Provider σ)
    (f : String → Except EmbedError Embedding) : Prop where
  single : ∀ text s, (p.embed text s).1 = f text
  specific : ∀ text cause, f text = .error cause → cause.isInputSpecific
  batch : ∀ texts s,
    (∃ vectors, (p.embedBatch texts s).1 = .ok vectors ∧
      (vectors.length = texts.length → vectors.map Except.ok = texts.map f)) ∨
    ∃ cause, (p.embedBatch texts s).1 = .error cause ∧ cause.isInputSpecific

section Determined

variable {σ : Type} {p : Provider σ} {f : String → Except EmbedError Embedding}
  (determined : p.Determined f)

include determined

theorem Provider.Determined.deterministic : p.Deterministic f where
  single := determined.single
  batch := fun texts s => (determined.batch texts s).imp id fun ⟨cause, answer, specific⟩ =>
    ⟨cause, answer, .inl specific⟩

theorem Provider.Determined.not_fatal (text : String) : ¬Fatal f text :=
  fun ⟨cause, answer, other⟩ => other (determined.specific text cause answer)

end Determined

namespace Embedded

variable {f : String → Except EmbedError Embedding} {e : Embedded} {q r : QueuedText}
  {queue : List QueuedText}

/-- Takes in what a text gives on its own. -/
def settle (f : String → Except EmbedError Embedding) (e : Embedded) (q : QueuedText) : Embedded :=
  match f q.text with
  | .ok v => e.addVector q.contentHash v
  | .error cause => e.addFailure q.contentHash cause.message

/-- What a queue comes to when each of its texts is embedded on its own. -/
def settled (f : String → Except EmbedError Embedding) (queue : List QueuedText) : Embedded :=
  queue.foldl (settle f) {}

theorem addBatch_eq {batch : List QueuedText} {vectors : List Embedding}
    (answered : vectors.map Except.ok = (batch.map (·.text)).map f) :
    e.addBatch batch vectors = batch.foldl (settle f) e := by
  induction batch generalizing e vectors with
  | nil => simp [addBatch]
  | cons q batch ih =>
    obtain _ | ⟨v, vectors⟩ := vectors
    · simp at answered
    · obtain ⟨first, rest⟩ := List.cons.inj answered
      have own : e.settle f q = e.addVector q.contentHash v := by
        rw [settle, ← first]
      rw [List.foldl_cons, own]
      exact ih rest

/-- Texts of different contents can be taken in in any order. -/
theorem settle_comm (different : q.contentHash ≠ r.contentHash) :
    (e.settle f q).settle f r = (e.settle f r).settle f q := by
  unfold settle
  cases f q.text <;> cases f r.text <;>
    simp [addVector, addFailure, SortedMap.insert_comm _ different]

/-- Texts of different contents come to the same in any order. -/
theorem foldl_settle_perm {others : List QueuedText}
    (distinct : (queue.map (·.contentHash)).Nodup) (perm : queue.Perm others) (e : Embedded) :
    queue.foldl (settle f) e = others.foldl (settle f) e := by
  apply perm.foldl_eq'
  intro q hq r hr e
  by_cases same : q = r
  · rw [same]
  · apply settle_comm
    exact fun equal => same (List.inj_on_of_nodup_map distinct hq hr equal)

/-- What a queue comes to: the vector of each content, or why it has none, and nothing else. -/
theorem get?_settled (distinct : (queue.map (·.contentHash)).Nodup) (hash : String) :
    (∀ v, (settled f queue).vectors.get? hash = some v ↔
      ∃ q ∈ queue, q.contentHash = hash ∧ f q.text = .ok v) ∧
    ∀ reason, (settled f queue).failures.get? hash = some reason ↔
      ∃ q ∈ queue, q.contentHash = hash ∧ ∃ cause, f q.text = .error cause ∧
        cause.message = reason := by
  induction queue using List.reverseRecOn with
  | nil => simp [settled]
  | append_singleton queue q ih =>
    rw [List.map_append, List.nodup_append] at distinct
    obtain ⟨earlier, _, new⟩ := distinct
    obtain ⟨vectors, failures⟩ := ih earlier
    have last : settled f (queue ++ [q]) = (settled f queue).settle f q := by
      rw [settled, List.foldl_append]
      rfl
    have own (r : QueuedText) (member : r ∈ queue) : r.contentHash ≠ q.contentHash :=
      new _ (List.mem_map_of_mem member) _ (by simp)
    rw [last, settle]
    cases answer : f q.text with
    | ok v =>
      simp only [addVector, SortedMap.get?_insert]
      grind
    | error cause =>
      simp only [addFailure, SortedMap.get?_insert]
      grind

/-- What a queue comes to at one of its contents is what its text gives on its own. -/
theorem get?_settled_of_mem (distinct : (queue.map (·.contentHash)).Nodup) (member : q ∈ queue) :
    (∀ v, (settled f queue).vectors.get? q.contentHash = some v ↔ f q.text = .ok v) ∧
    ∀ reason, (settled f queue).failures.get? q.contentHash = some reason ↔
      ∃ cause, f q.text = .error cause ∧ cause.message = reason := by
  obtain ⟨vectors, failures⟩ := get?_settled (f := f) distinct q.contentHash
  have own {r : QueuedText} (hr : r ∈ queue) (same : r.contentHash = q.contentHash) : r = q :=
    List.inj_on_of_nodup_map distinct hr member same
  refine ⟨fun v => (vectors v).trans ?_, fun reason => (failures reason).trans ?_⟩
  · constructor
    · rintro ⟨r, hr, same, given⟩
      exact own hr same ▸ given
    · exact fun given => ⟨q, member, rfl, given⟩
  · constructor
    · rintro ⟨r, hr, same, refused⟩
      exact own hr same ▸ refused
    · exact fun refused => ⟨q, member, rfl, refused⟩

/-- Every content of a queue has a vector or a reason, and not both. -/
theorem isSome_settled (distinct : (queue.map (·.contentHash)).Nodup) (member : q ∈ queue) :
    ((settled f queue).vectors.get? q.contentHash).isSome ≠
      ((settled f queue).failures.get? q.contentHash).isSome := by
  obtain ⟨vectors, failures⟩ := get?_settled_of_mem (f := f) distinct member
  cases answer : f q.text with
  | ok v =>
    have no_reason : (settled f queue).failures.get? q.contentHash = none := by
      apply Option.eq_none_iff_forall_ne_some.mpr
      intro reason found
      obtain ⟨cause, refused, _⟩ := (failures reason).mp found
      rw [answer] at refused
      cases refused
    rw [(vectors v).mpr answer, no_reason]
    simp
  | error cause =>
    have no_vector : (settled f queue).vectors.get? q.contentHash = none := by
      apply Option.eq_none_iff_forall_ne_some.mpr
      intro v found
      have given := (vectors v).mp found
      rw [answer] at given
      cases given
    rw [(failures cause.message).mpr ⟨cause, answer, rfl⟩, no_vector]
    simp

end Embedded

section Answers

variable {σ α β : Type} {options : IndexOptions}

/-- Whatever the world, an action gives one result, unless it is cancelled. -/
def Yields (options : IndexOptions) (x : Action σ α) (a : α) : Prop :=
  ∀ w, (run x w).1 = .ok a ∨ (run x w).1 = .error .cancelled ∧ options.Stops

/-- Whatever the world, an action gives one result, or it fails where something is fatal, unless it
is cancelled. -/
def ComesTo (options : IndexOptions) (fatal : Prop) (x : Action σ α) (a : α) : Prop :=
  ∀ w, (run x w).1 = .ok a ∧ ¬fatal ∨
    ∃ e, (run x w).1 = .error e ∧ (e = .cancelled ∧ options.Stops ∨ fatal)

variable {fatal others : Prop}

theorem Yields.comesTo {x : Action σ α} {a : α} (h : Yields options x a) :
    ComesTo options False x a :=
  fun w => (h w).imp (⟨·, not_false⟩) fun ⟨stopped, stops⟩ => ⟨_, stopped, .inl ⟨rfl, stops⟩⟩

theorem ComesTo.yields {x : Action σ α} {a : α} (h : ComesTo options fatal x a) (none : ¬fatal) :
    Yields options x a := by
  intro w
  rcases h w with ⟨found, _⟩ | ⟨e, failed, ⟨rfl, stops⟩ | is_fatal⟩
  · exact .inl found
  · exact .inr ⟨failed, stops⟩
  · exact absurd is_fatal none

theorem ComesTo.congr {x : Action σ α} {a : α} (h : ComesTo options fatal x a)
    (same : fatal ↔ others) : ComesTo options others x a := propext same ▸ h

theorem yields_pure (a : α) : Yields options (pure a : Action σ α) a := fun _ => .inl rfl

theorem ComesTo.bind {x : Action σ α} {g : α → Action σ β} {a : α} {b : β}
    (first : ComesTo options fatal x a) (rest : ComesTo options others (g a) b) :
    ComesTo options (fatal ∨ others) (x >>= g) b := by
  intro w
  have ended := first w
  rw [run_bind]
  generalize run x w = result at ended
  obtain ⟨r, v⟩ := result
  rcases ended with ⟨found, none⟩ | ⟨e, failed, why⟩
  · cases found
    rcases rest v with ⟨found, none_later⟩ | ⟨e, failed, why⟩
    · exact .inl ⟨found, not_or.mpr ⟨none, none_later⟩⟩
    · exact .inr ⟨e, failed, why.imp id .inr⟩
  · cases failed
    exact .inr ⟨e, rfl, why.imp id .inl⟩

theorem yields_tell (p : Progress) : Yields options (tell options p : Action σ Unit) () :=
  fun _ => .inl rfl

theorem yields_checkCancelled : Yields options (checkCancelled options : Action σ Unit) () := by
  intro w
  rw [Action.run_checkCancelled]
  split
  next stopped => exact .inr ⟨rfl, _, _, stopped⟩
  next => exact .inl rfl

/-- What follows a question comes to one result if it does so for every answer. -/
theorem comesTo_ask_bind {question : σ → α × σ} {g : α → Action σ β} {b : β}
    (rest : ∀ s, ComesTo options fatal (g (question s).1) b) :
    ComesTo options fatal (ask question >>= g) b := by
  intro w
  rw [run_bind]
  exact rest w.provider _

open Embedded (settle settled)

variable {provider : Provider σ} {f : String → Except EmbedError Embedding}
  (deterministic : provider.Deterministic f)

include deterministic

theorem comesTo_embedSingly (e : Embedded) (queue : List QueuedText) :
    ComesTo options (∃ q ∈ queue, Fatal f q.text) (embedSingly provider e queue)
      (queue.foldl (settle f) e) := by
  induction queue generalizing e with
  | nil => exact (yields_pure e).comesTo.congr (by simp)
  | cons q rest ih =>
    refine comesTo_ask_bind fun s => ?_
    rw [deterministic.single, List.foldl_cons, settle]
    cases answer : f q.text with
    | ok v =>
      refine (ih _).congr ?_
      simp [Fatal, answer]
    | error cause =>
      dsimp only
      split
      next specific =>
        refine (ih _).congr ?_
        simp [Fatal, answer, specific]
      next other =>
        exact fun w => .inr ⟨_, rfl, .inr ⟨q, List.mem_cons_self, cause, answer, other⟩⟩

/-- A batch comes to what its texts come to on their own, in whatever way it is answered. -/
theorem comesTo_takeIn {sent : SentBatch} (answered : sent.AnsweredBy provider) (e : Embedded) :
    ComesTo options (∃ q ∈ sent.batch, Fatal f q.text) (takeIn provider options e sent)
      (sent.batch.foldl (settle f) e) := by
  obtain ⟨batch, answer⟩ := sent
  obtain ⟨s, s', asked⟩ := answered
  have given : (provider.embedBatch (batch.map (·.text)) s).1 = answer := congrArg Prod.fst asked
  refine (yields_checkCancelled.comesTo.bind ?_).congr (iff_of_eq (false_or _))
  rcases deterministic.batch (batch.map (·.text)) s with
    ⟨vectors, accepted, exactly⟩ | ⟨cause, turned_down, why⟩
  · rw [← given, accepted, BatchVerdict.of]
    by_cases whole : vectors.length = batch.length
    · have given := exactly (by rw [whole, List.length_map])
      have none (q : QueuedText) (member : q ∈ batch) : ¬Fatal f q.text := by
        have answered : f q.text ∈ vectors.map Except.ok :=
          given ▸ List.mem_map_of_mem (List.mem_map_of_mem member)
        obtain ⟨v, _, same⟩ := List.mem_map.mp answered
        rintro ⟨cause, refused, _⟩
        rw [refused] at same
        cases same
      rw [if_pos whole, ← Embedded.addBatch_eq given]
      exact (yields_pure _).comesTo.congr (by simpa using none)
    · rw [if_neg whole]
      exact comesTo_embedSingly deterministic e batch
  · rw [← given, turned_down, BatchVerdict.of]
    by_cases specific : cause.isInputSpecific
    · rw [if_pos specific]
      exact comesTo_embedSingly deterministic e batch
    · rw [if_neg specific]
      obtain ⟨text, member, is_fatal⟩ := why.resolve_left specific
      obtain ⟨q, queued, rfl⟩ := List.mem_map.mp member
      exact fun w => .inr ⟨_, rfl, .inr ⟨q, queued, is_fatal⟩⟩

/-- Batches in flight and batches that wait come to what their texts come to on their own, whatever
is sent or taken in next. -/
theorem comesTo_embedBatches (limit total : Nat) (moves : List Move) (done : Nat) (e : Embedded)
    (flying : List SentBatch) (waiting : List (List QueuedText))
    (answered : ∀ sent ∈ flying, sent.AnsweredBy provider)
    (distinct : ((flying.flatMap (·.batch) ++ waiting.flatten).map (·.contentHash)).Nodup) :
    ComesTo options (∃ q ∈ flying.flatMap (·.batch) ++ waiting.flatten, Fatal f q.text)
      (embedBatches provider options limit total moves done e flying waiting)
      ((flying.flatMap (·.batch) ++ waiting.flatten).foldl (settle f) e) := by
  fun_induction embedBatches provider options limit total moves done e flying waiting with
  | case1 moves _ e flying waiting next =>
    cases BatchStep.does_eq next with
    | finish landed sent =>
      subst landed sent
      exact (yields_pure e).comesTo.congr (by simp)
  | case2 moves _ e flying waiting batch rest next ih =>
    cases BatchStep.does_eq next with
    | send first =>
      subst first
      refine comesTo_ask_bind fun s => ?_
      have own : SentBatch.AnsweredBy ⟨batch, (provider.embedBatch (batch.map (·.text)) s).1⟩
          provider := ⟨s, _, rfl⟩
      have texts (answer : Except EmbedError (List Embedding)) :
          (flying ++ [SentBatch.mk batch answer]).flatMap (·.batch) ++ rest.flatten =
            flying.flatMap (·.batch) ++ (batch :: rest).flatten := by simp
      have sent := ih (provider.embedBatch (batch.map (·.text)) s).1
        (List.forall_mem_append.mpr ⟨answered, List.forall_mem_singleton.mpr own⟩)
        (by rwa [texts])
      rwa [texts] at sent
  | case3 moves _ e flying waiting sent rest next ih =>
    cases BatchStep.does_eq next with
    | take perm =>
      have texts : (sent.batch ++ (rest.flatMap (·.batch) ++ waiting.flatten)).Perm
          (flying.flatMap (·.batch) ++ waiting.flatten) := by
        rw [← List.append_assoc, ← List.flatMap_cons]
        exact (perm.flatMap_right (·.batch)).append_right _
      have answered (other : SentBatch) (member : other ∈ sent :: rest) :=
        answered other (perm.mem_iff.mp member)
      have distinct := (texts.map (·.contentHash)).nodup_iff.mpr distinct
      rw [← Embedded.foldl_settle_perm distinct texts, List.foldl_append]
      rw [List.map_append, List.nodup_append] at distinct
      have taken : ComesTo options _ _ _ :=
        comesTo_takeIn deterministic (answered sent List.mem_cons_self) e
      have later := ih (sent.batch.foldl (settle f) e)
        (fun other member => answered other (List.mem_cons_of_mem _ member)) distinct.2.1
      refine (taken.bind ((yields_tell _).comesTo.bind later)).congr ?_
      simp only [← texts.mem_iff, false_or, List.mem_append, or_and_right, exists_or]

/-- A queue comes to what its texts come to on their own, however it is cut into batches and in
whatever order these are answered, if none of them is fatal. -/
theorem comesTo_embedQueue (batchSize concurrency : Nat) (moves : List Move)
    {queue : List QueuedText} (distinct : (queue.map (·.contentHash)).Nodup) :
    ComesTo options (∃ q ∈ queue, Fatal f q.text)
      (embedQueue provider options batchSize concurrency moves queue) (settled f queue) := by
  rw [embedQueue]
  split
  next empty =>
    rw [List.isEmpty_iff.mp empty]
    exact (yields_pure _).comesTo.congr (by simp)
  next =>
    have whole : ([] : List SentBatch).flatMap (·.batch) ++ (batches batchSize queue).flatten =
        queue := flatten_batches batchSize queue
    have all : ComesTo options _ _ _ := comesTo_embedBatches deterministic (max concurrency 1)
      (batches batchSize queue).length moves 0 {} [] (batches batchSize queue) (by simp)
      (by rwa [whole])
    rw [whole] at all
    exact ((yields_tell _).comesTo.bind all).congr (iff_of_eq (false_or _))

omit deterministic in
/-- Where only texts are at fault, a queue comes to one result. -/
theorem yields_embedQueue (determined : provider.Determined f) (batchSize concurrency : Nat)
    (moves : List Move) {queue : List QueuedText}
    (distinct : (queue.map (·.contentHash)).Nodup) :
    Yields options (embedQueue provider options batchSize concurrency moves queue)
      (settled f queue) :=
  (comesTo_embedQueue determined.deterministic batchSize concurrency moves distinct).yields
    fun ⟨q, _, is_fatal⟩ => determined.not_fatal q.text is_fatal

end Answers

section Queues

theorem nodup_queueFrom (seen : List String) (xs : List (Chunk × Decision)) :
    ((queueFrom seen xs).map (·.contentHash)).Nodup ∧
      ∀ q ∈ queueFrom seen xs, q.contentHash ∉ seen := by
  fun_induction queueFrom seen xs with
  | case1 => simp
  | case2 seen c rest known ih => exact ih
  | case3 seen c rest new ih =>
    obtain ⟨distinct, unseen⟩ := ih
    constructor
    · rw [List.map_cons, List.nodup_cons]
      refine ⟨fun member => ?_, distinct⟩
      obtain ⟨q, later, same⟩ := List.mem_map.mp member
      exact unseen q later (by simp [same])
    · intro q member
      rcases List.mem_cons.mp member with rfl | later
      · exact new
      · exact fun before => unseen q later (List.mem_cons_of_mem _ before)
  | case4 seen c decision rest other ih => exact ih

/-- A queue has every content once. -/
theorem nodup_queueOf (plans : List FilePlan) : ((queueOf plans).map (·.contentHash)).Nodup :=
  (nodup_queueFrom [] _).1

end Queues

namespace Session

open Action

variable {σ : Type} {options : IndexOptions}

/-- A session that batches in another way. -/
def rebatched (s : Session σ) (batchSize concurrency : Nat) : Session σ :=
  { s with settings := { s.settings with batchSize, concurrency } }

/-- Nobody else changes the disk, and nobody cancels. -/
def Quiet (options : IndexOptions) : Prop := options.Still ∧ ¬options.Stops

/-- The worlds of two runs after embedding. -/
def Loosely (options : IndexOptions) (w w' : World σ) : Prop := Quiet options → w.disk = w'.disk

/-- Runs that batch differently tell of different steps on the way. Others may take these as the
occasion to cancel a run or to change the disk, and only then may one run fail where another does
not, or the disks differ. -/
def batchingTerms (σ : Type) (options : IndexOptions) : Terms σ where
  failed := Loosely options
  alone := ¬Quiet options

theorem failing_sameView (w w' : World σ) (view : SameView w w') :
    (batchingTerms σ options).failed w w' := fun _ => view.disk

/-- Passive actions that yield one result run in parallel. -/
theorem parallel_of_yields {α : Type} {a : α} {x y : Action σ α} {before : World σ → World σ → Prop}
    (view : ∀ w w', before w w' → Loosely options w w') (left : Yields options x a)
    (right : Yields options y a) (left_passive : Passive options x)
    (right_passive : Passive options y) :
    Parallel (batchingTerms σ options) before (Loosely options) (fun b c => b = a ∧ c = a) x y := by
  intro w w' worlds
  have disks : Loosely options (run x w).2 (run y w').2 := by
    intro quiet
    have at_left : (run x w).2.disk = w.disk :=
      (left_passive w _ _ rfl).reached.eq_of_still quiet.1
    have at_right : (run y w').2.disk = w'.disk :=
      (right_passive w' _ _ rfl).reached.eq_of_still quiet.1
    rw [at_left, at_right]
    exact view w w' worlds quiet
  have left := left w
  have right := right w'
  generalize run x w = ended at disks left
  generalize run y w' = ended' at disks right
  obtain ⟨r, v⟩ := ended
  obtain ⟨r', v'⟩ := ended'
  dsimp only at left right disks
  rcases left with rfl | ⟨rfl, stops⟩
  · rcases right with rfl | ⟨rfl, stops⟩
    · exact .both ⟨rfl, rfl⟩ disks
    · exact .alone (fun quiet => quiet.2 stops) (.inr rfl)
  · exact .alone (fun quiet => quiet.2 stops) (.inl rfl)

theorem parallel_tell_loosely (p : Progress) :
    Parallel (batchingTerms σ options) (Loosely options) (Loosely options) (· = ·)
      (tell options p : Action σ Unit) (tell options p) := by
  intro w w' disks
  rw [run_tell, run_tell]
  refine .both rfl fun quiet => ?_
  rw [quiet.1, quiet.1]
  exact disks quiet

/-- The worlds of two runs at their ends: the documents are the same. -/
structure SameDocuments (options : IndexOptions) (folder : String) (w w' : World σ) : Prop where
  loosely : Loosely options w w'
  documents : IndexContents.Same (.ofDisk w.disk folder) (.ofDisk w'.disk folder)

theorem sameDocuments_of_view {w w' : World σ} (view : SameView w w') (folder : String) :
    SameDocuments options folder w w' where
  loosely := fun _ => view.disk
  documents := by
    rw [view.disk]
    exact fun _ _ _ => Iff.rfl

theorem same_of_held {t : IndexState} {m : Manifest} {contents others : IndexContents}
    (h : IndexState.Held contents t m) (k : IndexState.Held others t m) :
    IndexContents.Same contents others := by
  intro name member bytes
  simp only [documentNames, List.mem_cons, List.not_mem_nil, or_false] at member
  rcases member with rfl | rfl | rfl | rfl
  · rw [h.catalogue, k.catalogue]
  · rw [h.table, k.table]
  · rw [h.files, k.files]
  · rw [h.manifest, k.manifest]

section Writing

/-- The worlds have one disk. -/
def SameDisk (w w' : World σ) : Prop := w.disk = w'.disk

/-- The terms of actions that see and change nothing but the disk. -/
def diskTerms (σ : Type) : Terms σ where
  failed := SameDisk

theorem parallel_changeDisk (change : Disk → Except DiskError Disk) :
    Parallel (diskTerms σ) SameDisk SameDisk (· = ·) (changeDisk change) (changeDisk change) := by
  intro w w' disks
  rw [run_changeDisk, run_changeDisk, disks]
  cases change w'.disk with
  | ok d => exact .both rfl rfl
  | error e => exact .neither disks

theorem parallel_replaceDocuments (folder : String) (documents : List (String × Bytes)) :
    Parallel (diskTerms σ) SameDisk SameDisk (· = ·)
      (documents.forM fun (name, bytes) => replaceDocument (Path.join folder name) bytes)
      (documents.forM fun (name, bytes) => replaceDocument (Path.join folder name) bytes) := by
  induction documents with
  | nil => exact parallel_pure rfl
  | cons first documents ih =>
    exact ((parallel_changeDisk _).bind fun _ _ _ => parallel_changeDisk _).bind fun _ _ _ => ih

/-- What writing a state does depends on the disk only. -/
theorem run_persist_congr (s : Session σ) (t : IndexState) (m : Manifest) {w w' : World σ}
    (disks : w.disk = w'.disk) : (run (s.persist t m) w).1 = (run (s.persist t m) w').1 ∧
      (run (s.persist t m) w).2.disk = (run (s.persist t m) w').2.disk := by
  have ended := ((parallel_changeDisk (·.createFolders s.folder)).bind fun _ _ _ =>
    parallel_replaceDocuments s.folder (t.documents m)) w w' disks
  rw [persist]
  generalize run (changeDisk (·.createFolders s.folder) >>= _) w = left at ended ⊢
  generalize run (changeDisk (·.createFolders s.folder) >>= _) w' = right at ended ⊢
  cases ended with
  | both _ disks => exact ⟨rfl, disks⟩
  | neither disks => exact ⟨rfl, disks⟩
  | alone may => exact may.elim

end Writing

theorem parallel_persist (s : Session σ) (t : IndexState) (m : Manifest) :
    Parallel (batchingTerms σ options) (Loosely options) (SameDocuments options s.folder) (· = ·)
      (s.persist t m) (s.persist t m) := by
  intro w w' worlds
  have quietly (quiet : Quiet options) := run_persist_congr s t m (worlds quiet)
  have left : ∀ v, run (s.persist t m) w = (.ok (), v) → IndexState.Held (s.contents v.disk) t m :=
    fun v => persist_ok
  have right : ∀ v, run (s.persist t m) w' = (.ok (), v) →
    IndexState.Held (s.contents v.disk) t m := fun v => persist_ok
  generalize run (s.persist t m) w = ended at quietly left
  generalize run (s.persist t m) w' = ended' at quietly right
  obtain ⟨r, v⟩ := ended
  obtain ⟨r', v'⟩ := ended'
  dsimp only at quietly
  -- If others interfere, the disks may differ; what is written is the same nevertheless.
  by_cases quiet : Quiet options
  · obtain ⟨rfl, disks⟩ := quietly quiet
    cases r with
    | error e => exact .neither fun _ => disks
    | ok => exact .both rfl ⟨fun _ => disks, same_of_held (left v rfl) (right v' rfl)⟩
  · cases r with
    | error e => exact .alone quiet (.inl rfl)
    | ok =>
      cases r' with
      | error e => exact .alone quiet (.inr rfl)
      | ok =>
        exact .both rfl ⟨fun q => absurd q quiet, same_of_held (left v rfl) (right v' rfl)⟩

/-- How the sessions are left when their runs end side by side. -/
theorem conclude_rebatched (s : Session σ) (batchSize concurrency : Nat)
    {left right : Except IndexError (IndexState × IndexReport) × World σ}
    (ended : Ends (batchingTerms σ options) (SameDocuments options s.folder) (· = ·) left right) :
    ((s.conclude left).1 = ((s.rebatched batchSize concurrency).conclude right).1 ∧
      (s.conclude left).2.1.state =
        ((s.rebatched batchSize concurrency).conclude right).2.1.state ∧
      SameDocuments options s.folder (s.conclude left).2.2
        ((s.rebatched batchSize concurrency).conclude right).2.2) ∨
    ¬Quiet options ∧ ((s.conclude left).1.isOk = false ∨
      ((s.rebatched batchSize concurrency).conclude right).1.isOk = false) := by
  cases ended with
  | both same worlds =>
    subst same
    exact .inl ⟨rfl, rfl, worlds⟩
  | neither disks =>
    by_cases quiet : Quiet options
    · refine .inl ⟨rfl, rfl, disks, ?_⟩
      dsimp only [conclude]
      rw [disks quiet]
      exact fun _ _ _ => Iff.rfl
    · exact .inr ⟨quiet, .inl rfl⟩
  | alone may failed =>
    rw [isOk_conclude, isOk_conclude]
    exact .inr ⟨may, failed⟩

variable {f : String → Except EmbedError Embedding} {s : Session σ}
  (determined : s.provider.Determined f) (outside : Surroundings) (batchSize concurrency : Nat)
  (moves : List Move)

include determined

theorem parallel_update (base : IndexState) (rebuilt : Bool) (diff : FileDiff) :
    Parallel (batchingTerms σ options) SameView (SameDocuments options s.folder) (· = ·)
      (s.update outside options base rebuilt diff)
      ((s.rebatched batchSize concurrency).update { outside with moves } options base rebuilt
        diff) := by
  let other : Surroundings := { outside with moves }
  have cut (d : Disk) (path : String) : s.cutFile outside.parse d path =
      (s.rebatched batchSize concurrency).cutFile other.parse d path := rfl
  have plan {d d' : Draft} (same : d = d') (f : CutFile) : (d.planFile base f).1 =
      (d'.planFile base f).1 ∧ (d.planFile base f).2 = (d'.planFile base f).2 := by
    rw [same]
    exact ⟨rfl, rfl⟩
  refine (parallel_planFiles observed_sameView failing_sameView _ cut plan rfl 0 _ _).bind ?_
  rintro ⟨draft, plans⟩ ⟨_, _⟩ ⟨same, same_plans⟩
  cases same
  cases same_plans
  refine (parallel_checkCancelled observed_sameView failing_sameView).bind fun _ _ _ => ?_
  -- Up to here the runs have asked and told the same, afterwards only the vectors are.
  refine (parallel_of_yields failing_sameView
    (yields_embedQueue determined s.settings.batchSize s.settings.concurrency outside.moves
      (nodup_queueOf plans))
    (yields_embedQueue determined batchSize concurrency moves (nodup_queueOf plans))
    (passive_embedQueue _ _ _ _ _) (passive_embedQueue _ _ _ _ _)).bind ?_
  rintro _ _ ⟨rfl, rfl⟩
  refine (parallel_ofExcept (fun _ _ => id) (agree_self (fun _ => rfl) _)).bind ?_
  rintro applied _ rfl
  refine (parallel_of_yields (fun _ _ => id) yields_checkCancelled yields_checkCancelled
    passive_checkCancelled passive_checkCancelled).bind fun _ _ _ => ?_
  refine (parallel_tell_loosely _).bind fun _ _ _ => ?_
  exact (parallel_writeOut (fun _ _ => id) rfl rfl (parallel_persist s applied.state _)).bind
    fun _ _ _ => parallel_pure rfl

variable (options)

/-- Runs that batch differently go on side by side. -/
theorem parallel_bringUpToDate :
    Parallel (batchingTerms σ options) SameView (SameDocuments options s.folder) (· = ·)
      (s.bringUpToDate outside options)
      ((s.rebatched batchSize concurrency).bringUpToDate { outside with moves } options) := by
  refine parallel_get.bind fun w w' view => ?_
  have prepared : s.prepare w.disk options.force =
      (s.rebatched batchSize concurrency).prepare w'.disk options.force := by
    rw [view.disk]
    rfl
  rw [prepared]
  refine (parallel_ofExcept failing_sameView (agree_self (fun _ => rfl) _)).bind ?_
  rintro ⟨base, rebuilt⟩ _ rfl
  refine (parallel_checkCancelled observed_sameView failing_sameView).bind fun _ _ _ => ?_
  refine (parallel_tell observed_sameView _).bind fun _ _ _ => ?_
  refine parallel_get.bind fun v v' view => ?_
  rw [view.disk]
  refine (parallel_ofExcept failing_sameView (agree_self (fun _ => rfl) _)).bind ?_
  rintro current _ rfl
  refine (parallel_tell observed_sameView _).bind fun _ _ _ => ?_
  dsimp only
  split
  · exact (parallel_pure rfl).imp (fun _ _ => id) fun _ _ view =>
      sameDocuments_of_view view s.folder
  · exact parallel_update determined outside batchSize concurrency moves base rebuilt _

end Session

namespace Attempt

open Session (Quiet)

variable {σ : Type}

/-- The same run with other batches, which are answered in another order, and with the provider in
any state. -/
def rebatched (a : Attempt σ) (batchSize concurrency : Nat) (moves : List Move) (p : σ) :
    Attempt σ where
  session := a.session.rebatched batchSize concurrency
  world := { a.world with provider := p }
  outside := { a.outside with moves }
  options := a.options

/-- Two runs end alike: they report the same and leave one state and the same documents. -/
structure SameEnd (a b : Attempt σ) : Prop where
  result : a.result = b.result
  state : a.after.session.state = b.after.session.state
  documents : IndexContents.Same (a.session.contents a.after.world.disk)
    (b.session.contents b.after.world.disk)

variable {f : String → Except EmbedError Embedding} {a : Attempt σ}

/-- Runs that batch differently end alike, unless somebody interferes and one of them fails. -/
theorem rebatched_result (determined : a.session.provider.Determined f)
    (batchSize concurrency : Nat) (moves : List Move) (p : σ) :
    a.SameEnd (a.rebatched batchSize concurrency moves p) ∧ (Quiet a.options →
        a.after.world.disk = (a.rebatched batchSize concurrency moves p).after.world.disk) ∨
      ¬Quiet a.options ∧ (a.result.isOk = false ∨
        (a.rebatched batchSize concurrency moves p).result.isOk = false) := by
  have ended := Session.parallel_bringUpToDate a.options determined a.outside batchSize concurrency
    moves { a.world with events := [], checks := 0 }
    { a.world with provider := p, events := [], checks := 0 } ⟨rfl, rfl, rfl⟩
  rcases Session.conclude_rebatched a.session batchSize concurrency ended with
    ⟨result, state, worlds⟩ | apart
  · exact .inl ⟨⟨result, state, worlds.documents⟩, worlds.loosely⟩
  · exact .inr apart

/-- Batching does not show. What a queue comes to is determined by its texts: every content has its
vector or the reason why there is none, for every way to cut the queue and every order of answers,
unless the run is cancelled meanwhile. So runs that batch differently report the same and leave the
same state and documents if both succeed, and without interference they end alike in any case. -/
theorem batching_does_not_show (determined : a.session.provider.Determined f) :
    (∀ queue : List QueuedText, (queue.map (·.contentHash)).Nodup → ∃ e : Embedded,
      (∀ hash v, e.vectors.get? hash = some v ↔
        ∃ q ∈ queue, q.contentHash = hash ∧ f q.text = .ok v) ∧
      (∀ hash reason, e.failures.get? hash = some reason ↔
        ∃ q ∈ queue, q.contentHash = hash ∧
          ∃ cause, f q.text = .error cause ∧ cause.message = reason) ∧
      (∀ q ∈ queue, (e.vectors.get? q.contentHash).isSome ≠
        (e.failures.get? q.contentHash).isSome) ∧
      ∀ options batchSize concurrency moves w,
        (run (embedQueue a.session.provider options batchSize concurrency moves queue) w).1 =
          .ok e ∨
        (run (embedQueue a.session.provider options batchSize concurrency moves queue) w).1 =
          .error .cancelled ∧ options.Stops) ∧
    ∀ batchSize concurrency moves p,
      (∀ r r', a.result = .ok r →
        (a.rebatched batchSize concurrency moves p).result = .ok r' →
        r = r' ∧ a.SameEnd (a.rebatched batchSize concurrency moves p)) ∧
      (Quiet a.options → a.SameEnd (a.rebatched batchSize concurrency moves p) ∧
        a.after.world.disk = (a.rebatched batchSize concurrency moves p).after.world.disk) := by
  constructor
  · intro queue distinct
    have found := Embedded.get?_settled (f := f) distinct
    exact ⟨Embedded.settled f queue, fun hash => (found hash).1, fun hash => (found hash).2,
      fun q => Embedded.isSome_settled distinct, fun options batchSize concurrency moves =>
        yields_embedQueue determined batchSize concurrency moves distinct⟩
  · intro batchSize concurrency moves p
    have ended := rebatched_result determined batchSize concurrency moves p
    constructor
    · intro r r' one other
      rcases ended with ⟨same, _⟩ | ⟨_, failed⟩
      · have results := same.result
        rw [one, other] at results
        exact ⟨Except.ok.inj results, same⟩
      · rw [one, other] at failed
        rcases failed with failed | failed <;> cases failed
    · intro quiet
      rcases ended with ⟨same, disks⟩ | ⟨interfered, _⟩
      · exact ⟨same, disks quiet⟩
      · exact absurd quiet interfered

section Sample

/-- A provider that turns down what contains one bad text and answers long batches with nothing. -/
def pickyProvider : Provider Nat where
  name := "picky"
  model := "picky"
  dimension := some 1
  answer := fun _ texts calls =>
    (if "bad" ∈ texts then .error (.malformed "bad")
      else if 2 < texts.length then .ok [] else .ok (texts.map fun _ => #[1]), calls + 1)

def pickyAnswer (text : String) : Except EmbedError Embedding :=
  if text = "bad" then .error (.malformed "bad") else .ok #[1]

theorem determined_pickyProvider : pickyProvider.Determined pickyAnswer where
  single := by
    intro text calls
    by_cases bad : text = "bad"
    · simp [Provider.embed, Provider.embedBatch, pickyProvider, pickyAnswer, Provider.single, bad]
    · have other : "bad" ≠ text := Ne.symm bad
      simp [Provider.embed, Provider.embedBatch, pickyProvider, pickyAnswer, Provider.single, bad,
        other]
  specific := by
    intro text cause refused
    rw [pickyAnswer] at refused
    split at refused <;> cases refused
    rfl
  batch := by
    intro texts calls
    simp only [Provider.embedBatch, pickyProvider]
    by_cases bad : "bad" ∈ texts
    · exact .inr ⟨_, by rw [if_pos bad], rfl⟩
    · rw [if_neg bad]
      by_cases long : 2 < texts.length
      · refine .inl ⟨[], by rw [if_pos long], fun same => ?_⟩
        rw [← same] at long
        simp at long
      · refine .inl ⟨texts.map fun _ => #[1], by rw [if_neg long], fun _ => ?_⟩
        rw [List.map_map]
        apply List.map_congr_left
        intro text member
        have good : text ≠ "bad" := fun same => bad (same ▸ member)
        simp [pickyAnswer, good]

def pickySample : Attempt Nat where
  session := .new "/r" pickyProvider {}
  world := { disk := ({} : Disk).withFile "r/x.js" [65], provider := 0 }
  outside := { now := ⟨0, 0⟩, parse := fun _ _ => none }
  options := {}

/-- One bad text of three leaves the others their vectors, in whatever batches they come. -/
theorem batching_does_not_show_pickySample :
    (∃ e : Embedded, e.vectors.get? "1" = some #[1] ∧ e.failures.get? "2" =
        some (EmbedError.malformed "bad").message ∧ e.vectors.get? "3" = some #[1] ∧
      ∀ batchSize concurrency moves w,
        (run (embedQueue pickyProvider {} batchSize concurrency moves
          [⟨"1", "a"⟩, ⟨"2", "bad"⟩, ⟨"3", "c"⟩]) w).1 = .ok e) ∧
    ∀ batchSize concurrency moves p,
      pickySample.SameEnd (pickySample.rebatched batchSize concurrency moves p) := by
  have unstopped : ¬IndexOptions.Stops {} := by
    rintro ⟨_, _, stopped⟩
    cases stopped
  obtain ⟨queues, runs⟩ := batching_does_not_show (a := pickySample) determined_pickyProvider
  constructor
  · obtain ⟨e, vectors, failures, _, embeds⟩ :=
      queues [⟨"1", "a"⟩, ⟨"2", "bad"⟩, ⟨"3", "c"⟩] (by decide)
    refine ⟨e, (vectors _ _).mpr ⟨⟨"1", "a"⟩, by decide, rfl, rfl⟩,
      (failures _ _).mpr ⟨⟨"2", "bad"⟩, by decide, rfl, _, rfl, rfl⟩,
      (vectors _ _).mpr ⟨⟨"3", "c"⟩, by decide, rfl, rfl⟩, ?_⟩
    intro batchSize concurrency moves w
    exact (embeds {} batchSize concurrency moves w).resolve_right fun stopped =>
      unstopped stopped.2
  · intro batchSize concurrency moves p
    exact ((runs batchSize concurrency moves p).2
      ⟨IndexOptions.still_of_none rfl, unstopped⟩).1

end Sample

end Attempt

end Lookalike
