import Lookalike.Proofs.Index.Batches
import Lookalike.Proofs.Index.Persisting
import Mathlib.Data.List.Flatten

/-!
# What a provider is asked

A provider can be made to write down what it is asked, and how it answers, without answering
otherwise. Of a run only the embedding of the queue asks anything. It asks for the batches in their
order, some before the answers to others are taken in, and as long as none is rejected it asks for
nothing else: each text is asked for once at most, and once exactly if every batch is accepted and
the run is not cancelled before the last answer is taken in.
-/

namespace Lookalike

open Action (run run_bind run_bind_result embedSingly takeIn embedBatches embedQueue ask tell
  checkCancelled changeDisk)

/-- Texts that a provider was asked for at once, with its answer. -/
structure Asked where
  texts : List String
  answer : Except EmbedError (List Embedding)

namespace Asked

/-- What the answer means for a batch of these texts. -/
def verdict (a : Asked) : BatchVerdict := .of a.texts.length a.answer

def accepted (a : Asked) : Bool :=
  match a.verdict with
  | .accepted _ => true
  | _ => false

def rejected (a : Asked) : Bool :=
  match a.verdict with
  | .rejected => true
  | _ => false

theorem not_rejected_of_accepted {a : Asked} (h : a.accepted) : a.rejected = false := by
  rw [accepted] at h
  rw [rejected]
  cases verdict : a.verdict with
  | accepted vectors => rfl
  | rejected =>
    rw [verdict] at h
    cases h
  | fatal cause => rfl

end Asked

/-- What was asked for a batch. -/
def SentBatch.asked (sent : SentBatch) : Asked := ⟨sent.batch.map (·.text), sent.answer⟩

/-- The same provider, which writes down what it is asked. -/
def Provider.recording {σ : Type} (p : Provider σ) : Provider (σ × List Asked) :=
  { name := p.name
    model := p.model
    dimension := p.dimension
    answer := fun model texts s =>
      let (answer, t) := p.answer model texts s.1
      (answer, t, s.2 ++ [⟨texts, answer⟩]) }

/-- What was asked so far. -/
def World.asked {σ : Type} (w : World (σ × List Asked)) : List Asked := w.provider.2

section Silence

variable {σ α β : Type} {options : IndexOptions}

/-- The action asks nothing. -/
def Silent (x : Action σ α) : Prop := ∀ w, (run x w).2.provider = w.provider

theorem Silent.provider_eq {x : Action σ α} (silent : Silent x) {w w' : World σ}
    {r : Except IndexError α} (h : run x w = (r, w')) : w'.provider = w.provider := by
  have same := silent w
  rwa [h] at same

theorem Silent.asked_eq {x : Action (σ × List Asked) α} (silent : Silent x)
    {w w' : World (σ × List Asked)} {r : Except IndexError α} (h : run x w = (r, w')) :
    w'.asked = w.asked := congrArg Prod.snd (silent.provider_eq h)

theorem silent_pure (a : α) : Silent (pure a : Action σ α) := fun _ => rfl

theorem silent_ofExcept (result : Except IndexError α) :
    Silent (Action.ofExcept result : Action σ α) := fun _ => rfl

theorem silent_get : Silent (get : Action σ (World σ)) := fun _ => rfl

theorem silent_tell (p : Progress) : Silent (tell options p : Action σ Unit) := fun _ => rfl

theorem silent_checkCancelled : Silent (checkCancelled options : Action σ Unit) := by
  intro w
  rw [Action.run_checkCancelled]

theorem silent_bind {x : Action σ α} {f : α → Action σ β} (first : Silent x)
    (rest : ∀ a, Silent (f a)) : Silent (x >>= f) := by
  intro w
  have begun := first w
  rw [run_bind]
  generalize run x w = ended at begun
  obtain ⟨e | a, v⟩ := ended
  · exact begun
  · exact (rest a v).trans begun

theorem silent_changeDisk (change : Disk → Except DiskError Disk) :
    Silent (changeDisk change : Action σ Unit) := by
  intro w
  rw [Action.run_changeDisk]
  cases change w.disk <;> rfl

theorem silent_persist (s : Session σ) (state : IndexState) (m : Manifest) :
    Silent (s.persist state m) := by
  refine silent_bind (silent_changeDisk _) fun _ => ?_
  induction state.documents m with
  | nil => exact silent_pure ()
  | cons first documents ih =>
    exact silent_bind (silent_bind (silent_changeDisk _) fun _ => silent_changeDisk _) fun _ => ih

theorem silent_writeOut (s : Session σ) (state : IndexState) (m : Manifest) :
    Silent (s.writeOut state m) := by
  intro w
  rw [Session.run_writeOut]
  split
  next => exact silent_persist s state m w
  next => rfl

theorem silent_planFiles (s : Session σ) (outside : Surroundings) (base : IndexState)
    (done total : Nat) (d : Draft) (paths : List String) :
    Silent (s.planFiles outside options base done total d paths) := by
  induction paths generalizing done d with
  | nil => exact silent_pure _
  | cons path rest ih =>
    exact silent_bind silent_checkCancelled fun _ => silent_bind (silent_tell _) fun _ =>
      silent_bind silent_get fun _ => silent_bind (ih _ _) fun _ => silent_pure _

end Silence

section Embedding

variable {σ : Type} {p : Provider σ} {options : IndexOptions}
  {w w' : World (σ × List Asked)} {r : Except IndexError Embedded}

theorem asked_ask_embedBatch (p : Provider σ) (texts : List String)
    (w : World (σ × List Asked)) :
    ∃ answer v, run (ask (p.recording.embedBatch texts)) w = (.ok answer, v) ∧
      v.asked = w.asked ++ [⟨texts, answer⟩] := ⟨_, _, rfl, rfl⟩

theorem asked_ask_embed (p : Provider σ) (text : String) (w : World (σ × List Asked)) :
    ∃ answer v, run (ask (p.recording.embed text)) w = (.ok (Provider.single answer), v) ∧
      v.asked = w.asked ++ [⟨[text], answer⟩] := ⟨_, _, rfl, rfl⟩

theorem asked_embedSingly {e : Embedded} {queue : List QueuedText}
    (h : run (embedSingly p.recording e queue) w = (r, w')) :
    ∃ more, w'.asked = w.asked ++ more ∧ ∀ a ∈ more, a.texts ⊆ queue.map (·.text) := by
  induction queue generalizing e w with
  | nil =>
    cases h
    exact ⟨[], (List.append_nil _).symm, by simp⟩
  | cons q rest ih =>
    obtain ⟨answer, v, answered, told⟩ := asked_ask_embed p q.text w
    have first : [q.text] ⊆ (q :: rest).map (·.text) := by simp
    have later {e : Embedded} (h : run (embedSingly p.recording e rest) v = (r, w')) :
        ∃ more, w'.asked = w.asked ++ more ∧
          ∀ a ∈ more, a.texts ⊆ (q :: rest).map (·.text) := by
      obtain ⟨more, asked, within⟩ := ih h
      refine ⟨⟨[q.text], answer⟩ :: more, ?_, List.forall_mem_cons.mpr ⟨first, ?_⟩⟩
      · rw [asked, told, List.append_assoc, List.singleton_append]
      · exact fun a member => List.subset_cons_of_subset _ (within a member)
    rw [embedSingly, run_bind, answered] at h
    cases made : Provider.single answer with
    | ok vector =>
      rw [made] at h
      exact later h
    | error cause =>
      rw [made] at h
      dsimp only at h
      split at h
      next => exact later h
      next =>
        cases h
        exact ⟨_, told, List.forall_mem_singleton.mpr first⟩

theorem checkCancelled_error {e : IndexError} {v v' : World σ}
    (h : run (checkCancelled options : Action σ Unit) v = (.error e, v')) : e = .cancelled := by
  rw [Action.run_checkCancelled] at h
  split at h
  next =>
    cases h
    rfl
  next => cases h

/-- When the answer to a batch is taken in, nothing is asked unless the batch was rejected. -/
theorem asked_takeIn {e : Embedded} {sent : SentBatch}
    (h : run (takeIn p.recording options e sent) w = (r, w')) :
    ∃ more, w'.asked = w.asked ++ more ∧ (∀ a ∈ more, a.texts ⊆ sent.asked.texts) ∧
      (sent.asked.rejected = false → more = []) ∧
      (sent.asked.accepted → r.isOk ∨ r = .error .cancelled) := by
  rw [takeIn] at h
  rcases run_bind_result h with ⟨e', stopped, rfl⟩ | ⟨_, u, checked, h⟩
  · rw [checkCancelled_error stopped]
    refine ⟨[], ?_, by simp, fun _ => rfl, fun _ => .inr rfl⟩
    rw [silent_checkCancelled.asked_eq stopped, List.append_nil]
  · have told : u.asked = w.asked := silent_checkCancelled.asked_eq checked
    have same : sent.asked.verdict = .of sent.batch.length sent.answer := by
      rw [Asked.verdict, SentBatch.asked, List.length_map]
    cases verdict : BatchVerdict.of sent.batch.length sent.answer with
    | accepted vectors =>
      rw [verdict] at h
      cases h
      exact ⟨[], by rw [told, List.append_nil], by simp, fun _ => rfl, fun _ => .inl rfl⟩
    | rejected =>
      rw [verdict] at h same
      obtain ⟨more, asked, within⟩ := asked_embedSingly h
      refine ⟨more, by rw [asked, told], within, fun kept => ?_, fun taken => ?_⟩
      · simp [Asked.rejected, same] at kept
      · simp [Asked.accepted, same] at taken
    | fatal cause =>
      rw [verdict] at h same
      cases h
      refine ⟨[], by rw [told, List.append_nil], by simp, fun _ => rfl, fun taken => ?_⟩
      simp [Asked.accepted, same] at taken

/-- What is asked for batches of which some were asked for before: their texts only, the others in
order unless a batch is rejected, and all of them if each is accepted and the run is not cut short.
-/
structure AskedInOrder (before : List Asked) (others : List (List String)) (cutShort : Prop)
    (asked : List Asked) : Prop where
  only : ∀ a ∈ asked, a.texts ⊆ before.flatMap (·.texts) ++ others.flatten
  inOrder : (∀ a ∈ before ++ asked, a.rejected = false) → asked.map (·.texts) <+: others
  whole : (∀ a ∈ before ++ asked, a.accepted) → cutShort ∨ asked.map (·.texts) = others

section InOrder

variable {before after : List Asked} {others : List (List String)} {cutShort : Prop}
  {first : Asked} {more asked : List Asked}

theorem askedInOrder_nothing : AskedInOrder [] [] cutShort [] where
  only := by simp
  inOrder := fun _ => List.nil_prefix
  whole := fun _ => .inr rfl

/-- A batch is asked for before the others. -/
theorem AskedInOrder.send (h : AskedInOrder (before ++ [first]) others cutShort asked) :
    AskedInOrder before (first.texts :: others) cutShort (first :: asked) where
  only := by
    have within := h.only
    simp only [List.flatMap_append, List.flatMap_singleton, List.append_assoc] at within
    rw [List.flatten_cons]
    refine List.forall_mem_cons.mpr ⟨?_, within⟩
    exact List.subset_append_of_subset_right _ (List.subset_append_left _ _)
  inOrder := by
    intro kept
    rw [List.append_cons] at kept
    rw [List.map_cons, List.prefix_cons_inj]
    exact h.inOrder kept
  whole := by
    intro taken
    rw [List.append_cons] at taken
    rw [List.map_cons, List.cons.injEq]
    exact (h.whole taken).imp id (⟨rfl, ·⟩)

variable (perm : (first :: after).Perm before) (within : ∀ a ∈ more, a.texts ⊆ first.texts)
variable (alone : first.rejected = false → more = [])

include perm within

theorem subset_of_taken {a : Asked} (member : a ∈ more) :
    a.texts ⊆ before.flatMap (·.texts) ++ others.flatten := by
  have own : first ∈ before := perm.subset List.mem_cons_self
  refine List.subset_append_of_subset_left _
    (List.Subset.trans (within a member) fun text there => ?_)
  exact List.mem_flatMap.mpr ⟨first, own, there⟩

include alone

/-- The answer to a batch is taken in, and the run is over. -/
theorem askedInOrder_of_over (ends : first.accepted → cutShort) :
    AskedInOrder before others cutShort more where
  only := fun _ => subset_of_taken perm within
  inOrder := by
    intro kept
    rw [alone (kept first (List.mem_append_left _ (perm.subset List.mem_cons_self)))]
    exact List.nil_prefix
  whole := fun taken =>
    .inl (ends (taken first (List.mem_append_left _ (perm.subset List.mem_cons_self))))

/-- The answer to a batch is taken in, and the run goes on. -/
theorem AskedInOrder.take (h : AskedInOrder after others cutShort asked) :
    AskedInOrder before others cutShort (more ++ asked) where
  only := by
    refine List.forall_mem_append.mpr ⟨fun _ => subset_of_taken perm within, fun a member => ?_⟩
    refine List.Subset.trans (h.only a member) (List.append_subset.mpr
      ⟨List.subset_append_of_subset_left _ fun text there => ?_, List.subset_append_right _ _⟩)
    obtain ⟨b, is_after, there⟩ := List.mem_flatMap.mp there
    exact List.mem_flatMap.mpr ⟨b, perm.subset (List.mem_cons_of_mem _ is_after), there⟩
  inOrder := by
    intro kept
    have first_kept := kept first (List.mem_append_left _ (perm.subset List.mem_cons_self))
    rw [alone first_kept, List.nil_append] at kept ⊢
    refine h.inOrder fun a member => kept a ?_
    rcases List.mem_append.mp member with is_after | later
    · exact List.mem_append_left _ (perm.subset (List.mem_cons_of_mem _ is_after))
    · exact List.mem_append_right _ later
  whole := by
    intro taken
    have first_taken := taken first (List.mem_append_left _ (perm.subset List.mem_cons_self))
    rw [alone (Asked.not_rejected_of_accepted first_taken), List.nil_append] at taken ⊢
    refine h.whole fun a member => taken a ?_
    rcases List.mem_append.mp member with is_after | later
    · exact List.mem_append_left _ (perm.subset (List.mem_cons_of_mem _ is_after))
    · exact List.mem_append_right _ later

end InOrder

/-- What is asked for the batches that wait, while some are in flight. -/
theorem asked_embedBatches {limit total done : Nat} {moves : List Move} {e : Embedded}
    {flying : List SentBatch} {waiting : List (List QueuedText)}
    (h : run (embedBatches p.recording options limit total moves done e flying waiting) w =
      (r, w')) :
    ∃ asked, w'.asked = w.asked ++ asked ∧ AskedInOrder (flying.map (·.asked))
      (waiting.map (·.map (·.text))) (r = .error .cancelled) asked := by
  fun_induction embedBatches p.recording options limit total moves done e flying waiting
    generalizing w with
  | case1 moves _ _ flying waiting next =>
    cases h
    cases BatchStep.does_eq next with
    | finish landed sent =>
      subst landed sent
      exact ⟨[], (List.append_nil _).symm, askedInOrder_nothing⟩
  | case2 moves _ _ flying waiting batch rest next ih =>
    obtain ⟨answer, v, answered, told⟩ := asked_ask_embedBatch p (batch.map (·.text)) w
    rw [run_bind, answered] at h
    obtain ⟨asked, later, others⟩ := ih answer h
    cases BatchStep.does_eq next with
    | send first =>
      subst first
      rw [List.map_append] at others
      refine ⟨SentBatch.asked ⟨batch, answer⟩ :: asked, ?_, others.send⟩
      rw [later, told, List.append_assoc, List.singleton_append]
      rfl
  | case3 moves _ _ flying waiting sent rest next ih =>
    cases BatchStep.does_eq next with
    | take perm =>
      have perm : (sent.asked :: rest.map (·.asked)).Perm (flying.map (·.asked)) := perm.map _
      rcases run_bind_result h with ⟨e', failed, rfl⟩ | ⟨e₁, v, taken, h⟩
      · obtain ⟨more, told, within, alone, ends⟩ := asked_takeIn failed
        refine ⟨more, told, askedInOrder_of_over perm within alone fun accepted => ?_⟩
        rcases ends accepted with succeeds | cancelled
        · cases succeeds
        · exact congrArg Except.error (Except.error.inj cancelled)
      · obtain ⟨more, told, within, alone, _⟩ := asked_takeIn taken
        rw [run_bind, Action.run_tell] at h
        obtain ⟨asked, later, others⟩ := ih e₁ h
        have later : w'.asked = v.asked ++ asked := later
        refine ⟨more ++ asked, ?_, others.take perm within alone⟩
        rw [later, told, List.append_assoc]

/-- A queue was asked for, and nothing else, in a run of which it is known whether it was cut short:
no text more than once unless a batch is rejected, and all texts if every batch is accepted. -/
structure AskedFor (queue : List QueuedText) (cutShort : Prop) (asked : List Asked) : Prop where
  only : ∀ a ∈ asked, a.texts ⊆ queue.map (·.text)
  atMostOnce : (∀ a ∈ asked, a.rejected = false) →
    (asked.flatMap (·.texts)).Subperm (queue.map (·.text))
  once : (∀ a ∈ asked, a.accepted) → ¬cutShort →
    (asked.flatMap (·.texts)).Perm (queue.map (·.text))

variable {queue : List QueuedText}

theorem askedFor_nothing (cutShort : Prop) : AskedFor [] cutShort [] where
  only := by simp
  atMostOnce := fun _ => .refl _
  once := fun _ _ => .refl _

theorem AskedFor.imp {cutShort cutShort' : Prop} {asked : List Asked}
    (h : AskedFor queue cutShort asked) (weaker : cutShort → cutShort') :
    AskedFor queue cutShort' asked :=
  { h with once := fun taken finished => h.once taken fun cut => finished (weaker cut) }

theorem asked_embedQueue {batchSize concurrency : Nat} {moves : List Move}
    (h : run (embedQueue p.recording options batchSize concurrency moves queue) w = (r, w')) :
    ∃ asked, w'.asked = w.asked ++ asked ∧ AskedFor queue (r = .error .cancelled) asked := by
  rw [embedQueue] at h
  split at h
  next empty =>
    cases h
    rw [List.isEmpty_iff.mp empty]
    exact ⟨[], (List.append_nil _).symm, askedFor_nothing _⟩
  next =>
    rw [run_bind, Action.run_tell] at h
    obtain ⟨asked, told, answered⟩ := asked_embedBatches h
    have whole : ((batches batchSize queue).map (·.map (·.text))).flatten =
        queue.map (·.text) := by
      rw [← List.map_flatten, flatten_batches]
    refine ⟨asked, told, fun a member => ?_, fun kept => ?_, fun taken finished => ?_⟩
    · have within := answered.only a member
      rwa [whole] at within
    · rw [List.flatMap_def, ← whole]
      exact (answered.inOrder kept).sublist.flatten.subperm
    · rw [List.flatMap_def, (answered.whole taken).resolve_left finished, whole]

end Embedding

end Lookalike
