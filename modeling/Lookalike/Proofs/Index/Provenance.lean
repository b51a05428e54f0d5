import Lookalike.Proofs.Index.Batches

/-!
# Where vectors come from

In a run a chunk comes to its vector in one of three ways: it is kept with the vector that is
there, it takes over the vector of a chunk with the same content, or its text is embedded in the
queue. Content hashes stand for texts throughout. As long as different texts have different hashes,
a vector of the new state belongs to its text as it did before the run, or the provider gave it for
that text.
-/

namespace Lookalike

open Chunk (CutFrom)

/-- Different texts have different hashes. -/
def TextsApart (Text : String → Prop) : Prop :=
  ∀ a b, Text a → Text b → Blake3.hexOfText a = Blake3.hexOfText b → a = b

namespace IndexState

/-- A regular state with texts of some sort only. -/
structure Sound (Text : String → Prop) (s : IndexState) : Prop where
  regular : s.Regular
  texts : ∀ id c, s.catalogue.get? id = some c → Text c.text

theorem Sound.withManifest {Text : String → Prop} {s : IndexState} (h : s.Sound Text)
    (m : Option Manifest) : Sound Text { s with manifest := m } :=
  ⟨h.regular.withManifest m, h.texts⟩

theorem sound_ofDimension (Text : String → Prop) (dimension : Option Nat) :
    Sound Text (.ofDimension dimension) where
  regular := regular_ofDimension dimension
  texts := by intro id c found; simp [ofDimension] at found

/-- A chunk with this text has this vector. -/
def Pairs (s : IndexState) (text : String) (v : Embedding) : Prop :=
  ∃ id c, s.catalogue.get? id = some c ∧ s.table.get? id = some v ∧ c.text = text

end IndexState

/-- The same identity in a file means the same content. -/
def CutFile.Unambiguous (f : CutFile) : Prop :=
  ∀ c ∈ f.found, ∀ d ∈ f.found, c.id = d.id → c.contentHash = d.contentHash

theorem CutFile.Distinct.unambiguous {f : CutFile} (h : f.Distinct) : f.Unambiguous := by
  intro c hc d hd own
  rw [h d hd c hc own]

section Carrying

variable {embedded : Embedded} {s t : IndexState} {Holds : String → Embedding → Prop}

/-- A chunk is put with its own vector, or stays with the one that is there. -/
theorem Carried.pairs {c : Chunk} {decision : Decision} (h : Carried embedded c decision s t)
    (before : ∀ text v, s.Pairs text v → Holds text v)
    (put : ∀ v, decision.vector? embedded c = some v → Holds c.text v)
    (kept : decision = .keep → ∀ v, s.table.get? c.id = some v → Holds c.text v) :
    ∀ text v, t.Pairs text v → Holds text v := by
  rintro _ v ⟨id, d, found, there, rfl⟩
  rw [h.table] at there
  rw [h.get?_catalogue] at found
  by_cases own : c.id = id
  · subst own
    rw [if_pos rfl] at there
    cases given : decision.vector? embedded c with
    | some w =>
      rw [given] at there
      cases there
      rw [if_pos ⟨rfl, Decision.lands_of_vector? given⟩] at found
      cases found
      exact put _ given
    | none =>
      rw [given, Option.none_or] at there
      split at found
      next landed =>
        cases found
        exact kept (Decision.keep_of_lands landed.2 given) v there
      next => exact before _ v ⟨_, d, found, there, rfl⟩
  · rw [if_neg own] at there
    rw [if_neg fun both => own both.1] at found
    exact before _ v ⟨id, d, found, there, rfl⟩

/-- The vector under an identity is that of the chunk that is put there, or the one from before. -/
theorem Carried.vector {c : Chunk} {decision : Decision} (h : Carried embedded c decision s t)
    {id : String} {v : Embedding} (there : t.table.get? id = some v) :
    (c.id = id ∧ decision.vector? embedded c = some v) ∨ s.table.get? id = some v := by
  rw [h.table] at there
  split at there
  next own =>
    cases given : decision.vector? embedded c with
    | some w =>
      rw [given] at there
      cases there
      exact .inl ⟨own, rfl⟩
    | none =>
      rw [given, Option.none_or] at there
      exact .inr there
  next => exact .inr there

theorem CarriedAll.pairs {xs : List (Chunk × Decision)} (h : CarriedAll embedded xs s t)
    (before : ∀ text v, s.Pairs text v → Holds text v)
    (put : ∀ x ∈ xs, ∀ v, x.2.vector? embedded x.1 = some v → Holds x.1.text v)
    (kept : ∀ x ∈ xs, x.2 = .keep → ∀ v, s.table.get? x.1.id = some v → Holds x.1.text v)
    (same : ∀ x ∈ xs, ∀ y ∈ xs, x.1.id = y.1.id → x.1.text = y.1.text) :
    ∀ text v, t.Pairs text v → Holds text v := by
  induction h with
  | nil catalogue table =>
    rintro text v ⟨id, c, found, there, rfl⟩
    rw [catalogue] at found
    rw [table] at there
    exact before _ v ⟨id, c, found, there, rfl⟩
  | @cons c decision rest s t u first others ih =>
    have put_first := put (c, decision) List.mem_cons_self
    have put_rest (x) (hx : x ∈ rest) := put x (List.mem_cons_of_mem _ hx)
    refine ih (first.pairs before put_first (kept (c, decision) List.mem_cons_self)) put_rest ?_
      (fun x hx y hy => same x (List.mem_cons_of_mem _ hx) y (List.mem_cons_of_mem _ hy))
    intro x hx keep v there
    rcases first.vector there with ⟨own, given⟩ | old
    · have same_text : c.text = x.1.text :=
        same (c, decision) List.mem_cons_self x (List.mem_cons_of_mem _ hx) own
      exact same_text ▸ put_first v given
    · exact kept x (List.mem_cons_of_mem _ hx) keep v old

end Carrying

namespace Session.Ran

open IndexState (Sound Untouched)

variable {σ : Type} {s : Session σ} {outside : Surroundings} {options : IndexOptions}
variable {base t : IndexState} {diff : FileDiff} {d : Disk} {cuts : List CutFile}
variable {embedded : Embedded} {told : IndexReport}
variable (ran : Ran s outside options base diff d cuts embedded t told)
variable {Text : String → Prop} (apart : TextsApart Text)
variable (sound : base.Sound Text) (texts : ∀ f ∈ cuts, ∀ c ∈ f.found, Text c.text)

section Texts

include ran apart texts

/-- Chunks that are cut have the same text if they have the same hash. -/
theorem eq_text {f g : CutFile} (hf : f ∈ cuts) (hg : g ∈ cuts) {c x : Chunk} (hc : c ∈ f.found)
    (hx : x ∈ g.found) (same : x.contentHash = c.contentHash) : x.text = c.text := by
  rw [(ran.updated.genuine f hf c hc).content, (ran.updated.genuine g hg x hx).content] at same
  exact apart _ _ (texts g hg x hx) (texts f hf c hc) same

include sound

/-- A chunk of the state that the run starts from has the text of one that is cut if it has its
hash. -/
theorem eq_text_of_found {f : CutFile} (hf : f ∈ cuts) {c x : Chunk} (hc : c ∈ f.found)
    {id : String}
    (found : base.catalogue.get? id = some x) (same : x.contentHash = c.contentHash) :
    x.text = c.text := by
  rw [(ran.updated.genuine f hf c hc).content, (sound.regular.genuine id x found).content] at same
  exact apart _ _ (sound.texts id x found) (texts f hf c hc) same

variable {f : CutFile} (hf : f ∈ cuts) {c : Chunk} (hc : c ∈ f.found)

include hf hc

/-- What a chunk is kept with. -/
theorem kept_pair (keep : (base.without diff.deleted).decision base c = .keep) :
    ∃ v, (base.without diff.deleted).table.get? c.id = some v ∧ base.Pairs c.text v := by
  obtain ⟨⟨old, found, same⟩, known⟩ := IndexState.keep_known keep
  obtain ⟨v, there⟩ := Option.isSome_iff_exists.mp known
  refine ⟨v, there, c.id, old, ?_, ?_, ?_⟩
  · rw [ran.updated.left.catalogue] at found
    exact (Option.filter_eq_some_iff.mp found).1
  · by_cases under : IndexState.StartsUnder diff.deleted c.id
    · rw [ran.updated.left.lost c.id under] at there
      cases there
    · rwa [ran.updated.left.kept c.id under] at there
  · rw [ran.updated.left.catalogue] at found
    exact ran.eq_text_of_found apart sound texts hf hc (Option.filter_eq_some_iff.mp found).1 same

/-- What a chunk takes over. -/
theorem reused_pair {v : Embedding}
    (reuse : (base.without diff.deleted).decision base c = .reuse v) : base.Pairs c.text v := by
  obtain ⟨x, first, there⟩ := IndexState.reuse_known reuse
  obtain ⟨found, same⟩ := Catalogue.findContent?_eq_some sound.regular.wellFormed first
  exact ⟨x.id, x, found, there, ran.eq_text_of_found apart sound texts hf hc found same⟩

end Texts

section Queued

variable {Suits : String → Embedding → Prop} {Refused : String → Prop}
variable (answers : s.provider.Answers Suits Refused)

include ran answers

theorem covers : embedded.Covers Suits Refused
    (queueOf (cuts.map ((base.without diff.deleted).planOf base))) := by
  obtain ⟨v, v', embedding⟩ := ran.embedding
  exact covers_embedQueue answers embedding

include apart texts

variable {f : CutFile} (hf : f ∈ cuts) {c : Chunk} (hc : c ∈ f.found)

include hf hc

/-- The vector that is embedded for the hash of a chunk suits its text. -/
theorem suits_of_embedded {v : Embedding} (found : embedded.vectors.get? c.contentHash = some v) :
    Suits c.text v := by
  obtain ⟨q, queued, same, suits⟩ := (ran.covers answers).given _ v found
  obtain ⟨x, waiting, rfl⟩ := mem_queueOf queued
  obtain ⟨g, hg, y, hy, planned⟩ := IndexState.mem_planned.mp waiting
  obtain rfl := (Prod.mk.inj planned).1
  rw [← ran.eq_text apart texts hf hg hc hy same]
  exact suits

/-- A chunk that waits in vain was refused. -/
theorem refused_of_embed (embed : (base.without diff.deleted).decision base c = .embed)
    (missing : embedded.vectors.get? c.contentHash = none) : Refused c.text := by
  have waiting : (c, Decision.embed) ∈
      (cuts.map ((base.without diff.deleted).planOf base)).flatMap (·.chunks) :=
    IndexState.mem_planned.mpr ⟨f, hf, c, hc, by rw [embed]⟩
  obtain ⟨q, queued, same⟩ := exists_mem_queueOf waiting
  have refused := (ran.covers answers).missing q queued (by rw [same]; exact missing)
  obtain ⟨x, waits, rfl⟩ := mem_queueOf queued
  obtain ⟨g, hg, y, hy, planned⟩ := IndexState.mem_planned.mp waits
  obtain rfl := (Prod.mk.inj planned).1
  rwa [← ran.eq_text apart texts hf hg hc hy same]

end Queued

section Stores

variable (unambiguous : ∀ f ∈ cuts, f.Unambiguous)

include ran unambiguous

/-- Chunks that are cut in a run have the same content if they have the same identity. -/
theorem eq_content {f g : CutFile} (hf : f ∈ cuts) (hg : g ∈ cuts) {c x : Chunk} (hc : c ∈ f.found)
    (hx : x ∈ g.found) (own : x.id = c.id) : x.contentHash = c.contentHash := by
  obtain rfl := ran.updated.eq_of_id_eq hf hg hc hx own
  exact unambiguous g hg x hx c hc own

/-- The decision on a chunk depends on its identity and its content, so chunks that share both land
together. -/
theorem lands_iff {f g : CutFile} (hf : f ∈ cuts) (hg : g ∈ cuts) {c x : Chunk} (hc : c ∈ f.found)
    (hx : x ∈ g.found) (own : x.id = c.id) :
    ((base.without diff.deleted).decision base x).lands embedded x =
      ((base.without diff.deleted).decision base c).lands embedded c := by
  have content := ran.eq_content unambiguous hf hg hc hx own
  have decision : (base.without diff.deleted).decision base x =
      (base.without diff.deleted).decision base c := by
    simp only [IndexState.decision, own, content]
  rw [decision]
  cases (base.without diff.deleted).decision base c <;> simp [Decision.lands, content]

/-- A chunk that is cut and does not land is in neither store. -/
theorem absent_of_fails {f : CutFile} (hf : f ∈ cuts) {c : Chunk} (hc : c ∈ f.found)
    (fails : ¬((base.without diff.deleted).decision base c).lands embedded c) :
    t.catalogue.get? c.id = none ∧ t.table.get? c.id = none := by
  have absent : t.catalogue.get? c.id = none := by
    cases found : t.catalogue.get? c.id with
    | none => rfl
    | some x =>
      rcases ran.updated.found found with ⟨g, hg, hx, own, lands⟩ | untouched
      · rw [ran.lands_iff unambiguous hf hg hc hx own] at lands
        exact absurd lands fails
      · exact absurd rfl (ran.updated.untouched_not_cut untouched hf hc)
  refine ⟨absent, ?_⟩
  cases there : t.table.get? c.id with
  | none => rfl
  | some v =>
    have known := ran.updated.regular.cataloged c.id (by rw [there]; rfl)
    rw [absent] at known
    cases known

include apart texts

/-- A chunk that is cut and lands is in both stores, with its text. -/
theorem present_of_lands {f : CutFile} (hf : f ∈ cuts) {c : Chunk} (hc : c ∈ f.found)
    (lands : ((base.without diff.deleted).decision base c).lands embedded c) :
    ∃ x v, t.catalogue.get? c.id = some x ∧ t.table.get? c.id = some v ∧ x.text = c.text := by
  have landed : IndexState.Lands base diff.deleted cuts embedded c.id := ⟨f, hf, c, hc, rfl, lands⟩
  obtain ⟨x, found⟩ := Option.isSome_iff_exists.mp
    ((ran.updated.isSome_catalogue c.id).mpr (.inl landed))
  obtain ⟨v, there⟩ := Option.isSome_iff_exists.mp
    ((ran.updated.isSome_table c.id).mpr (.inl landed))
  refine ⟨x, v, found, there, ?_⟩
  rcases ran.updated.found found with ⟨g, hg, hx, own, _⟩ | untouched
  · exact ran.eq_text apart texts hf hg hc hx (ran.eq_content unambiguous hf hg hc hx own)
  · exact absurd rfl (ran.updated.untouched_not_cut untouched hf hc)

variable {Suits : String → Embedding → Prop} {Refused : String → Prop}
variable (answers : s.provider.Answers Suits Refused)

include sound answers

/-- Each vector of the new state belongs to its text as it did before, or was given for it. -/
theorem pairs : ∀ text v, t.Pairs text v → base.Pairs text v ∨ Suits text v := by
  obtain ⟨mid, planned, carried, _⟩ := ran.updated.passes
  refine carried.pairs (fun text v before => .inl ?_) (fun x hx v given => ?_)
    (fun x hx keep v there => .inl ?_) (fun x hx y hy own => ?_)
  · obtain ⟨id, c, found, there, same⟩ := before
    have within := ran.updated.within_base planned id
    exact ⟨id, c, within.1 c found, within.2 v there, same⟩
  · obtain ⟨f, hf, c, hc, rfl⟩ := IndexState.mem_planned.mp hx
    cases decided : (base.without diff.deleted).decision base c with
    | keep =>
      rw [decided] at given
      cases given
    | reuse w =>
      rw [decided] at given
      cases given
      exact .inl (ran.reused_pair apart sound texts hf hc decided)
    | embed =>
      rw [decided] at given
      exact .inr (ran.suits_of_embedded apart texts answers hf hc given)
  · obtain ⟨f, hf, c, hc, rfl⟩ := IndexState.mem_planned.mp hx
    obtain ⟨w, kept, pair⟩ := ran.kept_pair apart sound texts hf hc keep
    rw [(planned.same c.id (ran.updated.kept_not_outdated hf hc keep)).2, kept] at there
    cases there
    exact pair
  · obtain ⟨f, hf, c, hc, rfl⟩ := IndexState.mem_planned.mp hx
    obtain ⟨g, hg, z, hz, rfl⟩ := IndexState.mem_planned.mp hy
    exact ran.eq_text apart texts hg hf hz hc (ran.eq_content unambiguous hg hf hz hc own)

end Stores

end Session.Ran

end Lookalike
