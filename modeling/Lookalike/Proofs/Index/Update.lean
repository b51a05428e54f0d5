import Lookalike.Proofs.Index.Carrying

/-!
# What an update makes of a state

An update takes the deleted files out, plans the changed files and carries the plans out. Here its
three passes are put together: each identity of the new state either belongs to a chunk that landed,
or to one of a file that was neither deleted nor cut again. A chunk of the latter sort stays, but it
loses its vector if its identity starts like those of a deleted file.
-/

namespace Lookalike.IndexState

/-- A state without some files. -/
def without (s : IndexState) (paths : List String) : IndexState := paths.foldl withoutFile s

/-- What an update does to a state, given what was deleted, what was cut and what was embedded. -/
structure Updated (base : IndexState) (deleted : List String) (cuts : List CutFile)
    (embedded : Embedded) (t : IndexState) : Prop where
  regular_base : Regular base
  distinct : (cuts.map (·.path)).Nodup
  genuine : ∀ f ∈ cuts, f.Genuine
  present : ∀ f ∈ cuts, f.path ∉ deleted
  passes : ∃ mid, Draft.AllPlanned (base.without deleted) base cuts mid ∧
    CarriedAll embedded ((cuts.map ((base.without deleted).planOf base)).flatMap (·.chunks)) mid t ∧
    t.files = Draft.recordedBy embedded (cuts.map ((base.without deleted).planOf base)) mid.files

/-- A chunk of a file that was neither deleted nor cut again. -/
structure Untouched (base : IndexState) (deleted : List String) (cuts : List CutFile) (id : String)
    (c : Chunk) : Prop where
  found : base.catalogue.get? id = some c
  present : c.filePath ∉ deleted
  uncut : ∀ f ∈ cuts, f.path ≠ c.filePath

/-- A chunk with this identity lands. -/
def Lands (base : IndexState) (deleted : List String) (cuts : List CutFile) (embedded : Embedded)
    (id : String) : Prop :=
  ∃ f ∈ cuts, ∃ c ∈ f.found, c.id = id ∧
    ((base.without deleted).decision base c).lands embedded c

theorem mem_planned {s base : IndexState} {cuts : List CutFile} {x : Chunk × Decision} :
    x ∈ (cuts.map (s.planOf base)).flatMap (·.chunks) ↔
      ∃ f ∈ cuts, ∃ c ∈ f.found, x = (c, s.decision base c) := by
  simp only [List.mem_flatMap, List.mem_map, planOf]
  constructor
  · rintro ⟨_, ⟨f, hf, rfl⟩, hx⟩
    obtain ⟨c, hc, rfl⟩ := List.mem_map.mp hx
    exact ⟨f, hf, c, hc, rfl⟩
  · rintro ⟨f, hf, c, hc, rfl⟩
    exact ⟨_, ⟨f, hf, rfl⟩, List.mem_map.mpr ⟨c, hc, rfl⟩⟩

theorem eq_of_path_eq {cuts : List CutFile} (distinct : (cuts.map (·.path)).Nodup) {f g : CutFile}
    (hf : f ∈ cuts) (hg : g ∈ cuts) (same : f.path = g.path) : f = g := by
  induction cuts with
  | nil => simp at hf
  | cons first cuts ih =>
    have ⟨first_new, distinct⟩ := List.nodup_cons.mp distinct
    rcases List.mem_cons.mp hf with rfl | f_later
    · rcases List.mem_cons.mp hg with rfl | g_later
      · rfl
      · exact absurd (List.mem_map.mpr ⟨g, g_later, same.symm⟩) first_new
    · rcases List.mem_cons.mp hg with rfl | g_later
      · exact absurd (List.mem_map.mpr ⟨f, f_later, same⟩) first_new
      · exact ih distinct f_later g_later

theorem lands_of_keeps {base : IndexState} {deleted : List String} {cuts : List CutFile}
    {embedded : Embedded} {id : String} {f : CutFile} (hf : f ∈ cuts)
    (h : (base.without deleted).Keeps base f id) : Lands base deleted cuts embedded id := by
  obtain ⟨c, hc, own, keep⟩ := h
  exact ⟨f, hf, c, hc, own, by rw [keep]; rfl⟩

namespace Updated

variable {base t : IndexState} {deleted : List String} {cuts : List CutFile} {embedded : Embedded}
variable (u : Updated base deleted cuts embedded t)

include u

theorem left : Left base deleted (base.without deleted) := left_of_foldl u.regular_base deleted

theorem regular : Regular t := by
  obtain ⟨mid, planned, carried, _⟩ := u.passes
  refine carried.regular planned.regular fun x hx => ?_
  obtain ⟨f, hf, c, hc, rfl⟩ := mem_planned.mp hx
  have cut := u.genuine f hf c hc
  rw [cut.path]
  exact cut

/-- What is still there when the plans are carried out was there before. -/
theorem within_base {mid : IndexState}
    (planned : Draft.AllPlanned (base.without deleted) base cuts mid) (id : String) :
    (∀ c, mid.catalogue.get? id = some c → base.catalogue.get? id = some c) ∧
      ∀ v, mid.table.get? id = some v → base.table.get? id = some v := by
  by_cases outdated : ∃ f ∈ cuts, (base.without deleted).Outdated base f id
  · have ⟨no_chunk, no_vector⟩ := planned.gone id outdated
    simp [no_chunk, no_vector]
  · have ⟨catalogue, table⟩ := planned.same id outdated
    rw [catalogue, table, u.left.catalogue]
    refine ⟨fun c found => (Option.filter_eq_some_iff.mp found).1, fun v there => ?_⟩
    by_cases under : StartsUnder deleted id
    · rw [u.left.lost id under] at there
      cases there
    · rwa [u.left.kept id under] at there

/-- What belongs to a file that was cut again and is not kept is outdated. -/
theorem outdated_or {id : String} {c : Chunk}
    (found : (base.without deleted).catalogue.get? id = some c) :
    (∃ f ∈ cuts, (base.without deleted).Outdated base f id) ∨
      (∃ f ∈ cuts, (base.without deleted).Keeps base f id) ∨ Untouched base deleted cuts id c := by
  by_cases cut : ∃ f ∈ cuts, f.path = c.filePath
  · obtain ⟨f, hf, same⟩ := cut
    by_cases keeps : (base.without deleted).Keeps base f id
    · exact .inr (.inl ⟨f, hf, keeps⟩)
    · exact .inl ⟨f, hf, ⟨c, found, same.symm⟩, keeps⟩
  · rw [u.left.catalogue] at found
    obtain ⟨there, present⟩ := Option.filter_eq_some_iff.mp found
    exact .inr (.inr ⟨there, by simpa using present, fun f hf same => cut ⟨f, hf, same⟩⟩)

theorem untouched_found {id : String} {c : Chunk} (h : Untouched base deleted cuts id c) :
    (base.without deleted).catalogue.get? id = some c := by
  rw [u.left.catalogue, h.found]
  simp [Option.filter, h.present]

theorem untouched_not_outdated {id : String} {c : Chunk} (h : Untouched base deleted cuts id c) :
    ¬∃ f ∈ cuts, (base.without deleted).Outdated base f id := by
  rintro ⟨f, hf, ⟨d, found, own⟩, _⟩
  rw [u.untouched_found h] at found
  cases found
  exact h.uncut f hf own.symm

/-- No chunk that is cut again has the identity of an untouched one. -/
theorem untouched_not_cut {id : String} {c : Chunk} (h : Untouched base deleted cuts id c)
    {f : CutFile} (hf : f ∈ cuts) {d : Chunk} (hd : d ∈ f.found) : d.id ≠ id := by
  intro same
  have identity := (u.genuine f hf d hd).identity
  rw [same] at identity
  exact h.uncut f hf (u.regular_base.path_of_found h.found identity).symm

/-- Untouched chunks stay; whether their vectors stay depends on the deleted files. -/
theorem at_untouched {id : String} {c : Chunk} (h : Untouched base deleted cuts id c) :
    t.catalogue.get? id = some c ∧
      (StartsUnder deleted id → t.table.get? id = none) ∧
      (¬StartsUnder deleted id → t.table.get? id = base.table.get? id) := by
  obtain ⟨mid, planned, carried, _⟩ := u.passes
  have foreign : ∀ x ∈ (cuts.map ((base.without deleted).planOf base)).flatMap (·.chunks),
      x.1.id ≠ id := by
    intro x hx
    obtain ⟨f, hf, d, hd, rfl⟩ := mem_planned.mp hx
    exact u.untouched_not_cut h hf hd
  have ⟨catalogue, table⟩ := carried.frame foreign
  have ⟨mid_catalogue, mid_table⟩ := planned.same id (u.untouched_not_outdated h)
  rw [catalogue, table, mid_catalogue, mid_table]
  exact ⟨u.untouched_found h, u.left.lost id, u.left.kept id⟩

theorem isSome_catalogue (id : String) : (t.catalogue.get? id).isSome ↔
    Lands base deleted cuts embedded id ∨ ∃ c, Untouched base deleted cuts id c := by
  obtain ⟨mid, planned, carried, _⟩ := u.passes
  rw [carried.isSome_catalogue]
  constructor
  · rintro (known | ⟨x, hx, own, lands⟩)
    · by_cases gone : ∃ f ∈ cuts, (base.without deleted).Outdated base f id
      · simp [(planned.gone id gone).1] at known
      · rw [(planned.same id gone).1] at known
        obtain ⟨c, found⟩ := Option.isSome_iff_exists.mp known
        rcases u.outdated_or found with out | ⟨f, hf, keeps⟩ | untouched
        · exact absurd out gone
        · exact .inl (lands_of_keeps hf keeps)
        · exact .inr ⟨c, untouched⟩
    · obtain ⟨f, hf, c, hc, rfl⟩ := mem_planned.mp hx
      exact .inl ⟨f, hf, c, hc, own, lands⟩
  · rintro (⟨f, hf, c, hc, own, lands⟩ | ⟨c, untouched⟩)
    · exact .inr ⟨_, mem_planned.mpr ⟨f, hf, c, hc, rfl⟩, own, lands⟩
    · have same := (planned.same id (u.untouched_not_outdated untouched)).1
      exact .inl (by rw [same, u.untouched_found untouched]; rfl)

/-- What is found after an update landed or is untouched. -/
theorem found {id : String} {c : Chunk} (there : t.catalogue.get? id = some c) :
    (∃ f ∈ cuts, c ∈ f.found ∧ c.id = id ∧
        ((base.without deleted).decision base c).lands embedded c) ∨
      Untouched base deleted cuts id c := by
  obtain ⟨mid, planned, carried, _⟩ := u.passes
  rcases carried.found there with ⟨x, hx, same, own, lands⟩ | ⟨before, none_landed⟩
  · obtain ⟨f, hf, d, hd, rfl⟩ := mem_planned.mp hx
    cases same
    exact .inl ⟨f, hf, hd, own, lands⟩
  · by_cases outdated : ∃ f ∈ cuts, (base.without deleted).Outdated base f id
    · rw [(planned.gone id outdated).1] at before
      cases before
    · rw [(planned.same id outdated).1] at before
      rcases u.outdated_or before with out | ⟨f, hf, d, hd, own, keep⟩ | untouched
      · exact absurd out outdated
      · exact absurd (by rw [keep]; rfl) (none_landed _ (mem_planned.mpr ⟨f, hf, d, hd, rfl⟩) own)
      · exact .inr untouched

/-- Chunks of files that are cut belong to one file if they have the same identity. -/
theorem eq_of_id_eq {f g : CutFile} (hf : f ∈ cuts) (hg : g ∈ cuts) {c x : Chunk} (hc : c ∈ f.found)
    (hx : x ∈ g.found) (own : x.id = c.id) : g = f := by
  have identity := (u.genuine g hg x hx).identity
  rw [own] at identity
  exact eq_of_path_eq u.distinct hg hf
    (Chunk.path_unique identity (u.genuine f hf c hc).identity)

/-- If identities tell the chunks of a file apart, each chunk that lands is found after an update,
and each untouched one. -/
theorem found_iff (apart : ∀ f ∈ cuts, f.Distinct) {id : String} {c : Chunk} :
    t.catalogue.get? id = some c ↔
      (∃ f ∈ cuts, c ∈ f.found ∧ c.id = id ∧
        ((base.without deleted).decision base c).lands embedded c) ∨
      Untouched base deleted cuts id c := by
  refine ⟨u.found, ?_⟩
  rintro (⟨f, hf, hc, rfl, lands⟩ | untouched)
  · have known := (u.isSome_catalogue c.id).mpr (.inl ⟨f, hf, c, hc, rfl, lands⟩)
    obtain ⟨x, there⟩ := Option.isSome_iff_exists.mp known
    rcases u.found there with ⟨g, hg, hx, own, _⟩ | untouched
    · obtain rfl := u.eq_of_id_eq hf hg hc hx own
      rw [there, apart g hg c hc x hx own]
    · exact absurd rfl (u.untouched_not_cut untouched hf hc)
  · exact (u.at_untouched untouched).1

/-- A chunk that is to be kept is not outdated for any file. -/
theorem kept_not_outdated {f : CutFile} (hf : f ∈ cuts) {c : Chunk} (hc : c ∈ f.found)
    (keep : (base.without deleted).decision base c = .keep) :
    ¬∃ g ∈ cuts, (base.without deleted).Outdated base g c.id := by
  rintro ⟨g, hg, ⟨d, found, own⟩, not_kept⟩
  have path := u.left.regular.path_of_found found (u.genuine f hf c hc).identity
  have same : f = g := eq_of_path_eq u.distinct hf hg (path.symm.trans own)
  subst same
  exact not_kept ⟨c, hc, rfl, keep⟩

theorem isSome_table (id : String) : (t.table.get? id).isSome ↔
    Lands base deleted cuts embedded id ∨
      (∃ c, Untouched base deleted cuts id c) ∧ ¬StartsUnder deleted id ∧
        (base.table.get? id).isSome := by
  have at_untouched (c : Chunk) (h : Untouched base deleted cuts id c) := u.at_untouched h
  obtain ⟨mid, planned, carried, _⟩ := u.passes
  constructor
  · intro known
    rcases (u.isSome_catalogue id).mp (u.regular.cataloged id known) with lands | ⟨c, untouched⟩
    · exact .inl lands
    · have ⟨_, lost, kept⟩ := at_untouched c untouched
      by_cases under : StartsUnder deleted id
      · simp [lost under] at known
      · rw [kept under] at known
        exact .inr ⟨⟨c, untouched⟩, under, known⟩
  · rintro (⟨f, hf, c, hc, rfl, lands⟩ | ⟨⟨c, untouched⟩, under, known⟩)
    · rw [carried.isSome_table]
      cases put : ((base.without deleted).decision base c).vector? embedded c with
      | some v =>
        exact .inr ⟨_, mem_planned.mpr ⟨f, hf, c, hc, rfl⟩, rfl, by simp [put]⟩
      | none =>
        have keep := Decision.keep_of_lands lands put
        rw [(planned.same c.id (u.kept_not_outdated hf hc keep)).2]
        exact .inl (keep_known keep).2
    · rw [(at_untouched c untouched).2.2 under]
      exact known

/-- An update of a synchronised state is synchronised if and only if no untouched chunk has an
identity that starts like those of a deleted file. -/
theorem synchronised_iff (synchronised : base.Synchronised) :
    t.Synchronised ↔ ∀ id c, Untouched base deleted cuts id c → ¬StartsUnder deleted id := by
  constructor
  · intro after id c untouched under
    have ⟨found, lost, _⟩ := u.at_untouched untouched
    have known := (after id).mp (by rw [found]; rfl)
    simp [lost under] at known
  · intro apart id
    rw [u.isSome_catalogue, u.isSome_table]
    constructor
    · rintro (lands | ⟨c, untouched⟩)
      · exact .inl lands
      · exact .inr ⟨⟨c, untouched⟩, apart id c untouched,
          (synchronised id).mp (by rw [untouched.found]; rfl)⟩
    · rintro (lands | ⟨untouched, _⟩)
      · exact .inl lands
      · exact .inr untouched

theorem files_other {path : String} (uncut : ∀ f ∈ cuts, f.path ≠ path) :
    t.files.get? path = if path ∈ deleted then none else base.files.get? path := by
  obtain ⟨mid, planned, _, files⟩ := u.passes
  rw [files, planned.files, ← u.left.files]
  refine Draft.get?_recordedBy_other embedded _ fun p hp => ?_
  obtain ⟨f, hf, rfl⟩ := List.mem_map.mp hp
  exact uncut f hf

theorem files_cut {f : CutFile} (hf : f ∈ cuts) :
    t.files.get? f.path =
      some (((base.without deleted).planOf base f).recorded embedded) := by
  obtain ⟨mid, planned, _, files⟩ := u.passes
  have distinct : ((cuts.map ((base.without deleted).planOf base)).map (·.path)).Nodup := by
    rw [List.map_map]
    exact u.distinct
  rw [files]
  exact Draft.get?_recordedBy distinct (List.mem_map.mpr ⟨f, hf, rfl⟩)

end Updated

end Lookalike.IndexState
