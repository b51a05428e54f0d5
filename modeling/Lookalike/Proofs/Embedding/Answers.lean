import Lookalike.Embedding.Service
import Lookalike.Proofs.Index.Run
import Lookalike.Proofs.Json.Values
import Mathlib.Data.List.Forall2

/-!
# Usable answers

What the service answers to a batch is let through if it is one vector for each text, all of one
positive length that is the declared one if there is one. Every other answer is a failure, and its
sort says what is wrong: the status, the form of the answer, or a length that all vectors share. The
sort decides about a run as well: only a failure that is due to the text goes without a vector.
-/

namespace Lookalike

namespace Service

open Json (mapM_eq_some_iff)

section Decoding

/-- A value spells a number in single precision. -/
def SpellsNumber (value : Json) (x : Float32) : Prop :=
  ∃ numeral : Numeral, value = .number numeral ∧ numeral.toSingle? = some x

/-- A value spells the numbers of a vector. -/
def Spells (value : Json) (v : Embedding) : Prop :=
  ∃ items, value = .array items ∧ List.Forall₂ SpellsNumber items v.toList

/-- A value holds vectors: it is an object with them under their name, once and beside whatever
else, or a list with them as its only item. -/
inductive Holds : Json → List Embedding → Prop
  | object {fields : List (String × Json)} {rows : List Json} {vectors : List Embedding}
      (once : fields.filter (·.1 = "embeddings") = [("embeddings", .array rows)])
      (spelled : List.Forall₂ Spells rows vectors) : Holds (Json.ofFields fields) vectors
  | list {rows : List Json} {vectors : List Embedding}
      (spelled : List.Forall₂ Spells rows vectors) : Holds (.array [.array rows]) vectors

/-- The text of a body is a value that holds vectors. -/
def Decodes (body : List UInt8) (vectors : List Embedding) : Prop :=
  ∃ value, Json.read? body = some value ∧ Holds value vectors

/-- Reading the items of a list gives values item by item. -/
theorem toList?_eq_some_iff {α : Type} {read : Json → Option α} {value : Json} {found : List α} :
    Json.toList? read value = some found ↔
      ∃ rows, value = .array rows ∧ List.Forall₂ (fun row x => read row = some x) rows found := by
  cases value with
  | array rows =>
    have item_by_item : rows.map read = found.map some ↔
        List.Forall₂ (fun row x => read row = some x) rows found := by
      rw [← List.forall₂_eq_eq_eq, List.forall₂_map_left_iff, List.forall₂_map_right_iff]
    simp [Json.toList?, mapM_eq_some_iff, item_by_item]
  | _ => simp [Json.toList?]

theorem toSingle?_eq_some_iff {value : Json} {x : Float32} :
    Json.toSingle? value = some x ↔ SpellsNumber value x := by
  cases value <;> simp [Json.toSingle?, SpellsNumber]

theorem toVector?_eq_some_iff {value : Json} {v : Embedding} :
    (Json.toList? Json.toSingle? value).map List.toArray = some v ↔ Spells value v := by
  simp only [Option.map_eq_some_iff, toList?_eq_some_iff, toSingle?_eq_some_iff, Spells]
  constructor
  · rintro ⟨numbers, spelled, rfl⟩
    exact spelled
  · intro spelled
    exact ⟨v.toList, spelled, v.toArray_toList⟩

theorem map_keyed_eq_iff {members : List (Option String × Json)} {fields : List (String × Json)} :
    members.map (fun (key, value) => key.map fun key => (key, value)) = fields.map some ↔
      members = fields.map fun (name, value) => (some name, value) := by
  induction members generalizing fields with
  | nil => cases fields <;> simp
  | cons m members ih =>
    obtain ⟨key, value⟩ := m
    cases fields with
    | nil => simp
    | cons f fields =>
      obtain ⟨name, v⟩ := f
      cases key <;> simp [ih]

/-- An object is read if its keys are texts and none that is asked for is repeated. -/
theorem ofMembers?_eq_some_iff {names : List String} {members : List (Option String × Json)}
    {r : Json.Record} :
    Json.Record.ofMembers? names members = some r ↔ ∃ fields : List (String × Json),
      members = fields.map (fun (name, value) => (some name, value)) ∧
        ((fields.filter (·.1 ∈ names)).map (·.1)).Nodup ∧
        r = ⟨false, fields.filter (·.1 ∈ names)⟩ := by
  simp only [Json.Record.ofMembers?, Option.bind_eq_bind, Option.bind_eq_some_iff,
    mapM_eq_some_iff, map_keyed_eq_iff]
  simp [guard, eq_comm]

/-- A field is found once. -/
theorem get?_of_nodup {name : String} {fields : List (String × Json)} {value : Json} :
    ((fields.filter (·.1 ∈ [name])).map (·.1)).Nodup ∧
        (⟨false, fields.filter (·.1 ∈ [name])⟩ : Json.Record).get? name = some value ↔
      fields.filter (·.1 = name) = [(name, value)] := by
  have asked : fields.filter (·.1 ∈ [name]) = fields.filter (·.1 = name) := by simp
  have own : ∀ f ∈ fields.filter (·.1 = name), f.1 = name := by simp
  rw [asked, Json.Record.get?]
  generalize fields.filter (·.1 = name) = found at own
  obtain _ | ⟨⟨first, v⟩, _ | ⟨⟨second, w⟩, rest⟩⟩ := found
  · simp
  · obtain rfl : first = name := own (first, v) (by simp)
    simp
  · obtain rfl : first = name := own (first, v) (by simp)
    obtain rfl : second = first := own (second, w) (by simp)
    simp

theorem vectorsOf?_eq_some_iff {value : Json} {vectors : List Embedding} :
    vectorsOf? value = some vectors ↔ Holds value vectors := by
  simp only [vectorsOf?, Option.bind_eq_bind, Option.bind_eq_some_iff, Json.Record.required?,
    toList?_eq_some_iff, toVector?_eq_some_iff]
  constructor
  · rintro ⟨r, read, _, found, rows, rfl, spelled⟩
    cases value with
    | object members =>
      obtain ⟨fields, rfl, distinct, rfl⟩ := ofMembers?_eq_some_iff.mp read
      exact .object (get?_of_nodup.mp ⟨distinct, found⟩) spelled
    | array items =>
      obtain _ | ⟨only, _ | ⟨next, more⟩⟩ := items
      · cases read
        cases found
      · cases read
        cases found
        exact .list spelled
      · cases read
    | _ => cases read
  · intro holds
    cases holds with
    | object once spelled =>
      obtain ⟨distinct, found⟩ := get?_of_nodup.mpr once
      exact ⟨_, ofMembers?_eq_some_iff.mpr ⟨_, rfl, distinct, rfl⟩, _, found, _, rfl, spelled⟩
    | list spelled => exact ⟨⟨true, [("embeddings", _)]⟩, rfl, _, rfl, _, rfl, spelled⟩

theorem decoded_iff {body : List UInt8} {vectors : List Embedding} :
    (Json.read? body).bind vectorsOf? = some vectors ↔ Decodes body vectors := by
  simp only [Option.bind_eq_some_iff, vectorsOf?_eq_some_iff, Decodes]

end Decoding

section Lengths

variable {expected : Option Nat} {vectors : List Embedding}

/-- One of the vectors is empty, or two differ in length. -/
def Ragged (vectors : List Embedding) : Prop :=
  (∃ v ∈ vectors, v.size = 0) ∨ ∃ v ∈ vectors, ∃ w ∈ vectors, v.size ≠ w.size

/-- All vectors have this positive length. -/
def Measure (vectors : List Embedding) (n : Nat) : Prop := 0 < n ∧ ∀ v ∈ vectors, v.size = n

theorem Measure.not_ragged {n : Nat} (measure : Measure vectors n) : ¬Ragged vectors := by
  obtain ⟨positive, same⟩ := measure
  rintro (⟨v, member, empty⟩ | ⟨v, hv, w, hw, different⟩)
  · have := same v member
    omega
  · exact different ((same v hv).trans (same w hw).symm)

theorem Measure.not_useless {n count : Nat} (measure : Measure vectors n)
    (all : vectors.length = count) : ¬(vectors.length ≠ count ∨ Ragged vectors) := by
  rintro (other | ragged)
  · exact other all
  · exact measure.not_ragged ragged

theorem Measure.unique {m n : Nat} (some_vector : vectors ≠ []) (hm : Measure vectors m)
    (hn : Measure vectors n) : m = n := by
  obtain ⟨v, member⟩ := List.exists_mem_of_ne_nil _ some_vector
  exact (hm.2 v member).symm.trans (hn.2 v member)

/-- Vectors are ragged or have a length in common, and the check tells which. -/
theorem checkDimension_cases (expected : Option Nat) (some_vector : vectors ≠ []) :
    Ragged vectors ∧ (∃ reason, checkDimension expected vectors = .error (.malformed reason)) ∨
      ∃ n, Measure vectors n ∧ (expected = none → checkDimension expected vectors = .ok ()) ∧
        ∀ d, expected = some d → checkDimension expected vectors =
          if d ≠ n then .error (.dimensionMismatch d n) else .ok () := by
  obtain ⟨first, rest, rfl⟩ := List.exists_cons_of_ne_nil some_vector
  by_cases empty : first.size = 0
  · exact .inl ⟨.inl ⟨first, List.mem_cons_self, empty⟩, _, if_pos empty⟩
  · cases other : (first :: rest).find? (·.size ≠ first.size) with
    | some v =>
      have differs : v.size ≠ first.size := by simpa using List.find?_some other
      have member := List.mem_of_find?_eq_some other
      exact .inl ⟨.inr ⟨v, member, first, List.mem_cons_self, differs⟩, _,
        (if_neg empty).trans (by rw [other])⟩
    | none =>
      have same : ∀ v ∈ first :: rest, v.size = first.size := by
        simpa using List.find?_eq_none.mp other
      refine .inr ⟨first.size, ⟨Nat.pos_of_ne_zero empty, same⟩, ?_, ?_⟩
      · rintro rfl
        exact (if_neg empty).trans (by rw [other])
      · rintro d rfl
        exact (if_neg empty).trans (by rw [other])

end Lengths

section Answering

variable {dimension : Option Nat} {count : Nat} {r : Http.Response} {vectors : List Embedding}

theorem isSuccess_iff {status : Nat} : isSuccess status ↔ 200 ≤ status ∧ status ≤ 299 := by
  simp only [isSuccess, Bool.and_eq_true, decide_eq_true_eq]
  omega

theorem Decodes.unique {body : List UInt8} {found others : List Embedding}
    (h : Decodes body found) (g : Decodes body others) : found = others :=
  Option.some.inj ((decoded_iff.mpr h).symm.trans (decoded_iff.mpr g))

/-- Vectors are as many as the texts and have one positive length, the declared one if there is
one. -/
def Usable (dimension : Option Nat) (count : Nat) (vectors : List Embedding) : Prop :=
  vectors.length = count ∧ ∃ n, Measure vectors n ∧ ∀ d, dimension = some d → d = n

/-- What a response to a request for some texts is taken for. -/
inductive Taken (dimension : Option Nat) (count : Nat) (r : Http.Response) :
    Except EmbedError (List Embedding) → Prop
  | refused (fails : ¬(200 ≤ r.status ∧ r.status ≤ 299)) :
      Taken dimension count r (.error (.status r.status (Utf8.lossy (r.body.take maxErrorBody))))
  | malformed (reason : String) (succeeds : 200 ≤ r.status ∧ r.status ≤ 299)
      (useless : ∀ vectors, Decodes r.body vectors → vectors.length ≠ count ∨ Ragged vectors) :
      Taken dimension count r (.error (.malformed reason))
  | mismatched {d n : Nat} {vectors : List Embedding} (succeeds : 200 ≤ r.status ∧ r.status ≤ 299)
      (decoded : Decodes r.body vectors) (all : vectors.length = count)
      (measure : Measure vectors n)
      (declared : dimension = some d) (other : d ≠ n) :
      Taken dimension count r (.error (.dimensionMismatch d n))
  | usable {vectors : List Embedding} (succeeds : 200 ≤ r.status ∧ r.status ≤ 299)
      (decoded : Decodes r.body vectors) (usable : Usable dimension count vectors) :
      Taken dimension count r (.ok vectors)

theorem taken_interpret (asked : count ≠ 0) :
    Taken dimension count r (interpret dimension count r) := by
  rw [interpret]
  by_cases succeeds : isSuccess r.status
  · have succeeds' := isSuccess_iff.mp succeeds
    rw [if_neg (by simp [succeeds])]
    cases found : (Json.read? r.body).bind vectorsOf? with
    | none =>
      refine .malformed _ succeeds' fun vectors decoded => ?_
      rw [decoded_iff.mpr decoded] at found
      cases found
    | some vectors =>
      have decoded := decoded_iff.mp found
      dsimp only
      by_cases all : vectors.length = count
      · rw [if_neg (not_not.mpr all)]
        have some_vector : vectors ≠ [] := List.ne_nil_of_length_pos (by omega)
        rcases checkDimension_cases dimension some_vector with
          ⟨ragged, reason, checked⟩ | ⟨n, measure, free, bound⟩
        · rw [checked]
          refine .malformed _ succeeds' fun others also => ?_
          exact decoded.unique also ▸ .inr ragged
        · cases dimension with
          | none =>
            rw [free rfl]
            exact .usable succeeds' decoded ⟨all, n, measure, by simp⟩
          | some d =>
            rw [bound d rfl]
            by_cases same : d = n
            · rw [if_neg (not_not.mpr same)]
              exact .usable succeeds' decoded ⟨all, n, measure, by simp [same]⟩
            · rw [if_pos same]
              exact .mismatched succeeds' decoded all measure rfl same
      · rw [if_pos all]
        refine .malformed _ succeeds' fun others also => ?_
        exact decoded.unique also ▸ .inl all
  · rw [if_pos (by simp [succeeds])]
    exact .refused fun succeeds' => succeeds (isSuccess_iff.mpr succeeds')

section Sorts

variable {result : Except EmbedError (List Embedding)} (taken : Taken dimension count r result)

include taken

theorem Taken.ok_iff (asked : count ≠ 0) : result = .ok vectors ↔
    (200 ≤ r.status ∧ r.status ≤ 299) ∧ Decodes r.body vectors ∧
      Usable dimension count vectors := by
  constructor
  · rintro rfl
    cases taken with
    | usable succeeds decoded usable => exact ⟨succeeds, decoded, usable⟩
  · rintro ⟨succeeds, decoded, all, n, measure, declared⟩
    cases taken with
    | refused fails => exact absurd succeeds fails
    | malformed _ _ useless =>
      exact absurd (useless vectors decoded) (measure.not_useless all)
    | mismatched _ decoded' all' measure' declared' other =>
      obtain rfl := decoded.unique decoded'
      have some_vector : vectors ≠ [] := List.ne_nil_of_length_pos (by omega)
      exact absurd ((declared _ declared').trans (measure.unique some_vector measure')) other
    | usable _ decoded' _ => rw [decoded.unique decoded']

theorem Taken.malformed_iff : (∃ reason, result = .error (.malformed reason)) ↔
    (200 ≤ r.status ∧ r.status ≤ 299) ∧
      ∀ vectors, Decodes r.body vectors → vectors.length ≠ count ∨ Ragged vectors := by
  constructor
  · rintro ⟨reason, rfl⟩
    cases taken with
    | malformed _ succeeds useless => exact ⟨succeeds, useless⟩
  · rintro ⟨succeeds, useless⟩
    cases taken with
    | refused fails => exact absurd succeeds fails
    | malformed reason => exact ⟨reason, rfl⟩
    | mismatched _ decoded all measure =>
      exact absurd (useless _ decoded) (measure.not_useless all)
    | usable _ decoded usable =>
      obtain ⟨all, _, measure, _⟩ := usable
      exact absurd (useless _ decoded) (measure.not_useless all)

theorem Taken.mismatch_iff (asked : count ≠ 0) {d n : Nat} :
    result = .error (.dimensionMismatch d n) ↔
      (200 ≤ r.status ∧ r.status ≤ 299) ∧ dimension = some d ∧ d ≠ n ∧
        ∃ vectors, Decodes r.body vectors ∧ vectors.length = count ∧ Measure vectors n := by
  constructor
  · rintro rfl
    cases taken with
    | mismatched succeeds decoded all measure declared other =>
      exact ⟨succeeds, declared, other, _, decoded, all, measure⟩
  · rintro ⟨succeeds, declared, other, vectors, decoded, all, measure⟩
    have some_vector : vectors ≠ [] := List.ne_nil_of_length_pos (by omega)
    cases taken with
    | refused fails => exact absurd succeeds fails
    | malformed _ _ useless =>
      exact absurd (useless vectors decoded) (measure.not_useless all)
    | mismatched _ decoded' _ measure' declared' _ =>
      obtain rfl := decoded.unique decoded'
      rw [measure.unique some_vector measure', Option.some.inj (declared.symm.trans declared')]
    | usable _ decoded' usable =>
      obtain rfl := decoded.unique decoded'
      obtain ⟨_, m, measure', same⟩ := usable
      exact absurd ((same d declared).trans (measure'.unique some_vector measure)) other

theorem Taken.status_iff {code : Nat} {text : String} :
    result = .error (.status code text) ↔ ¬(200 ≤ r.status ∧ r.status ≤ 299) ∧
      code = r.status ∧ text = Utf8.lossy (r.body.take maxErrorBody) := by
  constructor
  · rintro rfl
    cases taken with
    | refused fails => exact ⟨fails, rfl, rfl⟩
  · rintro ⟨fails, rfl, rfl⟩
    cases taken with
    | refused => rfl
    | malformed _ succeeds => exact absurd succeeds fails
    | mismatched succeeds => exact absurd succeeds fails
    | usable succeeds => exact absurd succeeds fails

theorem Taken.sort {e : EmbedError} (failed : result = .error e) :
    (∃ reason, e = .malformed reason) ∨ (∃ d n, e = .dimensionMismatch d n) ∨
      ∃ code text, e = .status code text := by
  subst failed
  cases taken with
  | refused => exact .inr (.inr ⟨_, _, rfl⟩)
  | malformed reason => exact .inl ⟨reason, rfl⟩
  | mismatched => exact .inr (.inl ⟨_, _, rfl⟩)

end Sorts

end Answering

section Batches

open Action (run run_bind embedSingly ask)

variable {σ : Type}

/-- A batch is answered by what the final response to its request is taken for. -/
theorem embedBatch_eq_interpret {net : Net σ} {settings : ServiceSettings} {model : String}
    {texts : List String} {s ready : State σ} {r : Http.Response} {later : σ} (asked : texts ≠ [])
    (up : waitUntilReady net settings s = (.ok (), ready))
    (answered : Http.sendWithRetry net (policy settings) (batchRequest settings model texts)
      ready.network = (.ok r, later)) :
    embedBatch net settings model texts s =
      (interpret settings.dimension texts.length r, { ready with network := later }) := by
  have some_text : ¬texts.isEmpty := by simpa using asked
  simp only [embedBatch, if_neg some_text, up, answered]
  rfl

theorem isInputSpecific_iff (e : EmbedError) : e.isInputSpecific ↔
    (∃ reason, e = .malformed reason) ∨
      ∃ code text, e = .status code text ∧ 400 ≤ code ∧ code ≤ 499 ∧ code ≠ 429 := by
  cases e with
  | status code text =>
    have own : (EmbedError.status code text).isInputSpecific ↔
        400 ≤ code ∧ code ≤ 499 ∧ code ≠ 429 := by
      simp [EmbedError.isInputSpecific, Nat.lt_succ_iff, and_assoc]
    rw [own]
    simp
  | _ => simp [EmbedError.isInputSpecific]

/-- A text that fails goes without a vector if the failure is due to the text, and ends the run
otherwise. -/
theorem run_embedSingly_of_error (p : Provider σ) (e : Embedded) (q : QueuedText)
    (rest : List QueuedText) (w : World σ) {cause : EmbedError}
    (failed : (p.embed q.text w.provider).1 = .error cause) :
    run (embedSingly p e (q :: rest)) w =
      let w := { w with provider := (p.embed q.text w.provider).2 }
      if cause.isInputSpecific then
        run (embedSingly p (e.addFailure q.contentHash cause.message) rest) w
      else (.error (.ofEmbedError cause), w) := by
  have asked : run (ask (p.embed q.text)) w =
      (.ok (.error cause), { w with provider := (p.embed q.text w.provider).2 }) := by
    rw [← failed]
    rfl
  rw [embedSingly, run_bind, asked]
  dsimp only
  split <;> rfl

/-- A batch gets the vectors of the final response, in their order, exactly if that is a success and
holds as many as there are texts, of one positive length that agrees with the declared one. Every
other response is a failure of the sort that it is due to. Malformed answers and the faults of a
request, but not the demand for patience, are due to the text: it goes without a vector, where any
other failure ends the run. -/
theorem usable_answers_only {net : Net σ} {settings : ServiceSettings} {model : String}
    {texts : List String} {s ready : State σ} {r : Http.Response} {later : σ} (asked : texts ≠ [])
    (up : waitUntilReady net settings s = (.ok (), ready))
    (answered : Http.sendWithRetry net (policy settings) (batchRequest settings model texts)
      ready.network = (.ok r, later)) :
    let answer := (embedBatch net settings model texts s).1
    let succeeds := 200 ≤ r.status ∧ r.status ≤ 299
    (∀ vectors, answer = .ok vectors ↔
      succeeds ∧ Decodes r.body vectors ∧ Usable settings.dimension texts.length vectors) ∧
    ((∃ reason, answer = .error (.malformed reason)) ↔
      succeeds ∧
        ∀ vectors, Decodes r.body vectors → vectors.length ≠ texts.length ∨ Ragged vectors) ∧
    (∀ d n, answer = .error (.dimensionMismatch d n) ↔
      succeeds ∧ settings.dimension = some d ∧ d ≠ n ∧
        ∃ vectors, Decodes r.body vectors ∧ vectors.length = texts.length ∧ Measure vectors n) ∧
    (∀ code text, answer = .error (.status code text) ↔
      ¬succeeds ∧ code = r.status ∧ text = Utf8.lossy (r.body.take maxErrorBody)) ∧
    (∀ e, answer = .error e → (∃ reason, e = .malformed reason) ∨
      (∃ d n, e = .dimensionMismatch d n) ∨ ∃ code text, e = .status code text) ∧
    (∀ e : EmbedError, e.isInputSpecific ↔ (∃ reason, e = .malformed reason) ∨
      ∃ code text, e = .status code text ∧ 400 ≤ code ∧ code ≤ 499 ∧ code ≠ 429) ∧
    ∀ (e : Embedded) (q : QueuedText) (rest : List QueuedText) (w : World (State σ)) (cause),
      ((provider net settings).embed q.text w.provider).1 = .error cause →
      run (embedSingly (provider net settings) e (q :: rest)) w =
        let w := { w with provider := ((provider net settings).embed q.text w.provider).2 }
        if cause.isInputSpecific then
          let e := e.addFailure q.contentHash cause.message
          run (embedSingly (provider net settings) e rest) w
        else (.error (.ofEmbedError cause), w) := by
  intro answer succeeds
  have some_text : texts.length ≠ 0 := by simpa using asked
  have taken : Taken settings.dimension texts.length r answer := by
    have interpreted : answer = interpret settings.dimension texts.length r :=
      congrArg Prod.fst (embedBatch_eq_interpret asked up answered)
    rw [interpreted]
    exact taken_interpret some_text
  exact ⟨fun _ => taken.ok_iff some_text, taken.malformed_iff,
    fun _ _ => taken.mismatch_iff some_text, fun _ _ => taken.status_iff, fun _ => taken.sort,
    isInputSpecific_iff, fun e q rest w _ => run_embedSingly_of_error _ e q rest w⟩

end Batches

section Sample

/-- A service that is up and gives one response to every batch. -/
def constantSample (r : Http.Response) : Net Unit where
  send := fun request _ => (.response (if request.isPost then r else { status := 200 }), ())
  pause := fun _ _ => ()

/-- Two vectors of two numbers. -/
def pairsSample : Http.Response :=
  { status := 200
    body := "\x7b\"model\": \"m\", \"embeddings\": [[1, 2], [0.5, -3]]\x7d".toUTF8.toList }

/-- Where three numbers are declared, vectors of two are rejected, because of their length and not
because of the text. -/
theorem usable_answers_only_pairsSample :
    (["a", "b"] : List String) ≠ [] ∧
      waitUntilReady (constantSample pairsSample) { dimension := some 3 } { network := () } =
        (.ok (), { ready := true, network := () }) ∧
      Http.sendWithRetry (constantSample pairsSample) (policy { dimension := some 3 })
        (batchRequest { dimension := some 3 } "m" ["a", "b"]) () = (.ok pairsSample, ()) ∧
      (embedBatch (constantSample pairsSample) { dimension := some 3 } "m" ["a", "b"]
        { network := () }).1 = .error (.dimensionMismatch 3 2) := by
  have decoded : Decodes pairsSample.body [#[1, 2], #[0.5, -3]] :=
    decoded_iff.mp (by decide +kernel)
  have measure : Measure [#[1, 2], #[0.5, -3]] 2 := ⟨by decide, by decide⟩
  obtain ⟨_, _, mismatched, _⟩ := @usable_answers_only Unit (constantSample pairsSample)
    { dimension := some 3 } "m" ["a", "b"] { network := () } _ _ _ (by decide) rfl rfl
  exact ⟨by decide, rfl, rfl,
    (mismatched 3 2).mpr ⟨by decide, rfl, by decide, _, decoded, rfl, measure⟩⟩

end Sample

end Service

end Lookalike
