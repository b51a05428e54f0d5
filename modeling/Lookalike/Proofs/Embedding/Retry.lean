import Lookalike.Embedding.Retry
import Mathlib.Algebra.Group.Nat.Defs
import Mathlib.Data.Nat.Find

/-!
# Attempts until a final outcome

A request is repeated while its outcome may still change: after an answer of a service that is
overloaded or out of order, and after a failure of the connection. The network is taken as a
sequence of outcomes, of which each request draws the next one, and keeps a log. Main result: the
requests stop at the first final outcome, or when the retries are used up, with one pause between
two requests and none behind the last.
-/

namespace Lookalike.Http

namespace Outcome

/-- The outcome of a request that is not repeated. -/
def IsFinal : Outcome → Prop
  | response r => r.status ≠ 429 ∧ ¬(500 ≤ r.status ∧ r.status ≤ 599)
  | unreachable _ => False
  | failed => True

instance : DecidablePred IsFinal
  | response r => inferInstanceAs (Decidable (r.status ≠ 429 ∧ ¬(500 ≤ r.status ∧ r.status ≤ 599)))
  | unreachable _ => .isFalse id
  | failed => .isTrue trivial

/-- What a final outcome is returned as. -/
inductive Returns : Outcome → Except EmbedError Response → Prop
  | response (r : Response) : Returns (.response r) (.ok r)
  | failed : Returns .failed (.error .http)

/-- How an outcome is described that is not final. -/
inductive Described : Outcome → String → Prop
  | response (r : Response) : Described (.response r) s!"status {r.status} {reason r.status}"
  | unreachable (description : String) : Described (.unreachable description) description

end Outcome

section Step

variable {policy : RetryPolicy} {attempt : UInt32} {outcome : Outcome}

theorem backoff_le (baseMs : Nat) (attempt : UInt32) : backoff baseMs attempt ≤ maxPause :=
  Nat.min_le_right _ _

theorem pauseAfter_le (r : Response) (baseMs : Nat) (attempt : UInt32) :
    pauseAfter r baseMs attempt ≤ maxPause := by
  rw [pauseAfter]
  split
  · exact Nat.min_le_right _ _
  · exact backoff_le _ _

theorem isRetryableStatus_iff (r : Response) :
    isRetryableStatus r.status ↔ ¬(Outcome.response r).IsFinal := by
  have within : isRetryableStatus r.status ↔
      r.status = 429 ∨ 500 ≤ r.status ∧ r.status < 600 := by simp [isRetryableStatus]
  rw [within, Outcome.IsFinal]
  omega

theorem judge_of_final (final : outcome.IsFinal) :
    ∃ result, judge policy attempt outcome = .final result ∧ outcome.Returns result := by
  cases outcome with
  | response r =>
    have passes : ¬isRetryableStatus r.status :=
      fun again => (isRetryableStatus_iff r).mp again final
    exact ⟨.ok r, by rw [judge, if_neg passes], .response r⟩
  | unreachable _ => exact final.elim
  | failed => exact ⟨.error .http, rfl, .failed⟩

theorem judge_of_not_final (passing : ¬outcome.IsFinal) : ∃ last ms,
    judge policy attempt outcome = .again last ms ∧ outcome.Described last ∧ ms ≤ maxPause := by
  cases outcome with
  | response r =>
    have again := (isRetryableStatus_iff r).mpr passing
    exact ⟨_, _, by rw [judge, if_pos again], .response r, pauseAfter_le _ _ _⟩
  | unreachable description => exact ⟨_, _, rfl, .unreachable description, backoff_le _ _⟩
  | failed => exact absurd trivial passing

end Step

section Log

variable {ρ : Type}

/-- What is done to a network. -/
inductive Move (ρ : Type) where
  | send (request : ρ)
  | pause (ms : Nat)

@[simp]
def Move.isSend : Move ρ → Bool
  | send _ => true
  | pause _ => false

/-- How many requests a log has. -/
def requestsIn (log : List (Move ρ)) : Nat := log.countP Move.isSend

/-- The network whose requests have the given outcomes, one after another. Its state is the log of
what was done to it. -/
def scripted (outcomes : Nat → Outcome) : Network (List (Move ρ)) ρ where
  send request log := (outcomes (requestsIn log), log ++ [.send request])
  pause ms log := log ++ [.pause ms]

/-- Requests with pauses between them. -/
def exchange (request : ρ) : List Nat → List (Move ρ)
  | [] => [.send request]
  | ms :: pauses => .send request :: .pause ms :: exchange request pauses

@[simp] theorem requestsIn_exchange (request : ρ) (pauses : List Nat) :
    requestsIn (exchange request pauses) = pauses.length + 1 := by
  induction pauses with
  | nil => rfl
  | cons ms pauses ih =>
    rw [requestsIn] at ih ⊢
    rw [exchange, List.countP_cons, List.countP_cons, ih]
    simp

theorem requestsIn_append (log later : List (Move ρ)) :
    requestsIn (log ++ later) = requestsIn log + requestsIn later := List.countP_append

end Log

section Attempts

variable {σ ρ : Type} {net : Network σ ρ} {policy : RetryPolicy} {request : ρ} {left : Nat}
  {attempt : UInt32} {s : σ}

theorem attempts_of_final {result : Except EmbedError Response}
    (judged : judge policy attempt (net.send request s).1 = .final result) :
    attempts net policy request left attempt s = (result, (net.send request s).2) := by
  rw [attempts]
  simp only [judged]

theorem attempts_of_last {text : String} {ms : Nat}
    (judged : judge policy attempt (net.send request s).1 = .again text ms) :
    attempts net policy request 0 attempt s =
      (.error (.retriesExhausted (policy.maxRetries + 1).toNat text), (net.send request s).2) := by
  rw [attempts]
  simp only [judged]

theorem attempts_of_again {text : String} {ms : Nat}
    (judged : judge policy attempt (net.send request s).1 = .again text ms) :
    attempts net policy request (left + 1) attempt s =
      attempts net policy request left (attempt + 1) (net.pause ms (net.send request s).2) := by
  rw [attempts]
  simp only [judged]

end Attempts

section Run

variable {ρ : Type} {outcomes : Nat → Outcome} {policy : RetryPolicy} {request : ρ}

/-- How attempts end that may be followed by `left` others, when `n` outcomes are drawn already:
after so many pauses, with the first final outcome or with the last one that was to be had. -/
structure Ending (outcomes : Nat → Outcome) (policy : RetryPolicy) (n left : Nat)
    (result : Except EmbedError Response) (pauses : List Nat) : Prop where
  pauses_le : pauses.length ≤ left
  short : ∀ ms ∈ pauses, ms ≤ maxPause
  passed : ∀ j < pauses.length, ¬(outcomes (n + j)).IsFinal
  last : (outcomes (n + pauses.length)).IsFinal ∧ (outcomes (n + pauses.length)).Returns result ∨
    ¬(outcomes (n + pauses.length)).IsFinal ∧ pauses.length = left ∧
      ∃ text, (outcomes (n + pauses.length)).Described text ∧
        result = .error (.retriesExhausted (policy.maxRetries + 1).toNat text)

/-- A final outcome ends the attempts at once. -/
theorem Ending.of_final {n left : Nat} {result : Except EmbedError Response}
    (final : (outcomes n).IsFinal) (returned : (outcomes n).Returns result) :
    Ending outcomes policy n left result [] where
  pauses_le := Nat.zero_le _
  short := by simp
  passed := by simp
  last := .inl ⟨final, returned⟩

/-- An attempt that fails for the time being puts a pause in front of the others. -/
theorem Ending.cons {n left ms : Nat} {result : Except EmbedError Response} {pauses : List Nat}
    (passing : ¬(outcomes n).IsFinal) (short : ms ≤ maxPause)
    (rest : Ending outcomes policy (n + 1) left result pauses) :
    Ending outcomes policy n (left + 1) result (ms :: pauses) := by
  have shift (j : Nat) : n + 1 + j = n + (j + 1) := by omega
  refine ⟨Nat.succ_le_succ rest.pauses_le, ?_, ?_, ?_⟩
  · intro m member
    rcases List.mem_cons.mp member with rfl | member
    · exact short
    · exact rest.short m member
  · intro j lower
    cases j with
    | zero => exact passing
    | succ j =>
      rw [← shift]
      exact rest.passed j (Nat.lt_of_succ_lt_succ lower)
  · have last := rest.last
    rw [shift] at last
    simpa using last

/-- Attempts write requests with pauses between them into the log. -/
theorem attempts_scripted (left : Nat) (attempt : UInt32) (log : List (Move ρ)) :
    ∃ result pauses,
      attempts (scripted outcomes) policy request left attempt log =
        (result, log ++ exchange request pauses) ∧
      Ending outcomes policy (requestsIn log) left result pauses := by
  induction left generalizing attempt log with
  | zero =>
    by_cases final : (outcomes (requestsIn log)).IsFinal
    · obtain ⟨result, judged, returned⟩ := judge_of_final final
      exact ⟨result, [], attempts_of_final judged, .of_final final returned⟩
    · obtain ⟨text, ms, judged, described, _⟩ := judge_of_not_final final
      exact ⟨_, [], attempts_of_last judged, Nat.le_refl _, by simp, by simp,
        .inr ⟨final, rfl, text, described, rfl⟩⟩
  | succ left ih =>
    by_cases final : (outcomes (requestsIn log)).IsFinal
    · obtain ⟨result, judged, returned⟩ := judge_of_final final
      exact ⟨result, [], attempts_of_final judged, .of_final final returned⟩
    · obtain ⟨text, ms, judged, _, short⟩ := judge_of_not_final final
      obtain ⟨result, pauses, ran, ending⟩ :=
        ih (attempt + 1) (log ++ [.send request] ++ [.pause ms])
      have drawn : requestsIn (log ++ [.send request] ++ [.pause ms]) = requestsIn log + 1 := by
        rw [requestsIn_append, requestsIn_append]
        rfl
      rw [drawn] at ending
      refine ⟨result, ms :: pauses, ?_, ending.cons final short⟩
      rw [attempts_of_again judged]
      exact ran.trans (by simp [exchange])

/-- The outcome at this place is the first final one. -/
def FirstFinal (outcomes : Nat → Outcome) (i : Nat) : Prop :=
  (outcomes i).IsFinal ∧ ∀ j < i, ¬(outcomes j).IsFinal

/-- The attempts stop at the first final outcome, or when there is none among those that the retries
allow. -/
theorem Ending.length_eq {left i : Nat} {result : Except EmbedError Response} {pauses : List Nat}
    (ending : Ending outcomes policy 0 left result pauses) (first : FirstFinal outcomes i) :
    pauses.length = min i left := by
  have bound := ending.pauses_le
  have last := ending.last
  have passed := ending.passed
  simp only [Nat.zero_add] at last passed
  have not_before : ¬i < pauses.length := fun before => passed i before first.1
  rcases last with ⟨final, _⟩ | ⟨_, used_up, _⟩
  · have not_behind : ¬pauses.length < i := fun behind => first.2 _ behind final
    omega
  · omega

theorem exists_firstFinal {i : Nat} (final : (outcomes i).IsFinal) :
    ∃ j ≤ i, FirstFinal outcomes j := by
  have some_final : ∃ j, (outcomes j).IsFinal := ⟨i, final⟩
  exact ⟨Nat.find some_final, Nat.find_min' some_final final, Nat.find_spec some_final,
    fun j lower => Nat.find_min some_final lower⟩

/-- Requests are sent up to the first final outcome, but no more of them than there are retries and
one more. Within these bounds that outcome is returned, otherwise the number of requests and the
description of the last outcome. There is one pause of at most 30 seconds between two requests, and
none before the first or behind the last. -/
theorem stops_at_first_final (outcomes : Nat → Outcome) (policy : RetryPolicy) (request : ρ)
    (countable : policy.maxRetries.toNat < 2 ^ 32 - 1) :
    ∃ result pauses,
      sendWithRetry (scripted outcomes) policy request [] = (result, exchange request pauses) ∧
      (∀ ms ∈ pauses, ms ≤ 30000) ∧
      (∀ i, FirstFinal outcomes i →
        requestsIn (exchange request pauses) = min (i + 1) (policy.maxRetries.toNat + 1) ∧
        (i ≤ policy.maxRetries.toNat → (outcomes i).Returns result)) ∧
      ((∀ i ≤ policy.maxRetries.toNat, ¬FirstFinal outcomes i) →
        requestsIn (exchange request pauses) = policy.maxRetries.toNat + 1 ∧
        ∃ text, (outcomes policy.maxRetries.toNat).Described text ∧
          result = .error (.retriesExhausted (requestsIn (exchange request pauses)) text)) := by
  obtain ⟨result, pauses, ran, ending⟩ :=
    @attempts_scripted ρ outcomes policy request policy.maxRetries.toNat 0 []
  have attempted : (policy.maxRetries + 1).toNat = policy.maxRetries.toNat + 1 := by
    rw [UInt32.toNat_add]
    exact Nat.mod_eq_of_lt (by simp; omega)
  have last := ending.last
  simp only [requestsIn, List.countP_nil, Nat.zero_add] at last
  refine ⟨result, pauses, ran, ending.short, fun i first => ?_, fun none_final => ?_⟩
  · have length := ending.length_eq first
    rw [requestsIn_exchange]
    refine ⟨by omega, fun within => ?_⟩
    rw [length, Nat.min_eq_left within] at last
    rcases last with ⟨_, returned⟩ | ⟨not_final, _⟩
    · exact returned
    · exact absurd first.1 not_final
  · rcases last with ⟨final, _⟩ | ⟨_, used_up, text, described, exhausted⟩
    · obtain ⟨j, lower, first⟩ := exists_firstFinal final
      exact absurd first (none_final j (Nat.le_trans lower ending.pauses_le))
    · rw [requestsIn_exchange, used_up]
      rw [used_up] at described
      rw [attempted] at exhausted
      exact ⟨rfl, text, described, exhausted⟩

end Run

section Sample

/-- A service that is out of order, then not to be reached, then overloaded, and then answers. -/
def recoveringSample : Nat → Outcome
  | 0 => .response { status := 503 }
  | 1 => .unreachable "connection refused"
  | 2 => .response { status := 429, headers := [("Retry-After", "7")] }
  | _ => .response { status := 200 }

/-- Three retries reach the answer, and two do not. -/
theorem stops_at_first_final_recoveringSample :
    ((3 : UInt32).toNat < 2 ^ 32 - 1 ∧ ∃ log,
      sendWithRetry (scripted recoveringSample) ⟨3, 500⟩ () [] = (.ok { status := 200 }, log) ∧
        requestsIn log = 4) ∧
    (2 : UInt32).toNat < 2 ^ 32 - 1 ∧ ∃ log,
      sendWithRetry (scripted recoveringSample) ⟨2, 500⟩ () [] =
        (.error (.retriesExhausted 3 "status 429 Too Many Requests"), log) := by
  have first : FirstFinal recoveringSample 3 := ⟨by decide, by decide⟩
  refine ⟨⟨by decide, ?_⟩, by decide, ?_⟩
  · obtain ⟨result, pauses, ran, _, ends, _⟩ :=
      stops_at_first_final recoveringSample ⟨3, 500⟩ () (by decide)
    obtain ⟨requests, returned⟩ := ends 3 first
    cases returned (by decide)
    exact ⟨_, ran, requests⟩
  · obtain ⟨result, pauses, ran, _, ends, exhausted⟩ :=
      stops_at_first_final recoveringSample ⟨2, 500⟩ () (by decide)
    obtain ⟨requests, text, described, failed⟩ := exhausted (by
      intro i within final
      have := first.2 i (Nat.lt_succ_of_le within)
      exact this final.1)
    cases described
    subst failed
    rw [requests] at ran
    exact ⟨_, ran⟩

end Sample

end Lookalike.Http
