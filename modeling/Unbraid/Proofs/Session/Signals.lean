import Mathlib.Data.List.Induction
import Mathlib.Data.List.Infix
import Unbraid.Proofs.Session.Calls

/-!
# How an answer ends for its consumer

Whatever calls a session gets, and whatever its consumer refuses: the consumer is told at most once
how the answer ends, and nothing after that or after a refusal. `Signals` is what it has been handed
in each phase of the session; every call keeps it (`Effect.signals`), so it holds after all of them.
-/

namespace Unbraid.Session

/-- What a consumer has been handed when the session is in a phase: parts of the answer, and after
them nothing that does not end it. -/
def Signals : Phase → List Attempt → Prop
  | .receiving, log => ∀ attempt ∈ log, attempt.TakesPart
  | .draining, _ => False
  | .completed, log =>
    ∃ parts text, log = parts ++ [⟨.event (.complete text), none⟩] ∧
      ∀ attempt ∈ parts, attempt.TakesPart
  | .failed, log =>
    (∀ attempt ∈ log.dropLast, attempt.TakesPart) ∧
      ∀ text, ⟨.event (.complete text), none⟩ ∉ log

theorem not_takesPart_complete (text : String) (refusal : Option Fault) :
    ¬ Attempt.TakesPart ⟨.event (.complete text), refusal⟩ := by
  rintro ⟨event, part, equal⟩
  cases equal
  cases part

section

variable {session next : Session} {outbox : Outbox} {call : Call} {log attempts : List Attempt}
  {fault : Option Fault}

/-- A failure leaves behind the parts that were taken, and one delivery at most after them. -/
theorem Signals.failed {parts : List Attempt} (taken : ∀ attempt ∈ parts, attempt.TakesPart)
    (last : Option Attempt)
    (other : ∀ attempt ∈ last, ∀ text, attempt ≠ ⟨.event (.complete text), none⟩) :
    Signals .failed (parts ++ last.toList) := by
  refine ⟨fun attempt present => ?_, fun text present => ?_⟩
  · cases last with
    | none =>
      rw [Option.toList_none, List.append_nil] at present
      exact taken attempt (List.mem_of_mem_dropLast present)
    | some final =>
      rw [Option.toList_some, List.dropLast_concat] at present
      exact taken attempt present
  · rcases List.mem_append.1 present with among | end'
    · exact not_takesPart_complete text none (taken _ among)
    · exact other _ (Option.mem_toList.1 end') text rfl

theorem takesPart_append (taken : ∀ attempt ∈ log, attempt.TakesPart)
    (more : ∀ attempt ∈ attempts, attempt.TakesPart) :
    ∀ attempt ∈ log ++ attempts, attempt.TakesPart := by
  intro attempt present
  rcases List.mem_append.1 present with before | after
  · exact taken attempt before
  · exact more attempt after

theorem Effect.signals (effect : Effect session outbox call attempts fault next)
    (signals : Signals session.phase log) : Signals next.phase (log ++ attempts) := by
  cases effect with
  | idle => rwa [List.append_nil]
  | fed receiving course goesOn =>
    rw [receiving] at signals
    rw [goesOn]
    exact takesPart_append signals course.takesPart
  | refused last receiving course =>
    rw [receiving] at signals
    obtain ⟨parts, event, rfl, part, taken⟩ := course.exists_refused
    rw [← List.append_assoc]
    refine Signals.failed (takesPart_append signals taken) (some _) ?_
    rintro attempt ⟨⟩ text equal
    cases equal
  | overLimit refusal last receiving course exceeds =>
    rw [receiving] at signals
    rw [← List.append_assoc]
    refine Signals.failed (takesPart_append signals course.takesPart) (some _) ?_
    rintro attempt ⟨⟩ text equal
    cases equal
  | unheard last receiving course =>
    rw [receiving] at signals
    rw [← List.append_assoc]
    refine Signals.failed (takesPart_append signals course.takesPart) (some _) ?_
    rintro attempt ⟨⟩ text equal
    cases equal
  | finished last receiving course =>
    rw [receiving] at signals
    exact ⟨_, _, (List.append_assoc ..).symm, takesPart_append signals course.takesPart⟩
  | aborted refusal receiving =>
    rw [receiving] at signals
    refine Signals.failed signals (some _) ?_
    rintro attempt ⟨⟩ text equal
    cases equal
  | cancelled receiving =>
    rw [receiving] at signals
    exact Signals.failed signals none fun attempt nothing => by cases nothing

theorem Signals.between {phase : Phase} (signals : Signals phase log) : phase ≠ .draining := by
  rintro rfl
  exact signals

theorem signals_performAll (signals : Signals session.phase outbox.log) (calls : List Call) :
    Signals (session.performAll outbox calls).session.phase
      (session.performAll outbox calls).outbox.log := by
  refine Called.run_induction
    (motive := fun called => Signals called.session.phase called.outbox.log)
    (fun called call kept => ?_) signals calls
  obtain ⟨attempts, log, effect⟩ := perform_effect kept.between called.outbox call
  rw [log.log]
  exact effect.signals kept

/-- Only the last delivery can be anything but a part of the answer that is taken. -/
theorem Signals.dropLast {phase : Phase} (signals : Signals phase log) :
    ∀ attempt ∈ log.dropLast, attempt.TakesPart := by
  cases phase with
  | receiving => exact fun attempt present => signals attempt (List.mem_of_mem_dropLast present)
  | draining => exact signals.elim
  | completed =>
    obtain ⟨parts, text, rfl, taken⟩ := signals
    rwa [List.dropLast_concat]
  | failed => exact signals.1

theorem Signals.completed_iff {phase : Phase} (signals : Signals phase log) :
    phase = .completed ↔ ∃ text, ⟨.event (.complete text), none⟩ ∈ log := by
  cases phase with
  | receiving =>
    refine ⟨fun wrong => (nomatch wrong), fun ⟨text, present⟩ => ?_⟩
    exact absurd (signals _ present) (not_takesPart_complete text none)
  | draining => exact signals.elim
  | completed =>
    obtain ⟨parts, text, rfl, -⟩ := signals
    exact ⟨fun _ => ⟨text, List.mem_append_right _ List.mem_cons_self⟩, fun _ => rfl⟩
  | failed =>
    exact ⟨nofun, fun ⟨text, present⟩ => absurd present (signals.2 text)⟩

/-- A failure is signalled by an abort, or by a chunk with which too much would be held. -/
theorem Effect.failure (effect : Effect session outbox call attempts fault next) {cause : Fault}
    {refusal : Option Fault} (signalled : ⟨.failure cause, refusal⟩ ∈ attempts) :
    session.phase = .receiving ∧ next.phase = .failed ∧
      (call = .abort cause ∨
        ∃ chunk, call = .feed chunk ∧ session.Exceeds chunk outbox ∧
          cause = session.limitFault) := by
  cases effect with
  | idle => cases signalled
  | fed _ course => exact absurd signalled (course.not_failure cause refusal)
  | refused _ _ course => exact absurd signalled (course.not_failure cause refusal)
  | overLimit other last receiving course exceeds =>
    rcases List.mem_append.1 signalled with before | last
    · exact absurd before (course.not_failure cause refusal)
    · cases List.mem_singleton.1 last
      exact ⟨receiving, rfl, .inr ⟨_, rfl, exceeds, rfl⟩⟩
  | unheard _ _ course =>
    rcases List.mem_append.1 signalled with before | last
    · exact absurd before (course.not_failure cause refusal)
    · cases List.mem_singleton.1 last
  | finished _ _ course =>
    rcases List.mem_append.1 signalled with before | last
    · exact absurd before (course.not_failure cause refusal)
    · cases List.mem_singleton.1 last
  | aborted other receiving =>
    cases List.mem_singleton.1 signalled
    exact ⟨receiving, rfl, .inl rfl⟩
  | cancelled => cases signalled

end

/-- What a consumer can rely on after some calls, and in the call after them. -/
structure EndsOnce (held : Called) : Prop where
  /-- Only the last delivery can end the answer, be refused or signal a failure. -/
  once : ∀ attempt ∈ held.outbox.log.dropLast, attempt.TakesPart
  between : held.session.phase ≠ .draining
  completed : held.session.phase = .completed ↔
    ∃ text, ⟨.event (.complete text), none⟩ ∈ held.outbox.log
  failure : ∀ call, ∃ attempts,
    (held.session.perform held.outbox call).outbox.log = held.outbox.log ++ attempts ∧
      ∀ cause refusal, ⟨.failure cause, refusal⟩ ∈ attempts →
        held.session.phase = .receiving ∧
          (held.session.perform held.outbox call).session.phase = .failed ∧
          (call = .abort cause ∨
            ∃ chunk, call = .feed chunk ∧ held.session.Exceeds chunk held.outbox ∧
              cause = held.session.limitFault)
  closed : held.session.phase ≠ .receiving → ∀ call,
    (held.session.perform held.outbox call).session.phase = held.session.phase ∧
      (held.session.perform held.outbox call).outbox.log = held.outbox.log

/-- Whatever calls are made and whatever the consumer refuses, it is told once at most how the
answer ends, that it is complete or that it has failed, and hears nothing after that. Of a failure
it is told only by an abort, or by a chunk with which more would be held than is allowed; after a
refusal nobody tells it anything. -/
theorem endsOnce_of_calls {id : String} {settings : DemuxSettings} {session : Session}
    (started : start id settings = .ok session) (consumer : Consumer) (calls : List Call) :
    EndsOnce (session.performAll (.fresh consumer) calls) := by
  have fresh : Signals session.phase (Outbox.fresh consumer).log := by
    rw [(Receives.of_start started).2.phase]
    intro attempt none
    cases none
  have signals := signals_performAll fresh calls
  refine ⟨signals.dropLast, signals.between, signals.completed_iff, fun call => ?_, ?_⟩
  · obtain ⟨attempts, log, effect⟩ := perform_effect signals.between _ call
    exact ⟨attempts, log.log, fun cause refusal signalled => effect.failure signalled⟩
  · intro ended call
    have closed : (session.performAll (.fresh consumer) calls).session.phase.isClosed = true := by
      cases phase : (session.performAll (.fresh consumer) calls).session.phase with
      | receiving => exact absurd phase ended
      | draining => exact absurd phase signals.between
      | completed => rfl
      | failed => rfl
    obtain ⟨same, silent⟩ := perform_of_closed closed _ call
    rw [same, silent]
    exact ⟨rfl, rfl⟩

/-- A tool notice that is taken and a second one that is refused, and more calls after that. -/
def callsAfterRefusal : List Call :=
  [.feed (Bytes.ofText ("Tool :\x7b\"tool_name\":\"a\",\"additional_kwargs\":1\x7d" ++
      "Tool :\x7b\"tool_name\":\"b\",\"additional_kwargs\":1\x7dToly :")),
    .finish, .abort ⟨.agent, "gone"⟩, .cancel]

theorem endsOnce_after_a_refusal :
    let held := (standard "s").performAll
      (.fresh (.takesFirst 1 ⟨.sink, "consumer closed"⟩ true)) callsAfterRefusal
    held.session.phase = .failed ∧ held.outbox.log.length = 2 ∧ EndsOnce held :=
  ⟨by decide +kernel, by decide +kernel, endsOnce_of_calls (start_standard "s") _ _⟩

end Unbraid.Session
