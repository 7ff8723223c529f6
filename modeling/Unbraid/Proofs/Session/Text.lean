import Mathlib.Data.Option.Basic
import Unbraid.Proofs.Session.Steps

namespace Unbraid

theorem TokenFilter.ne_empty_of_text? {filter : TokenFilter} {event : Json.Value} {piece : String}
    (found : filter.text? event = some piece) : piece ≠ "" := by
  unfold text? at found
  simp only [Option.bind_eq_bind, Option.bind_eq_some_iff, Option.pure_def, Option.some.injEq]
    at found
  obtain ⟨_, -, _, -, _, -, _, -, _, -, _, -, _, -, text, -, _, given, rfl⟩ := found
  exact (Option.guard_eq_some' _).1 given

theorem Message.ne_empty_of_mem_pieces {filter : TokenFilter} {messages : List Message}
    {piece : String} (present : piece ∈ pieces filter messages) : piece ≠ "" := by
  obtain ⟨message, -, said⟩ := List.mem_filterMap.1 present
  unfold piece? at said
  cases kind : message.kind with
  | tool => rw [kind] at said; cases said
  | model =>
    rw [kind] at said
    obtain ⟨event, -, text⟩ := Option.bind_eq_some_iff.1 said
    exact TokenFilter.ne_empty_of_text? text

namespace Session

/-- What holds of the text after some calls, whatever the consumer has refused. -/
structure Writes (held : Called) : Prop where
  /-- A session that has not failed has written down what was taken. -/
  text : held.session.phase ≠ .failed →
    held.session.transcript.text = String.join held.outbox.pieces
  pieces : ∀ piece ∈ held.outbox.pieces, piece ≠ ""
  /-- The whole text, taken or refused, is that of the pieces taken before it. -/
  whole : ∀ before text answer after,
    held.outbox.log = before ++ ⟨.event (.complete text), answer⟩ :: after →
      text = String.join (Outbox.mk held.outbox.consumer before).pieces

theorem Signals.eq_nil_of_complete {phase : Phase} {before after : List Attempt} {text : String}
    {answer : Option Fault}
    (signals : Signals phase (before ++ ⟨.event (.complete text), answer⟩ :: after)) :
    after = [] := by
  cases after with
  | nil => rfl
  | cons next after =>
    refine absurd (signals.dropLast ⟨.event (.complete text), answer⟩ ?_)
      (not_takesPart_complete text answer)
    rw [List.dropLast_append_of_ne_nil (by simp), List.dropLast_cons_cons]
    exact List.mem_append_right _ List.mem_cons_self

/-- Whatever calls are made and whatever the consumer refuses, a session that has not failed has
written down the pieces that were taken, in their order and nothing else. When the consumer is
handed the whole text, even if it refuses that, it is the text of the pieces it has taken before. -/
theorem writes_of_calls {id : String} {settings : DemuxSettings} {session : Session}
    (started : start id settings = .ok session) (consumer : Consumer) (calls : List Call) :
    Writes (session.performAll (.fresh consumer) calls) := by
  have standing := standing_of_calls started consumer calls
  have signals := signals_of_calls started consumer calls
  generalize session.performAll (.fresh consumer) calls = held at standing signals ⊢
  refine ⟨standing.text, fun piece present => ?_, fun before text answer after handed => ?_⟩
  · exact Message.ne_empty_of_mem_pieces (standing.begins.pieces.subset present)
  · rw [handed] at signals
    obtain rfl := signals.eq_nil_of_complete
    exact standing.whole before text answer handed

/-- Two tokens and one without text, and the end of the answer. -/
def threeTokens : List Call :=
  [.feed (Bytes.ofText (token "b" ++ token "" ++ "Tol")),
    .feed (Bytes.ofText ("y :\x7b\x7d" ++ token "c")), .finish]

theorem writes_two_tokens :
    let held := (standard "s").performAll (.fresh .accepting) threeTokens
    held.session.phase = .completed ∧ held.outbox.pieces = ["b", "c"] ∧
      held.session.transcript.text = "bc" ∧ Writes held :=
  ⟨by decide +kernel, by decide +kernel, by decide +kernel,
    writes_of_calls (start_standard "s") .accepting threeTokens⟩

end Session

end Unbraid
