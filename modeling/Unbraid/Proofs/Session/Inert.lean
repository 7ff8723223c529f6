import Unbraid.Proofs.Session.Steps

/-!
# A session that is over

However it ended, a session that is over holds nothing of its input and of the calls that were
announced. Of the text it holds what the consumer was told at the end, and nothing after a failure.
Whatever is called then changes nothing and does not reach the consumer; input is refused
(`Session.inert_of_calls`).
-/

namespace Unbraid.Session

section

variable {session : Session} {outbox : Outbox}

theorem performAll_late (closed : session.phase.isClosed = true) (outbox : Outbox)
    (more : List Call) :
    (session.performAll outbox more).session = session ∧
      (session.performAll outbox more).outbox = outbox := by
  have closed : (session.performAll outbox []).session.phase.isClosed = true := closed
  exact performAll_of_closed closed more

theorem Standing.text_of_told {filter : TokenFilter} {messages : List Message}
    {parts : List Attempt} {text : String}
    (standing : Standing filter session outbox messages) (lives : session.phase ≠ .failed)
    (told : outbox.log = parts ++ [⟨.event (.complete text), none⟩]) :
    session.transcript.text = text := by
  have pieces : outbox.pieces = (Outbox.mk outbox.consumer parts).pieces := by
    rw [Outbox.pieces, Outbox.events, told, List.filterMap_append, List.filterMap_append]
    exact List.append_nil _
  rw [standing.text lives, pieces]
  exact (standing.whole parts text none told).symm

end

/-- Nothing is left of a session that is over, and nothing comes of a call. -/
structure Inert (held : Called) : Prop where
  released : held.session.Released
  /-- The last thing the consumer was told is the text that is kept, and before that it took parts
  of the answer. -/
  told : held.session.phase = .completed → ∃ parts,
    held.outbox.log = parts ++ [⟨.event (.complete held.session.transcript.text), none⟩] ∧
      ∀ attempt ∈ parts, attempt.TakesPart
  unchanged : ∀ more, (held.session.performAll held.outbox more).session = held.session ∧
    (held.session.performAll held.outbox more).outbox = held.outbox
  late : ∀ more call,
    (held.session.performAll held.outbox more).session.perform
        (held.session.performAll held.outbox more).outbox call =
      ⟨held.session.lateFault call, held.session, held.outbox, []⟩
  refuses : held.session.notOpen.kind = .stream

/-- However a session has ended, it holds no input and no keys of tool calls, and after a failure no
text. Whatever is called then, and however often, changes neither the session nor what the consumer
was handed; input is refused, and an abort gives back the fault it was made with. -/
theorem inert_of_calls {id : String} {settings : DemuxSettings} {session : Session}
    (started : start id settings = .ok session) (consumer : Consumer) (calls : List Call)
    (closed : (session.performAll (.fresh consumer) calls).session.phase.isClosed = true) :
    Inert (session.performAll (.fresh consumer) calls) := by
  have standing := standing_of_calls started consumer calls
  have signals := signals_of_calls started consumer calls
  have released := released_of_calls started consumer calls closed
  generalize session.performAll (.fresh consumer) calls = held at closed standing signals released ⊢
  refine ⟨released, fun completed => ?_, performAll_late closed held.outbox, ?_, rfl⟩
  · rw [completed] at signals
    obtain ⟨parts, text, log, taken⟩ := signals
    have lives : held.session.phase ≠ .failed := by
      rw [completed]
      nofun
    rw [standing.text_of_told lives log]
    exact ⟨parts, log, taken⟩
  · intro more call
    obtain ⟨same, silent⟩ := performAll_late closed held.outbox more
    rw [same, silent]
    exact perform_late closed held.outbox call

/-- One run is cut off in the middle of a pass, with a key, a text and bytes in hand; the other
comes to its end. -/
theorem inert_after_a_refusal_and_at_the_end :
    let failed := (standard "s").performAll
      (.fresh (.takesFirst 1 ⟨.sink, "consumer closed"⟩ true)) noticeAndToken
    let completed := (standard "s").performAll (.fresh .accepting) noticeAndToken
    failed.session.phase = .failed ∧ failed.outbox.log.length = 2 ∧ Inert failed ∧
      completed.session.phase = .completed ∧ completed.session.transcript.text = "b" ∧
      Inert completed :=
  ⟨by decide +kernel, by decide +kernel,
    inert_of_calls (start_standard "s") _ noticeAndToken (by decide +kernel),
    by decide +kernel, by decide +kernel,
    inert_of_calls (start_standard "s") _ noticeAndToken (by decide +kernel)⟩

end Unbraid.Session
