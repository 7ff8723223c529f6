import Unbraid.Proofs.Session.Run

/-!
# However a stream is cut

Two runs over one stream, cut into different chunks, with a consumer that takes everything. They
should come to the same, and almost always do. The exception is a message in which a tag was passed
over: if a chunk ends while the lexer stands inside a number behind that tag, say after a minus
sign, the bytes it has passed read as malformed, and the message is closed at the tag. `TearsNumber`
says that some pass of a run does this.

This module proves the following.

* A run that tears a number does not handle the messages of the stream, and a run that tears none
  does (`handledOfKind_eq_iff`).
* Two runs of which neither tears a number have the same outcome: the payloads, the pieces, the
  whole text and the counts (`same_outcome_of_same_stream`).
* A run that tears a number can lose a piece of text that another run over the same stream hands
  over (`outcome_depends_on_a_cut_in_a_number`).
-/

namespace Unbraid.Session

/-- Two calls that leave the same behind: each kind of event in the same order, and the counts. -/
structure SameOutcome (one other : Called) : Prop where
  payloads : one.outbox.payloads = other.outbox.payloads
  pieces : one.outbox.pieces = other.outbox.pieces
  wholes : one.outbox.wholes = other.outbox.wholes
  statistics : one.session.statistics = other.session.statistics

def streamMessages (session : Session) (stream : Bytes) : List Message :=
  (Frame.window session.lexer.tags stream 0).map Frame.message

/-- The messages of a kind that the calls of a run handle, in the order in which they do. -/
def handledOfKind (session : Session) (chunks : List Bytes) (kind : TagKind) : List Message :=
  Message.ofKind kind
    (((session.receiveCalls (.fresh .accepting) chunks).flatMap Called.steps).map Step.message)

/-- A pass of the run closes a message inside a number that the stream carries on. -/
def TearsNumber (session : Session) (chunks : List Bytes) : Prop :=
  Frame.TearsNumber session.lexer.tags chunks.flatten [] 0 chunks

variable {id other : String} {settings : DemuxSettings} {first second session : Session}
  {chunks others : List Bytes}

theorem ofKind_calls {kind : TagKind} {shares : List (List Message)} {calls : List Called}
    (each : List.Forall₂ (fun share called => Concluded (Message.byKind share) called.steps) shares
      calls) :
    Message.ofKind kind ((calls.flatMap Called.steps).map Step.message) =
      Message.ofKind kind shares.flatten := by
  induction each with
  | nil => rfl
  | cons call rest ih =>
    rw [List.flatten_cons, List.flatMap_cons, List.map_append, Message.ofKind_append,
      Message.ofKind_append, ih, call.once, Message.ofKind_byKind]

/-- The calls of a run handle the messages of the stream, kind by kind, if and only if the run tears
no number. -/
theorem handledOfKind_eq_iff (started : start id settings = .ok session)
    (taken : (session.receive (.fresh .accepting) chunks).fault = none) :
    (∀ kind, session.handledOfKind chunks kind =
        Message.ofKind kind (session.streamMessages chunks.flatten)) ↔
      ¬ session.TearsNumber chunks := by
  obtain ⟨-, shares⟩ := receive_spec started taken
  have inside : 0 ≤ (Lexer.after session.lexer.tags []).position := Nat.zero_le _
  rw [TearsNumber, ← List.nil_append chunks.flatten, ← Frame.passes_eq_window_iff inside]
  simp only [handledOfKind, streamMessages, ofKind_calls shares.each, List.map_flatten,
    List.nil_append]

theorem Completed.of_not_tearsNumber (started : start id settings = .ok session)
    (taken : (session.receive (.fresh .accepting) chunks).fault = none)
    (whole : ¬ session.TearsNumber chunks) :
    Completed settings.filter chunks.flatten.length (session.streamMessages chunks.flatten)
      (session.receive (.fresh .accepting) chunks) := by
  obtain ⟨completed, -⟩ := receive_spec started taken
  have inside : 0 ≤ (Lexer.after session.lexer.tags []).position := Nat.zero_le _
  rw [TearsNumber, ← List.nil_append chunks.flatten] at whole
  rw [Frame.flatten_passes inside whole, List.nil_append] at completed
  exact completed

theorem Completed.sameOutcome {filter : TokenFilter} {bytesIn : Nat} {messages : List Message}
    {one two : Called} (completed : Completed filter bytesIn messages one)
    (again : Completed filter bytesIn messages two) : SameOutcome one two :=
  ⟨completed.payloads.trans again.payloads.symm, completed.pieces.trans again.pieces.symm,
    completed.wholes.trans again.wholes.symm, completed.statistics.trans again.statistics.symm⟩

/-- Two runs over one stream that is cut in different places, each with a consumer that takes
everything. A run handles the messages of the undivided stream, kind by kind, if and only if no pass
of it closes a message inside a number that the stream carries on. If neither run tears a number
like that, both hand over the same payloads, pieces and whole text, and count the same. The
condition cannot be dropped (`outcome_depends_on_a_cut_in_a_number`). -/
theorem same_outcome_of_same_stream (started : start id settings = .ok first)
    (restarted : start other settings = .ok second) (same : chunks.flatten = others.flatten)
    (taken : (first.receive (.fresh .accepting) chunks).fault = none)
    (retaken : (second.receive (.fresh .accepting) others).fault = none) :
    ((∀ kind, first.handledOfKind chunks kind =
        Message.ofKind kind (first.streamMessages chunks.flatten)) ↔ ¬ first.TearsNumber chunks) ∧
    ((∀ kind, second.handledOfKind others kind =
        Message.ofKind kind (first.streamMessages chunks.flatten)) ↔
      ¬ second.TearsNumber others) ∧
    (¬ first.TearsNumber chunks → ¬ second.TearsNumber others →
      SameOutcome (first.receive (.fresh .accepting) chunks)
        (second.receive (.fresh .accepting) others)) := by
  have tags : first.lexer.tags = second.lexer.tags := by
    have one := (Receives.of_start started).1
    rw [(Receives.of_start restarted).1] at one
    exact (Except.ok.inj one).symm
  have messages : first.streamMessages chunks.flatten = second.streamMessages others.flatten := by
    rw [streamMessages, streamMessages, tags, same]
  refine ⟨handledOfKind_eq_iff started taken, ?_, fun whole rewhole => ?_⟩
  · rw [messages]
    exact handledOfKind_eq_iff restarted retaken
  · have completed := Completed.of_not_tearsNumber started taken whole
    rw [messages, same] at completed
    exact completed.sameOutcome (Completed.of_not_tearsNumber restarted retaken rewhole)

theorem same_outcome_of_a_cut_tag :
    ((standard "s").receive (.fresh .accepting) [Bytes.ofText "Toly :1"]).fault = none ∧
      ((standard "r").receive (.fresh .accepting)
        [Bytes.ofText "To", Bytes.ofText "ly :1"]).fault = none ∧
      SameOutcome ((standard "s").receive (.fresh .accepting) [Bytes.ofText "Toly :1"])
        ((standard "r").receive (.fresh .accepting) [Bytes.ofText "To", Bytes.ofText "ly :1"]) := by
  obtain ⟨first, second, outcome⟩ :=
    same_outcome_of_same_stream (start_standard "s") (start_standard "r")
      (show [Bytes.ofText "Toly :1"].flatten =
        [Bytes.ofText "To", Bytes.ofText "ly :1"].flatten by decide) (by decide) (by decide)
  refine ⟨by decide, by decide, outcome (first.1 fun kind => ?_) (second.1 fun kind => ?_)⟩
  · cases kind <;> decide
  · cases kind <;> decide

/-- The model's event up to a last digit, with a tag in its text, and then the end of the event.
When the last byte has yet to come, the lexer has passed the minus sign and none of the digits. -/
def cutInNumber : List Bytes :=
  [Bytes.ofText ("Toly :\x7b\"event\":\"on_chat_model_stream\",\"metadata\":" ++
      "\x7b\"langgraph_node\":\"Toly\"\x7d,\"data\":\x7b\"chunk\":" ++
      "\x7b\"content\":\"Tool :\"\x7d\x7d,\"n\":-12345"),
    Bytes.ofText "\x7d"]

/-- The text of the event is handed over if it comes in one chunk, and lost if its last byte comes
apart, so the outcome is not the same for every cut. In the second run the lexer stands behind the
minus sign after the first chunk; what it has passed is malformed, and the message is closed at the
tag in its text. -/
theorem outcome_depends_on_a_cut_in_a_number :
    ¬ ∀ chunks others : List Bytes, chunks.flatten = others.flatten →
      ((standard "s").receive (.fresh .accepting) chunks).fault = none →
      ((standard "s").receive (.fresh .accepting) others).fault = none →
      SameOutcome ((standard "s").receive (.fresh .accepting) chunks)
        ((standard "s").receive (.fresh .accepting) others) := by
  intro always
  have handed : ((standard "s").receive (.fresh .accepting) [cutInNumber.flatten]).outbox.pieces =
      ["Tool :"] := by decide +kernel
  have lost : ((standard "s").receive (.fresh .accepting) cutInNumber).outbox.pieces = [] := by
    decide +kernel
  have same := (always [cutInNumber.flatten] cutInNumber (List.append_nil _)
    (by decide +kernel) (by decide +kernel)).pieces
  rw [handed, lost] at same
  cases same

end Unbraid.Session
