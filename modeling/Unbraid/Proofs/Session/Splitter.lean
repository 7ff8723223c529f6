import Unbraid.Proofs.Frame.Segments
import Unbraid.Proofs.Session.Fragmentation

namespace Unbraid.Session

variable {id : String} {settings : DemuxSettings} {session : Session} {chunks : List Bytes}

theorem completed_of_settled (started : start id settings = .ok session)
    (settled : session.lexer.tags.Settled chunks.flatten)
    (taken : (session.receive (.fresh .accepting) chunks).fault = none) :
    Completed settings.filter chunks.flatten.length (session.lexer.tags.segments chunks.flatten)
      (session.receive (.fresh .accepting) chunks) := by
  have whole : ¬ session.TearsNumber chunks := by
    have settled : session.lexer.tags.Settled ([] ++ chunks.flatten) := settled
    exact Frame.not_tearsNumber_of_settled settled
  have completed := Completed.of_not_tearsNumber started taken whole
  rw [streamMessages, Frame.window_eq_segments settled] at completed
  exact completed

/-- A session that takes a stream in chunks, beside a splitter that sees the whole stream and looks
at nothing but the tags. If no segment before the last is merely the beginning of a JSON value, the
payloads, the pieces, the whole text and the counts of the run are those of the segments. What comes
before the first tag has no effect: a run over the stream from that tag on, wherever it is cut,
comes to the same but for the count of bytes. -/
theorem refines_splitter (started : start id settings = .ok session)
    (settled : session.lexer.tags.Settled chunks.flatten)
    (taken : (session.receive (.fresh .accepting) chunks).fault = none) :
    Completed settings.filter chunks.flatten.length (session.lexer.tags.segments chunks.flatten)
        (session.receive (.fresh .accepting) chunks) ∧
      ∀ hit others, session.lexer.tags.findFrom chunks.flatten 0 = some hit →
        others.flatten = chunks.flatten.drop hit.offset →
        (session.receive (.fresh .accepting) others).fault = none →
        Completed settings.filter others.flatten.length
          (session.lexer.tags.segments chunks.flatten)
          (session.receive (.fresh .accepting) others) := by
  refine ⟨completed_of_settled started settled taken, ?_⟩
  intro hit others found same retaken
  have segments : session.lexer.tags.segments others.flatten =
      session.lexer.tags.segments chunks.flatten := by
    rw [same, TagPair.segments_drop found]
  rw [TagPair.Settled, ← segments, ← TagPair.Settled] at settled
  rw [← segments]
  exact completed_of_settled started settled retaken

theorem refines_splitter_after_a_preamble :
    ∃ chunks : List Bytes,
      TagPair.standard.Settled chunks.flatten ∧
      ((standard "s").receive (.fresh .accepting) chunks).fault = none ∧
      Completed DemuxSettings.standard.filter chunks.flatten.length
        (TagPair.standard.segments chunks.flatten)
        ((standard "s").receive (.fresh .accepting) chunks) :=
  ⟨[Bytes.ofText "1To", Bytes.ofText "ly :2Tool :]Toly :[1"], by decide, by decide,
    (refines_splitter (start_standard "s") (by decide) (by decide)).1⟩

end Unbraid.Session
