import Unbraid.Proofs.Frame.Segments
import Unbraid.Proofs.Json.Astray

/-!
# Messages of which a part was sent

An agent writes objects that decode and hold no tag, and may stop in the middle of one. In what it
has sent under the standard tags, the tags of the messages are the only ones (`occurrences_stream`).
What comes after a body that was cut leads a reader astray, so the two together never make a value
(`run?_body_append`).
-/

namespace Unbraid

/-- An object that decodes, with a key that begins with a letter, and without a standard tag: such
are the bodies that the agent writes. The letter matters where a body before was cut inside a
string: then the quote of the key ends that string, and no value goes on with a letter behind it. -/
structure GoodBody (body : Bytes) : Prop where
  opens : ∃ letter rest, body = 0x7B :: 0x22 :: letter :: rest ∧ Json.isLetter letter = true
  closes : body.getLast? = some 0x7D
  reads : (Json.decode body).verdict = .complete
  noTag : ∀ kind, ¬ TagPair.standard.bytes kind <:+: body

theorem GoodBody.probe {body : Bytes} (good : GoodBody body) : Json.probe body = .complete := by
  have reads := good.reads
  cases read : Json.decode body with
  | complete value => exact Json.probe_of_decode read
  | incomplete => rw [read] at reads; cases reads
  | malformed => rw [read] at reads; cases reads

/-- A message that was to be sent, and how many bytes of its body were. -/
structure Sent where
  kind : TagKind
  meant : Bytes
  good : GoodBody meant
  length : Nat

namespace Sent

def body (sent : Sent) : Bytes := sent.meant.take sent.length

def message (sent : Sent) : Message := ⟨sent.kind, sent.body⟩

def isWhole (sent : Sent) : Bool := sent.meant.length ≤ sent.length

/-- The bytes of messages that were sent one after the other. -/
def stream (frames : List Sent) : Bytes :=
  frames.flatMap fun sent => sent.message.wire .standard

/-- The tags of messages that were sent one after the other, the first of them at an offset. -/
def hits (offset : Nat) : List Sent → List Hit
  | [] => []
  | sent :: rest =>
    ⟨offset, sent.kind⟩ :: hits (offset + TagPair.standard.length + sent.body.length) rest

theorem stream_cons (sent : Sent) (rest : List Sent) :
    stream (sent :: rest) =
      TagPair.standard.bytes sent.kind ++ (sent.body ++ stream rest) := by
  rw [stream, List.flatMap_cons, Message.wire, List.append_assoc]
  rfl

/-- A standard tag is a capital T and text without another. -/
theorem exists_tag (kind : TagKind) :
    ∃ text, TagPair.standard.bytes kind = Json.capitalT :: text ∧ text.length = 5 ∧
      Json.capitalT ∉ text ∧ ∀ byte ∈ Json.capitalT :: text, Json.isText byte = true := by
  cases kind with
  | tool => exact ⟨[0x6F, 0x6F, 0x6C, 0x20, 0x3A], rfl, rfl, by decide, List.all_eq_true.1 rfl⟩
  | model => exact ⟨[0x6F, 0x6C, 0x79, 0x20, 0x3A], rfl, rfl, by decide, List.all_eq_true.1 rfl⟩

variable {sent : Sent} {rest : List Sent}

/-! ## Where the tags stand -/

theorem noTag_body (kind : TagKind) : ¬ TagPair.standard.bytes kind <:+: sent.body :=
  fun found => sent.good.noTag kind (found.trans (List.take_prefix _ _).isInfix)

/-- No tag starts in a body: the only capital T of a tag is its first byte, so it does not reach
from a body into the tag that follows. -/
theorem startOf?_body {offset : Nat} (within : offset < sent.body.length) :
    TagPair.standard.startOf? ((sent.body ++ stream rest).drop offset) = none := by
  rw [TagPair.startOf?_eq_none_iff]
  intro kind begins
  rw [List.drop_append_of_le_length (Nat.le_of_lt within)] at begins
  by_cases fits : TagPair.standard.length ≤ (sent.body.drop offset).length
  · have inside : TagPair.standard.bytes kind <+: sent.body.drop offset := by
      refine List.prefix_of_prefix_length_le begins (List.prefix_append _ _) ?_
      rw [TagPair.length_bytes]
      exact fits
    exact noTag_body kind (inside.isInfix.trans (List.drop_suffix _ _).isInfix)
  -- A tag that starts near the end of the body would hold the capital T of the tag that follows.
  · obtain ⟨text, tag, length, capitals, -⟩ := exists_tag kind
    obtain ⟨first, more, cut⟩ : ∃ first more, sent.body.drop offset = first :: more := by
      cases cut : sent.body.drop offset with
      | nil =>
        have := List.drop_eq_nil_iff.1 cut
        omega
      | cons first more => exact ⟨first, more, rfl⟩
    have short : more.length < 5 := by
      have six : TagPair.standard.length = 6 := rfl
      rw [cut, six, List.length_cons] at fits
      omega
    rw [tag, cut, List.cons_append, List.cons_prefix_cons] at begins
    cases rest with
    | nil =>
      have long := begins.2.length_le
      simp only [stream, List.flatMap_nil, List.append_nil] at long
      omega
    | cons next others =>
      obtain ⟨letters, other, -, -, -⟩ := exists_tag next.kind
      have reaches : more ++ [Json.capitalT] <+: more ++ stream (next :: others) := by
        rw [stream_cons, other, List.cons_append, List.prefix_append_right_inj,
          List.singleton_prefix_cons_iff]
      have within : more ++ [Json.capitalT] <+: text := by
        refine List.prefix_of_prefix_length_le reaches begins.2 ?_
        rw [List.length_append, List.length_singleton]
        omega
      exact capitals (within.mem (List.mem_append_right _ List.mem_cons_self))

/-- The tags in what was sent are those of the messages. -/
theorem occurrences_stream (before : Bytes) (frames : List Sent) :
    TagPair.standard.occurrences (before ++ stream frames) before.length =
      hits before.length frames := by
  induction frames generalizing before with
  | nil =>
    rw [TagPair.occurrences, List.drop_left]
    rfl
  | cons sent rest ih =>
    rw [hits]
    have stands : TagPair.standard.bytes sent.kind <+:
        (before ++ stream (sent :: rest)).drop before.length := by
      rw [List.drop_left, stream_cons]
      exact List.prefix_append _ _
    have behind : (before ++ stream (sent :: rest)).drop
        (before.length + TagPair.standard.length) = sent.body ++ stream rest := by
      rw [← List.drop_drop, List.drop_left, stream_cons, ← TagPair.length_bytes _ sent.kind,
        List.drop_left]
    have skipped : TagPair.standard.findFrom (before ++ stream (sent :: rest))
        (before.length + TagPair.standard.length + sent.body.length) =
          TagPair.standard.findFrom (before ++ stream (sent :: rest))
            (before.length + TagPair.standard.length) := by
      refine TagPair.findFrom_add fun offset within => ?_
      rw [behind]
      exact startOf?_body within
    have whole : before ++ stream (sent :: rest) =
        (before ++ TagPair.standard.bytes sent.kind ++ sent.body) ++ stream rest := by
      rw [stream_cons]
      simp only [List.append_assoc]
    have length : (before ++ TagPair.standard.bytes sent.kind ++ sent.body).length =
        before.length + TagPair.standard.length + sent.body.length := by
      rw [List.length_append, List.length_append, TagPair.length_bytes]
    rw [TagPair.occurrences_of_some (TagPair.findFrom_of_stands stands), TagPair.occurrences_eq,
      ← skipped, ← TagPair.occurrences_eq, whole, ← length, ih]

/-! ## Bodies -/

theorem body_of_isWhole (whole : sent.isWhole = true) : sent.body = sent.meant :=
  List.take_of_length_le (of_decide_eq_true whole)

theorem probe_of_isWhole (whole : sent.isWhole = true) : Json.probe sent.body = .complete := by
  rw [body_of_isWhole whole]
  exact sent.good.probe

/-- How far a body may have come: nothing, its brace, the quote of its first key, or a letter of
it. -/
theorem body_cases (sent : Sent) :
    sent.body = [] ∨ sent.body = [0x7B] ∨ sent.body = [0x7B, 0x22] ∨
      ∃ letter more, sent.body = 0x7B :: 0x22 :: letter :: more ∧
        Json.isLetter letter = true := by
  obtain ⟨letter, more, meant, letter'⟩ := sent.good.opens
  rw [body, meant]
  rcases sent.length with _ | _ | _ | length
  · exact .inl rfl
  · exact .inr (.inl rfl)
  · exact .inr (.inr (.inl rfl))
  · exact .inr (.inr (.inr ⟨letter, more.take length, rfl, letter'⟩))

theorem run?_body (begun : sent.body ≠ []) :
    ∃ state, Json.State.start.run? sent.body = some state ∧ state.InObject := by
  obtain ⟨last, whole, -⟩ := Json.probe_eq_complete_iff.1 sent.good.probe
  rw [← List.take_append_drop sent.length sent.meant] at whole
  obtain ⟨state, part, -⟩ := Json.State.run?_of_append whole
  refine ⟨state, part, ?_⟩
  have brace : ∃ more, sent.body = 0x7B :: more := by
    rcases sent.body_cases with none | one | two | ⟨letter, more, longer, -⟩
    · exact absurd none begun
    · exact ⟨_, one⟩
    · exact ⟨_, two⟩
    · exact ⟨_, longer⟩
  obtain ⟨more, brace⟩ := brace
  rw [← body, brace] at part
  exact Json.State.inObject_of_brace part

theorem probe_ne_complete (cut : sent.isWhole = false) : Json.probe sent.body ≠ .complete := by
  intro complete
  obtain ⟨state, part, ending⟩ := Json.probe_eq_complete_iff.1 complete
  obtain ⟨last, whole, -⟩ := Json.probe_eq_complete_iff.1 sent.good.probe
  rw [← List.take_append_drop sent.length sent.meant] at whole
  obtain ⟨state', part', goes⟩ := Json.State.run?_of_append whole
  obtain rfl : state = state' := Option.some.inj (part.symm.trans part')
  have short : sent.length < sent.meant.length := Nat.lt_of_not_le (of_decide_eq_false cut)
  have closes : (sent.meant.drop sent.length).getLast? = some 0x7D := by
    rw [List.getLast?_drop, if_neg (Nat.not_le.2 short)]
    exact sent.good.closes
  -- What is begun with a brace is not whole before the brace that closes it, which is yet to come.
  rcases sent.body_cases with none | one | two | ⟨letter, more, longer, -⟩
  · rw [none] at complete
    cases complete
  · rw [one] at part
    exact Json.State.ending_ne_whole part goes closes ending
  · rw [two] at part
    exact Json.State.ending_ne_whole part goes closes ending
  · rw [longer] at part
    exact Json.State.ending_ne_whole part goes closes ending

/-! ## What follows a body -/

theorem astray_append {text bytes : Bytes} (plain : ∀ byte ∈ text, Json.isText byte = true)
    (astray : Json.Astray bytes) : Json.Astray (text ++ bytes) := by
  have joined : ∀ {more : Bytes}, (∀ byte ∈ more, Json.isText byte = true) →
      ∀ byte ∈ text ++ more, Json.isText byte = true := by
    intro more after byte present
    rcases List.mem_append.1 present with before | behind
    · exact plain byte before
    · exact after byte behind
  cases astray with
  | text after => exact .text (joined after)
  | quote after =>
    rw [← List.append_assoc]
    exact .quote (joined after)
  | letter more after letter =>
    rw [← List.append_assoc]
    exact .letter more (joined after) letter

/-- What a message adds to the stream: text only, text up to a quote, or text up to a quote and a
letter after it. -/
theorem stream_cases (sent : Sent) (rest : List Sent) :
    ∃ text, 3 ≤ text.length ∧ (∀ byte ∈ Json.capitalT :: text, Json.isText byte = true) ∧
      (sent.body.length < 2 ∧ stream (sent :: rest) = Json.capitalT :: text ++ stream rest ∨
        sent.body.length = 2 ∧
          stream (sent :: rest) = Json.capitalT :: text ++ 0x22 :: stream rest ∨
        ∃ letter more, sent.body.length = more.length + 3 ∧ Json.isLetter letter = true ∧
          stream (sent :: rest) =
            Json.capitalT :: text ++ 0x22 :: letter :: (more ++ stream rest)) := by
  obtain ⟨text, tag, five, -, plain⟩ := exists_tag sent.kind
  have brace : ∀ byte ∈ Json.capitalT :: (text ++ [0x7B]), Json.isText byte = true := by
    intro byte present
    rw [← List.cons_append] at present
    rcases List.mem_append.1 present with before | last
    · exact plain byte before
    · rw [List.mem_singleton.1 last]
      rfl
  have long : 3 ≤ (text ++ [0x7B]).length := by
    rw [List.length_append]
    omega
  rw [stream_cons, tag]
  rcases sent.body_cases with none | one | two | ⟨letter, more, longer, after⟩
  · refine ⟨text, by omega, plain, .inl ⟨?_, ?_⟩⟩ <;> simp [none]
  · refine ⟨text ++ [0x7B], long, brace, .inl ⟨?_, ?_⟩⟩ <;> simp [one]
  · refine ⟨text ++ [0x7B], long, brace, .inr (.inl ⟨?_, ?_⟩)⟩ <;> simp [two]
  · refine ⟨text ++ [0x7B], long, brace, .inr (.inr ⟨letter, more, ?_, after, ?_⟩)⟩ <;>
      simp [longer]

theorem exists_stream_cons (sent : Sent) (rest : List Sent) :
    ∃ more, stream (sent :: rest) = Json.capitalT :: more ∧ 5 ≤ more.length := by
  obtain ⟨text, tag, five, -, -⟩ := exists_tag sent.kind
  refine ⟨text ++ (sent.body ++ stream rest), ?_, ?_⟩
  · rw [stream_cons, tag, List.cons_append]
  · rw [List.length_append]
    omega

/-- The first quote in what was sent opens the key of a body. -/
theorem astray_stream (frames : List Sent) : Json.Astray (stream frames) := by
  induction frames with
  | nil => exact .text fun _ none => by cases none
  | cons sent rest ih =>
    obtain ⟨text, -, plain, ⟨-, split⟩ | ⟨-, split⟩ | ⟨letter, more, -, after, split⟩⟩ :=
      stream_cases sent rest
    · rw [split]
      exact astray_append plain ih
    · rw [split]
      cases rest with
      | nil => exact .quote plain
      | cons next others =>
        obtain ⟨more, head, -⟩ := exists_stream_cons next others
        rw [head]
        exact .letter more plain rfl
    · rw [split]
      exact .letter _ plain after

theorem stream_head {frames : List Sent} {part : Bytes} (begins : part <+: stream frames)
    (further : part ≠ []) : ∃ rest, part = Json.capitalT :: rest := by
  cases part with
  | nil => exact absurd rfl further
  | cons byte rest =>
    cases frames with
    | nil => exact absurd begins.length_le (Nat.not_succ_le_zero _)
    | cons sent others =>
      obtain ⟨more, head, -⟩ := exists_stream_cons sent others
      rw [head, List.cons_prefix_cons] at begins
      exact ⟨rest, by rw [begins.1]⟩

/-- A body and something of what was sent after it never make a value, nor do they end inside a
number. What was sent begins with a capital T, which an object holds only in its strings, and what
follows then goes astray. -/
theorem run?_body_append {frames : List Sent} {part : Bytes} (begins : part <+: stream frames)
    (further : part ≠ []) :
    Json.State.start.run? (sent.body ++ part) = none ∨
      ∃ last, Json.State.start.run? (sent.body ++ part) = some last ∧ last.ending = .cut := by
  have astray := (astray_stream frames).of_begins begins
  obtain ⟨rest, rfl⟩ := stream_head begins further
  by_cases begun : sent.body = []
  · left
    rw [begun, List.nil_append]
    rfl
  · obtain ⟨state, read, inside⟩ := run?_body begun
    rw [Json.State.run?_append, read, Option.bind_some]
    exact Json.State.run?_astray inside astray

theorem probe_body_append {frames : List Sent} {part : Bytes} (begins : part <+: stream frames)
    (further : part ≠ []) : Json.probe (sent.body ++ part) ≠ .complete := by
  intro complete
  obtain ⟨state, read, whole⟩ := Json.probe_eq_complete_iff.1 complete
  rcases run?_body_append begins further with none | ⟨last, read', cut⟩
  · rw [none] at read
    cases read
  · rw [read'] at read
    obtain rfl := Option.some.inj read
    rw [cut] at whole
    cases whole

theorem not_endsInNumber_body_append {frames : List Sent} {part : Bytes}
    (begins : part <+: stream frames) (further : part ≠ []) :
    ¬ Json.EndsInNumber (sent.body ++ part) := by
  rintro ⟨state, read, number⟩
  rcases run?_body_append begins further with none | ⟨last, read', cut⟩
  · rw [none] at read
    cases read
  · rw [read'] at read
    obtain rfl := Option.some.inj read
    rw [cut] at number
    cases number

/-- Where a long body was sent as a whole, the first quote is followed by a letter, and at least
five more bytes follow. -/
theorem exists_letter {frames : List Sent} {long : Sent} (present : long ∈ frames)
    (whole : long.isWhole = true) (length : 8 ≤ long.meant.length) :
    ∃ text letter tail,
      stream frames = Json.capitalT :: text ++ 0x22 :: letter :: tail ∧ 3 ≤ text.length ∧
        (∀ byte ∈ Json.capitalT :: text, Json.isText byte = true) ∧
        Json.isLetter letter = true ∧ 5 ≤ tail.length := by
  rw [← body_of_isWhole whole] at length
  induction frames with
  | nil => cases present
  | cons sent rest ih =>
    have later : sent.body.length < 8 → long ∈ rest := by
      intro short
      rcases List.mem_cons.1 present with rfl | later
      · omega
      · exact later
    have beyond : long ∈ rest → ∃ more, stream rest = Json.capitalT :: more ∧ 5 ≤ more.length := by
      intro later
      cases rest with
      | nil => cases later
      | cons next others => exact exists_stream_cons next others
    obtain ⟨text, three, plain,
        ⟨short, split⟩ | ⟨two, split⟩ | ⟨letter, more, size, after, split⟩⟩ :=
      stream_cases sent rest
    -- Without a quote in this message, its bytes are text before the first quote of the others.
    · obtain ⟨text', letter, tail, rest', -, plain', after, five⟩ := ih (later (by omega))
      refine ⟨text ++ Json.capitalT :: text', letter, tail, ?_, ?_, ?_, after, five⟩
      · rw [split, rest']
        simp
      · rw [List.length_append]
        omega
      · intro byte present
        rw [← List.cons_append] at present
        rcases List.mem_append.1 present with before | behind
        · exact plain byte before
        · exact plain' byte behind
    -- Cut after its quote, the letter is the first byte of the next tag.
    · obtain ⟨more, head, five⟩ := beyond (later (by omega))
      rw [split, head]
      exact ⟨text, Json.capitalT, more, rfl, three, plain, rfl, five⟩
    · refine ⟨text, letter, more ++ stream rest, split, three, plain, after, ?_⟩
      rw [List.length_append]
      rcases List.mem_cons.1 present with rfl | later
      · omega
      · obtain ⟨others, head, five⟩ := beyond later
        rw [head, List.length_cons]
        omega

/-- Behind a body, a long body that was sent as a whole is not taken for text. -/
theorem run?_body_append_eq_none {frames : List Sent} {long : Sent} (present : long ∈ frames)
    (whole : long.isWhole = true) (length : 8 ≤ long.meant.length) {part : Bytes}
    (begins : part <+: stream frames) (most : (stream frames).length ≤ part.length + 5) :
    Json.State.start.run? (sent.body ++ part) = none := by
  obtain ⟨text, letter, tail, split, three, plain, after, five⟩ :=
    exists_letter present whole length
  have head : Json.capitalT :: text ++ [0x22, letter] <+: part := by
    refine List.prefix_of_prefix_length_le ?_ begins ?_
    · rw [split]
      exact ⟨tail, by simp⟩
    · rw [split] at most
      simp only [List.length_append, List.length_cons, List.length_nil] at most ⊢
      omega
  obtain ⟨rest, rfl⟩ := head
  have joined : Json.capitalT :: text ++ [0x22, letter] ++ rest =
      Json.capitalT :: text ++ 0x22 :: letter :: rest := by simp
  rw [joined]
  by_cases begun : sent.body = []
  · rw [begun, List.nil_append]
    rfl
  · obtain ⟨state, read, inside⟩ := run?_body begun
    rw [Json.State.run?_append, read, Option.bind_some]
    exact Json.State.run?_astray_letter inside three plain after rest

end Sent

end Unbraid
