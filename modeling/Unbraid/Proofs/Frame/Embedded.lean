import Unbraid.Proofs.Frame.Sent

/-!
# Tags inside a value

The text of a standard tag may stand inside the strings of a body, any number of times. The lexer
records it there, since no standard tag begins inside another (`TagPair.recorded_of_stands`). But a
body cut before it is only the beginning of a value. So a body that is a value ends at the tag that
follows it, and at none before (`Frame.extract_of_value`).
-/

namespace Unbraid

namespace TagPair

/-- No tag begins inside another. -/
def Apart (tags : TagPair) : Prop :=
  ∀ (bytes : Bytes) (kind other : TagKind) (count : Nat), 0 < count → count < tags.length →
    tags.bytes kind <+: bytes → ¬ tags.bytes other <+: bytes.drop count

theorem apart_standard : standard.Apart := by
  intro bytes kind other count further within begins inside
  obtain ⟨text, tag, five, capitals, -⟩ := Sent.exists_tag kind
  obtain ⟨letters, tag', -, -, -⟩ := Sent.exists_tag other
  obtain ⟨behind, rfl⟩ := begins
  obtain ⟨count, rfl⟩ := Nat.exists_eq_add_of_lt further
  have six : standard.length = 6 := rfl
  rw [tag, tag', Nat.zero_add, List.cons_append, List.drop_succ_cons,
    List.drop_append_of_le_length (by omega)] at inside
  cases cut : text.drop count with
  | nil =>
    have short := List.drop_eq_nil_iff.1 cut
    omega
  | cons first rest =>
    rw [cut, List.cons_append, List.cons_prefix_cons] at inside
    refine capitals (List.mem_of_mem_drop (i := count) ?_)
    rw [cut, inside.1]
    exact List.mem_cons_self

/-- Of tags that do not begin inside another, the search misses none. It looks for the next tag
behind the last one, so it could only miss one that begins inside that. -/
theorem recorded_of_stands {tags : TagPair} (apart : tags.Apart) {buffer : Bytes}
    {start offset : Nat} {kind : TagKind} (within : start ≤ offset)
    (stands : tags.bytes kind <+: buffer.drop offset) :
    ⟨offset, kind⟩ ∈ tags.occurrences buffer start := by
  have begins := startOf?_eq_some_iff.2 stands
  induction start using chain_induction tags buffer with
  | last start absent =>
    have nothing := startOf?_of_search_none absent (offset - start)
    rw [List.drop_drop, Nat.add_sub_cancel' within, begins] at nothing
    cases nothing
  | next start first found ih =>
    have bounds := bounds_of_findFrom found
    have known := startOf?_at_search found
    rw [List.drop_drop, Nat.add_sub_cancel' bounds.1] at known
    rw [occurrences_of_some found]
    rcases Nat.lt_trichotomy offset first.offset with before | rfl | behind
    · have nothing : tags.startOf? ((buffer.drop start).drop (offset - start)) = none :=
        startOf?_before_search found (by omega)
      rw [List.drop_drop, Nat.add_sub_cancel' within, begins] at nothing
      cases nothing
    · rw [begins] at known
      obtain rfl := Option.some.inj known
      exact List.mem_cons_self
    · refine List.mem_cons_of_mem _ (ih ?_)
      by_contra overlap
      refine apart (buffer.drop first.offset) first.kind kind (offset - first.offset) (by omega)
        (by omega) (startOf?_eq_some_iff.1 known) ?_
      rw [List.drop_drop, Nat.add_sub_cancel' (Nat.le_of_lt behind)]
      exact stands

end TagPair

/-! ## A buffer that grows -/

namespace Lexer

/-- The lexer after it has gone on with each of some chunks, which were added to a buffer. -/
def advanceAll (lexer : Lexer) (buffer : Bytes) : List Bytes → Lexer
  | [] => lexer
  | chunk :: rest => (lexer.advance (buffer ++ chunk)).advanceAll (buffer ++ chunk) rest

theorem after_advanceAll (tags : TagPair) (received : Bytes) (chunks : List Bytes) :
    (after tags received).advanceAll received chunks = after tags (received ++ chunks.flatten) := by
  induction chunks generalizing received with
  | nil => rw [List.flatten_nil, List.append_nil, advanceAll]
  | cons chunk rest ih =>
    rw [advanceAll, after_advance, ih, List.flatten_cons, List.append_assoc]

end Lexer

namespace Frame

/-! ## The body of a value -/

theorem boundary_of_value {bytes : Bytes} {start : Nat} {next : Hit} {before : List Hit}
    (passed : ∀ hit ∈ before, Json.probe (bytes.take (hit.offset - start)) = .incomplete)
    (value : Json.probe (bytes.take (next.offset - start)) = .complete) (first : Option Nat)
    (rest : List Hit) :
    boundary bytes start first (before ++ next :: rest) = .ends next.offset := by
  induction before generalizing first with
  | nil => rw [List.nil_append, boundary, value]
  | cons hit others ih =>
    rw [List.cons_append, boundary, passed hit List.mem_cons_self]
    exact ih (fun other later => passed other (List.mem_cons_of_mem _ later)) _

theorem exists_capitalT {body behind : Bytes} {kind : TagKind} {count : Nat}
    (within : count < body.length)
    (stands : TagPair.standard.bytes kind <+: (body ++ behind).drop count) :
    ∃ rest, body = body.take count ++ Json.capitalT :: rest := by
  obtain ⟨text, tag, -⟩ := Sent.exists_tag kind
  cases cut : body.drop count with
  | nil =>
    have short := List.drop_eq_nil_iff.1 cut
    omega
  | cons first rest =>
    rw [List.drop_append_of_le_length (Nat.le_of_lt within), cut, tag, List.cons_append,
      List.cons_prefix_cons] at stands
    refine ⟨rest, ?_⟩
    rw [stands.1, ← cut, List.take_append_drop]

section

variable {before body behind : Bytes} {kind next : TagKind}

/-- A body between two tags, with what comes before the first tag and behind the second. -/
def between (before body behind : Bytes) (kind next : TagKind) : Bytes :=
  before ++ (TagPair.standard.bytes kind ++ (body ++ (TagPair.standard.bytes next ++ behind)))

theorem between_drop_start :
    (between before body behind kind next).drop (before.length + TagPair.standard.length) =
      body ++ (TagPair.standard.bytes next ++ behind) := by
  rw [between, ← List.drop_drop, List.drop_left, ← TagPair.length_bytes _ kind, List.drop_left]

theorem ending_hit_recorded (before body behind : Bytes) (kind next : TagKind) :
    ⟨before.length + TagPair.standard.length + body.length, next⟩ ∈
      (Lexer.after .standard (between before body behind kind next)).hitsAfter before.length := by
  refine List.mem_filter.2 ⟨?_, decide_eq_true (Nat.le_add_right _ _)⟩
  refine TagPair.recorded_of_stands TagPair.apart_standard (Nat.zero_le _) ?_
  rw [← List.drop_drop, between_drop_start, List.drop_left]
  exact List.prefix_append _ _

theorem exists_capitalT_at_hit {hit : Hit}
    (recorded : hit ∈
      (Lexer.after .standard (between before body behind kind next)).hitsAfter before.length)
    (within : hit.offset < before.length + TagPair.standard.length + body.length) :
    ∃ rest, body = body.take (hit.offset - (before.length + TagPair.standard.length)) ++
      Json.capitalT :: rest := by
  obtain ⟨known, after⟩ := List.mem_filter.1 recorded
  have after : before.length + TagPair.standard.length ≤ hit.offset := of_decide_eq_true after
  have begins := Lexer.stands_of_mem known
  rw [← Nat.add_sub_cancel' after, ← List.drop_drop, between_drop_start] at begins
  exact exists_capitalT (by omega) begins

/-- Of the tags after the first, one stands at the end of the body, and those before it inside. -/
theorem split_at_ending_hit (before body behind : Bytes) (kind next : TagKind) :
    let hits := (Lexer.after .standard (between before body behind kind next)).hitsAfter
      before.length
    let stop := before.length + TagPair.standard.length + body.length
    ∃ earlier later, hits = earlier ++ ⟨stop, next⟩ :: later ∧
      ∀ hit ∈ earlier, hit ∈ hits ∧ hit.offset < stop := by
  intro hits stop
  obtain ⟨earlier, later, split⟩ :=
    List.append_of_mem (ending_hit_recorded before body behind kind next)
  have apart := (apart_after .standard (between before body behind kind next)).filter
    fun hit => before.length + TagPair.standard.length ≤ hit.offset
  have apart : (earlier ++ ⟨stop, next⟩ :: later).Pairwise
      fun hit later => hit.offset + TagPair.standard.length ≤ later.offset := split ▸ apart
  refine ⟨earlier, later, split, fun hit present => ⟨?_, ?_⟩⟩
  · show hit ∈ (Lexer.after .standard (between before body behind kind next)).hitsAfter _
    rw [split]
    exact List.mem_append_left _ present
  · have ends := (List.pairwise_append.1 apart).2.2 hit present _ List.mem_cons_self
    exact Nat.lt_of_lt_of_le (Nat.lt_add_of_pos_right TagPair.standard.length_pos) ends

theorem probe_at_hit {hit : Hit} (value : Json.probe body = .complete)
    (recorded : hit ∈
      (Lexer.after .standard (between before body behind kind next)).hitsAfter before.length)
    (within : hit.offset < before.length + TagPair.standard.length + body.length) :
    Json.probe ((body ++ (TagPair.standard.bytes next ++ behind)).take
      (hit.offset - (before.length + TagPair.standard.length))) = .incomplete := by
  obtain ⟨rest, cut⟩ := exists_capitalT_at_hit recorded within
  rw [List.take_append_of_le_length (by omega)]
  rw [cut] at value
  exact Json.probe_before_capitalT value

/-- Of the tags after the first, one stands at the end of the body, and the body is only the
beginning of a value at those before. -/
theorem exists_ending_hit (before behind : Bytes) (kind next : TagKind)
    (value : Json.probe body = .complete) :
    let start := before.length + TagPair.standard.length
    ∃ earlier later,
      (Lexer.after .standard (between before body behind kind next)).hitsAfter before.length =
        earlier ++ ⟨start + body.length, next⟩ :: later ∧
      ∀ hit ∈ earlier, Json.probe ((body ++ (TagPair.standard.bytes next ++ behind)).take
        (hit.offset - start)) = .incomplete := by
  intro start
  obtain ⟨earlier, later, split, inside⟩ := split_at_ending_hit before body behind kind next
  exact ⟨earlier, later, split, fun hit present =>
    probe_at_hit value (inside hit present).1 (inside hit present).2⟩

end

/-- A value between two standard tags, with any bytes before and behind them, in a buffer that has
grown in chunks cut anywhere. Whatever stands in the strings of the value, tags included, its own
tag is recorded, and its message is all of the value and nothing behind it. -/
theorem extract_of_value {before body behind : Bytes} {kind next : TagKind} {chunks : List Bytes}
    (value : Json.probe body = .complete)
    (arrived : chunks.flatten = between before body behind kind next) :
    let lexer := (Lexer.fresh .standard).advanceAll [] chunks
    let hit : Hit := ⟨before.length, kind⟩
    let start := before.length + TagPair.standard.length
    hit ∈ lexer.hits ∧
      extract chunks.flatten lexer hit =
        ⟨kind, before.length, start, start + body.length, true, body⟩ := by
  intro lexer hit start
  have lexed : lexer = Lexer.after .standard chunks.flatten := by
    show (Lexer.fresh .standard).advanceAll [] chunks = _
    rw [← Lexer.after_nil, Lexer.after_advanceAll, List.nil_append]
  rw [lexed, arrived]
  constructor
  · refine TagPair.recorded_of_stands TagPair.apart_standard (Nat.zero_le _) ?_
    rw [between, List.drop_left]
    exact List.prefix_append _ _
  · obtain ⟨earlier, later, split, passed⟩ := exists_ending_hit before behind kind next value
    have whole : (body ++ (TagPair.standard.bytes next ++ behind)).take
        (start + body.length - start) = body := by
      rw [Nat.add_sub_cancel_left, List.take_left]
    have ends : boundary (body ++ (TagPair.standard.bytes next ++ behind)) start none
        (earlier ++ ⟨start + body.length, next⟩ :: later) = .ends (start + body.length) :=
      boundary_of_value passed (whole.symm ▸ value) none later
    rw [extract, Lexer.after_tags, between_drop_start, split, ofTag]
    simp only [Lexer.after_tags]
    rw [ends]
    show closed hit start (start + body.length) _ = _
    rw [closed, whole]

def embeddedBody : String := " [\"a \\\"Tool :\",\x7b\"Toly :\":\"Tool\"\x7d]\n"

/-- The chunks are cut in the middle of tags, and a beginning of a tag comes before the first. -/
theorem extract_of_embedded_tags :
    let chunks := ["TolTo", "ol :" ++ embeddedBody ++ "To", "ly :\x7b"].map Bytes.ofText
    let lexer := (Lexer.fresh .standard).advanceAll [] chunks
    let body := Bytes.ofText embeddedBody
    Json.probe body = .complete ∧ lexer.hits.length = 4 ∧
      extract chunks.flatten lexer ⟨3, .tool⟩ = ⟨.tool, 3, 9, 9 + body.length, true, body⟩ := by
  intro chunks lexer body
  have value : Json.probe body = .complete := by decide +kernel
  have arrived : chunks.flatten =
      between (Bytes.ofText "Tol") body (Bytes.ofText "\x7b") .tool .model := by
    decide +kernel
  exact ⟨value, by decide +kernel, (extract_of_value value arrived).2⟩

end Frame

end Unbraid
