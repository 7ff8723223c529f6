import Unbraid.Proofs.Frame.Embedded
import Unbraid.Proofs.Json.Blanks

/-!
# Bodies that are read without their blanks

A tool notice is read from its body without the blanks around it, and the end of the body is looked
for with them. Where the body is a value with and without its blanks, the two agree.

They do not if there is a form feed among the blanks, which is removed but is no blank of JSON. The
body is then malformed at the tag behind it, and so its message is cut at the first tag in its
strings (`Frame.extract_of_trimmed_value`), and the notice is lost
(`Frame.extract_behind_a_form_feed`).
-/

namespace Unbraid

namespace Json

/-- The bytes stop inside a string; there may be blanks before the value. -/
def InString (bytes : Bytes) : Prop :=
  ∃ role part opened,
    State.start.run? (bytes.dropWhile Bytes.isAsciiBlank) = some ⟨.string role part, opened⟩

theorem InString.ending {bytes : Bytes} {state : State} (inside : InString bytes)
    (read : State.start.run? bytes = some state) : state.ending = .cut := by
  obtain ⟨role, part, opened, stops⟩ := inside
  rw [← List.takeWhile_append_dropWhile (p := Bytes.isAsciiBlank) (l := bytes), State.run?_append,
    State.run?_start_blanks fun byte present => List.mem_takeWhile_imp present] at read
  split at read
  · cases read
  · rw [Option.bind_some, stops] at read
    obtain rfl := Option.some.inj read
    rfl

theorem InString.probe_ne {bytes : Bytes} (inside : InString bytes) : probe bytes ≠ .complete := by
  intro complete
  obtain ⟨state, read, whole⟩ := probe_eq_complete_iff.1 complete
  rw [inside.ending read] at whole
  cases whole

theorem InString.probe_take {body : Bytes} {count : Nat} (inside : InString (body.take count))
    (complete : probe body = .complete) : probe (body.take count) = .incomplete := by
  obtain ⟨last, read, -⟩ := probe_eq_complete_iff.1 complete
  rw [← List.take_append_drop count body] at read
  obtain ⟨state, part, -⟩ := State.run?_of_append read
  exact probe_eq_incomplete_iff.2 ⟨state, part, inside.ending part⟩

theorem dropWhile_before_capitalT (before behind : Bytes) :
    (before ++ capitalT :: behind).dropWhile Bytes.isAsciiBlank =
      before.dropWhile Bytes.isAsciiBlank ++ capitalT :: behind := by
  have stays : (capitalT :: behind).dropWhile Bytes.isAsciiBlank = capitalT :: behind := rfl
  rw [List.dropWhile_append]
  split
  · next empty => rw [List.isEmpty_iff.1 empty, stays, List.nil_append]
  · rfl

/-- Before a capital T the bytes of a value stop inside a string. -/
theorem inString_before_capitalT {before behind : Bytes}
    (complete : probe (Bytes.trimAscii (before ++ capitalT :: behind)) = .complete) :
    InString before := by
  obtain ⟨after, split, blank⟩ := Bytes.exists_blanks_behind (before ++ capitalT :: behind)
  have visible : capitalT ∉ after := fun present => by cases blank _ present
  rw [dropWhile_before_capitalT] at split
  obtain ⟨rest, trimmed⟩ : ∃ rest, Bytes.trimAscii (before ++ capitalT :: behind) =
      before.dropWhile Bytes.isAsciiBlank ++ capitalT :: rest := by
    rcases List.append_eq_append_iff.1 split with ⟨rest, trimmed, behind'⟩ | ⟨more, -, within⟩
    · cases rest with
      | nil =>
        rw [List.nil_append] at behind'
        exact absurd (behind' ▸ List.mem_cons_self) visible
      | cons first rest =>
        obtain ⟨rfl, -⟩ := List.cons.inj behind'
        exact ⟨rest, trimmed⟩
    · exact absurd (within ▸ List.mem_append_right _ List.mem_cons_self) visible
  obtain ⟨last, read, -⟩ := probe_eq_complete_iff.1 complete
  rw [trimmed] at read
  obtain ⟨⟨place, opened⟩, part, goes⟩ := State.run?_of_append read
  rw [State.run?_cons] at goes
  obtain ⟨next, moved, -⟩ := Option.bind_eq_some_iff.1 goes
  rcases State.step_capitalT (State.lowercase_start.run? part) with
    none | ⟨role, plain⟩ | ⟨role, seen, hex⟩
  · rw [none] at moved
    cases moved
  · cases plain
    exact ⟨role, .plain, opened, part⟩
  · cases hex
    exact ⟨role, .hex seen, opened, part⟩

end Json

namespace Frame

open Json

/-- A body that is malformed at the tag behind it ends at the first tag that was passed over. -/
theorem boundary_of_malformed {bytes : Bytes} {start : Nat} {next : Hit} {before : List Hit}
    (passed : ∀ hit ∈ before, probe (bytes.take (hit.offset - start)) ≠ .complete)
    (malformed : probe (bytes.take (next.offset - start)) = .malformed) (first : Option Nat)
    (rest : List Hit) :
    boundary bytes start first (before ++ next :: rest) =
      .ends ((first.or (before.head?.map Hit.offset)).getD next.offset) := by
  induction before generalizing first with
  | nil =>
    rw [List.nil_append, boundary, malformed]
    cases first <;> rfl
  | cons hit others ih =>
    rw [List.cons_append, boundary]
    cases verdict : probe (bytes.take (hit.offset - start)) with
    | complete => exact absurd verdict (passed hit List.mem_cons_self)
    | malformed => cases first <;> rfl
    | incomplete =>
      simp only
      rw [ih fun other later => passed other (List.mem_cons_of_mem _ later)]
      cases first <;> rfl

/-- A body stands in the buffer between two tags, and all tags between them are in its strings. -/
structure Encloses (buffer : Bytes) (lexer : Lexer) (hit : Hit) (body : Bytes)
    (inner : List Hit) (next : Hit) : Prop where
  follows : body ++ buffer.drop next.offset = buffer.drop (hit.offset + lexer.tags.length)
  ends : next.offset = hit.offset + lexer.tags.length + body.length
  tags : ∃ later, lexer.hitsAfter hit.offset = inner ++ next :: later
  inside : ∀ tag ∈ inner, tag.offset < next.offset ∧
    InString (body.take (tag.offset - (hit.offset + lexer.tags.length)))

/-- Where the body ends: behind all of it, or at the first tag in a string if there is a form feed
among the blanks around the body. -/
def stopOf (body : Bytes) (inner : List Hit) (next : Hit) : Nat :=
  if body.LosesFormFeed then (inner.head?.map Hit.offset).getD next.offset else next.offset

section

variable {buffer body : Bytes} {lexer : Lexer} {hit next : Hit} {inner : List Hit}

theorem Encloses.stopOf_le (encloses : Encloses buffer lexer hit body inner next) :
    stopOf body inner next ≤ next.offset := by
  rw [stopOf]
  split
  · cases inner with
    | nil => exact Nat.le_refl _
    | cons first rest => exact Nat.le_of_lt (encloses.inside first List.mem_cons_self).1
  · exact Nat.le_refl _

theorem Encloses.take_drop (encloses : Encloses buffer lexer hit body inner next) {stop : Nat}
    (within : stop ≤ next.offset) :
    (buffer.drop (hit.offset + lexer.tags.length)).take (stop - (hit.offset + lexer.tags.length)) =
      body.take (stop - (hit.offset + lexer.tags.length)) := by
  have ends := encloses.ends
  rw [← encloses.follows, List.take_append_of_le_length (by omega)]

theorem Encloses.boundary_eq (encloses : Encloses buffer lexer hit body inner next)
    (verdict : probe body = if body.LosesFormFeed then .malformed else .complete)
    (later : List Hit) :
    boundary (buffer.drop (hit.offset + lexer.tags.length)) (hit.offset + lexer.tags.length) none
      (inner ++ next :: later) = .ends (stopOf body inner next) := by
  have whole := encloses.take_drop (Nat.le_refl next.offset)
  have length : next.offset - (hit.offset + lexer.tags.length) = body.length := by
    have := encloses.ends
    omega
  rw [length, List.take_length, ← length] at whole
  have passed : ∀ tag ∈ inner, (buffer.drop (hit.offset + lexer.tags.length)).take
      (tag.offset - (hit.offset + lexer.tags.length)) =
        body.take (tag.offset - (hit.offset + lexer.tags.length)) :=
    fun tag present => encloses.take_drop (Nat.le_of_lt (encloses.inside tag present).1)
  rw [stopOf]
  split at verdict
  · next loses =>
    rw [if_pos loses]
    refine boundary_of_malformed (fun tag present => ?_) (whole ▸ verdict) none later
    rw [passed tag present]
    exact (encloses.inside tag present).2.probe_ne
  · next keeps =>
    rw [if_neg keeps]
    refine boundary_of_value (fun tag present => ?_) (whole.symm ▸ verdict) none later
    rw [passed tag present]
    exact (encloses.inside tag present).2.probe_take verdict

end

/-- Whatever stands in its strings, a body that decodes without its blanks is enclosed by two
standard tags around it. -/
theorem encloses_between {body : Bytes} (complete : probe body.trimAscii = .complete)
    (before behind : Bytes) (kind next : TagKind) :
    let buffer := between before body behind kind next
    let start := before.length + TagPair.standard.length
    ∃ inner, Encloses buffer (.after .standard buffer) ⟨before.length, kind⟩ body inner
      ⟨start + body.length, next⟩ := by
  intro buffer start
  obtain ⟨inner, later, split, inside⟩ := split_at_ending_hit before body behind kind next
  refine ⟨inner, ?_, rfl, ⟨later, split⟩, fun tag present => ?_⟩
  · rw [Lexer.after_tags]
    show body ++ (between before body behind kind next).drop (start + body.length) =
      (between before body behind kind next).drop start
    rw [← List.drop_drop, between_drop_start, List.drop_left]
  · obtain ⟨recorded, within⟩ := inside tag present
    obtain ⟨rest, cut⟩ := exists_capitalT_at_hit recorded within
    rw [cut] at complete
    exact ⟨within, inString_before_capitalT complete⟩

/-- A tool notice is read without the blanks around it, but the end of its body is looked for with
them. A body that decodes without its blanks is a whole value, and its message ends behind it,
unless there is a form feed among the blanks: then the body is malformed, and its message ends at
the first tag in a string. -/
theorem extract_of_trimmed_value {body : Bytes} {value : Value}
    (read : decode body.trimAscii = .complete value) :
    (probe body = if body.LosesFormFeed then .malformed else .complete) ∧
      ∀ buffer lexer hit inner next, Encloses buffer lexer hit body inner next →
        let start := hit.offset + lexer.tags.length
        let stop := stopOf body inner next
        extract buffer lexer hit =
          ⟨hit.kind, hit.offset, start, stop, true, body.take (stop - start)⟩ := by
  have verdict := probe_of_trimmed (probe_of_decode read)
  refine ⟨verdict, fun buffer lexer hit inner next encloses => ?_⟩
  obtain ⟨later, tags⟩ := encloses.tags
  rw [extract, ofTag, tags, encloses.boundary_eq verdict later]
  show closed hit _ _ _ = _
  rw [closed, encloses.take_drop encloses.stopOf_le]

/-- A list with the text of a tag in a string, between blanks of JSON. -/
theorem extract_between_blanks :
    let body := Bytes.ofText " [\"Toly :\"]\n"
    let buffer := between [] body [] .tool .model
    probe body = .complete ∧ (extract buffer (.after .standard buffer) ⟨0, .tool⟩).body = body := by
  intro body buffer
  have read : decode body.trimAscii = .complete (.list [.string "Toly :"]) := by rfl
  have clean : ¬ body.LosesFormFeed := by decide +kernel
  obtain ⟨inner, encloses⟩ := encloses_between (probe_of_decode read) [] [] .tool .model
  obtain ⟨verdict, ends⟩ := extract_of_trimmed_value read
  rw [if_neg clean] at verdict
  refine ⟨verdict, ?_⟩
  have stop : stopOf body inner ⟨6 + body.length, .model⟩ = 6 + body.length := if_neg clean
  refine (congrArg Frame.body (ends _ _ _ _ _ encloses)).trans ?_
  show body.take (stopOf body inner ⟨6 + body.length, .model⟩ - 6) = body
  rw [stop, Nat.add_sub_cancel_left, List.take_length]

def fedBody : Bytes :=
  0x0C :: Bytes.ofText "\x7b\"tool_name\":\"Toly :\",\"additional_kwargs\":\x7b\x7d\x7d"

/-- Without the form feed the body decodes, and behind a space it would be found whole. Behind the
form feed its message is cut at the tag in the name, and neither of the two parts is a notice. -/
theorem extract_behind_a_form_feed :
    let buffer := between [] fedBody [] .tool .model
    (decode fedBody.trimAscii).verdict = .complete ∧ probe fedBody = .malformed ∧
      (extract buffer (.after .standard buffer) ⟨0, .tool⟩).body = fedBody.take 15 := by
  decide +kernel

end Frame

end Unbraid
