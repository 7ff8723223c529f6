import Mathlib.Data.List.Nodup
import Unbraid.Proofs.Session.Steps

/-!
# Each tool call once

An agent announces a tool call several times, and the consumer should hear of it once. Of the
notices that a session handles, whatever calls it gets (`Session.announces_of_calls`),

* the consumer takes no two of one tool call, and every notice that was handled was taken or is
  counted as a duplicate;
* a further notice of a call changes nothing but the count of duplicates;
* the one that was taken is the first of its call, with all that was read.

Which notices are first is read off the messages alone (`Notice.firsts`).
-/

namespace Unbraid

namespace Notice

variable {notice : Notice} (notices more : List Notice)

/-- A notice holds all that was read. -/
theorem payload_of_ofValue? {payload : Json.Value} (read : ofValue? payload = some notice) :
    notice.payload = payload := by
  unfold ofValue? at read
  simp only [Option.bind_eq_bind, Option.bind_eq_some_iff, Option.pure_def, Option.some.injEq]
    at read
  obtain ⟨_, -, _, -, _, -, rfl⟩ := read
  rfl

/-- The call that a notice announces: the tool's name and the compact text of the arguments. -/
def call (notice : Notice) : String × String := (notice.tool, notice.arguments.text)

variable {notices} in
theorem nodup_calls (keys : (notices.map callKey).Nodup) : (notices.map call).Nodup := by
  have same : notices.map callKey = (notices.map call).map fun (tool, text) =>
      (Sha256.digest (Bytes.ofText tool ++ 0 :: Bytes.ofText text)).hex := by
    rw [List.map_map]
    rfl
  rw [same] at keys
  exact List.Nodup.of_map _ keys

theorem nodup_firsts : ((firsts notices).map callKey).Nodup := by
  induction notices using List.reverseRecOn with
  | nil => exact List.nodup_nil
  | append_singleton notices notice ih =>
    rw [firsts_append]
    split
    · exact ih
    · next new =>
      rw [List.map_append, List.map_singleton]
      refine List.nodup_append.2 ⟨ih, List.pairwise_singleton _ _, fun key among other last => ?_⟩
      rw [List.mem_singleton.1 last]
      rintro rfl
      exact new among

theorem firsts_prefix : firsts notices <+: firsts (notices ++ more) := by
  induction more using List.reverseRecOn with
  | nil => rw [List.append_nil]
  | append_singleton more notice ih =>
    rw [← List.append_assoc, firsts_append]
    split
    · exact ih
    · exact ih.trans (List.prefix_append _ _)

theorem firsts_sublist : (firsts notices).Sublist notices := by
  induction notices using List.reverseRecOn with
  | nil => exact List.Sublist.refl _
  | append_singleton notices notice ih =>
    rw [firsts_append]
    split
    · exact ih.trans (List.sublist_append_left _ _)
    · exact ih.append_right _

variable {notices}

theorem find?_firsts (key : String) :
    (firsts notices).find? (·.callKey = key) = notices.find? (·.callKey = key) := by
  induction notices using List.reverseRecOn with
  | nil => rfl
  | append_singleton notices notice ih =>
    rw [firsts_append, List.find?_append, ← ih]
    split
    · next known =>
      by_cases same : notice.callKey = key
      · obtain ⟨first, present, equal⟩ := List.mem_map.1 known
        have found : ((firsts notices).find? (·.callKey = key)).isSome :=
          List.find?_isSome.2 ⟨first, present, decide_eq_true (equal.trans same)⟩
        rw [Option.or_of_isSome found]
      · rw [List.find?_singleton, if_neg (by simpa using same), Option.or_none]
    · rw [List.find?_append]

theorem mem_keys_firsts (key : String) :
    key ∈ (firsts notices).map callKey ↔ key ∈ notices.map callKey := by
  have found : ∀ some : List Notice,
      key ∈ some.map callKey ↔ (some.find? (·.callKey = key)).isSome := by
    intro some
    simp only [List.mem_map, List.find?_isSome, decide_eq_true_iff]
  rw [found, found, find?_firsts]

end Notice

/-- What a notice says is read back from its payload. -/
theorem Message.ofValue?_of_notice? {message : Message} {notice : Notice}
    (found : message.notice? = some notice) : Notice.ofValue? notice.payload = some notice := by
  obtain ⟨kind, body⟩ := message
  cases kind with
  | tool =>
    rw [notice?_tool] at found
    obtain ⟨payload, -, read⟩ := Option.bind_eq_some_iff.1 found
    rwa [Notice.payload_of_ofValue? read]
  | model => cases found

/-- The first notice of a call stays the first, whatever comes later. -/
theorem Message.exists_first {messages : List Message} {notice : Notice}
    (present : notice ∈ notices messages) (more : List Message) :
    ∃ first, (notices messages).find? (·.callKey = notice.callKey) = some first ∧
      Notice.ofValue? first.payload = some first ∧
      first ∈ Notice.firsts (notices (messages ++ more)) := by
  have some : ((notices messages).find? (·.callKey = notice.callKey)).isSome :=
    List.find?_isSome.2 ⟨notice, present, decide_eq_true rfl⟩
  obtain ⟨first, found⟩ := Option.isSome_iff_exists.1 some
  obtain ⟨message, -, read⟩ := List.mem_filterMap.1 (List.mem_of_find?_eq_some found)
  refine ⟨first, found, ofValue?_of_notice? read, ?_⟩
  rw [← Notice.find?_firsts] at found
  rw [notices_append]
  exact (Notice.firsts_prefix _ _).subset (List.mem_of_find?_eq_some found)

/-- The consumer has taken notices, no two of one call. -/
def Outbox.ToldApart (outbox : Outbox) : Prop :=
  ∃ notices : List Notice, outbox.payloads.map Notice.ofValue? = notices.map some ∧
    (notices.map Notice.callKey).Nodup ∧ (notices.map Notice.call).Nodup

theorem Outbox.Begins.toldApart {outbox : Outbox} {filter : TokenFilter} {messages : List Message}
    (begins : outbox.Begins filter messages) : outbox.ToldApart := by
  have taken := List.prefix_iff_eq_take.1 begins.payloads
  rw [← List.map_take] at taken
  generalize some : (Notice.firsts (Message.notices messages)).take outbox.payloads.length =
    notices at taken
  have first : notices.Sublist (Notice.firsts (Message.notices messages)) :=
    some ▸ List.take_sublist _ _
  have keys : (notices.map Notice.callKey).Nodup :=
    (Notice.nodup_firsts _).sublist (first.map _)
  refine ⟨notices, ?_, keys, Notice.nodup_calls keys⟩
  rw [taken, List.map_map]
  refine List.map_congr_left fun notice present => ?_
  obtain ⟨message, -, found⟩ :=
    List.mem_filterMap.1 ((Notice.firsts_sublist _).subset (first.subset present))
  exact Message.ofValue?_of_notice? found

namespace Session

def countDuplicate (session : Session) : Session :=
  { session with
    ledger := { session.ledger with duplicates := session.ledger.duplicates + 1 } }

variable {session : Session} {outbox : Outbox} {call : Call} {filter : TokenFilter}
  {messages : List Message} {earlier later : List Step} {step : Step} {notice : Notice}

theorem receiving_of_steps
    (split : (session.perform outbox call).steps = earlier ++ step :: later) :
    session.phase = .receiving := by
  by_contra closed
  have idle : (session.perform outbox call).steps = [] := by
    cases call with
    | feed chunk => rw [perform, feed, if_neg closed]
    | finish => rw [perform, finish, if_neg closed]
    | abort fault => exact abort_steps fault
    | cancel => rfl
  rw [idle] at split
  cases earlier <;> cases split

/-- At each message of a call nothing has been refused yet. -/
theorem Standing.at_step (standing : Standing filter session outbox messages)
    (split : (session.perform outbox call).steps = earlier ++ step :: later) :
    Keeps filter step.session step.outbox (messages ++ earlier.map Step.message) := by
  have receiving := receiving_of_steps split
  have keeps := standing.receiving receiving
  cases call with
  | feed chunk =>
    rw [Session.perform, feed_steps receiving] at split
    have added : Keeps filter (session.add chunk) outbox messages := keeps.of_same rfl rfl rfl
    exact (added.drain_steps split).1
  | finish =>
    rw [Session.perform, finish_steps receiving] at split
    have draining : Keeps filter { session with phase := .draining } outbox messages :=
      keeps.of_same rfl rfl rfl
    exact (draining.drain_steps split).1
  | abort fault =>
    rw [Session.perform, abort_steps] at split
    cases earlier <;> cases split
  | cancel => cases earlier <;> cases split

/-- A session does not fail with a call that handles messages without a fault. -/
theorem lives_of_steps
    (split : (session.perform outbox call).steps = earlier ++ step :: later)
    (taken : (session.perform outbox call).fault = none) :
    (session.perform outbox call).session.phase ≠ .failed := by
  have receiving := receiving_of_steps split
  obtain ⟨attempts, -, effect⟩ := perform_effect (by rw [receiving]; nofun) outbox call
  have idle : call = .cancel → (session.perform outbox call).steps = [] := by
    rintro rfl
    rfl
  rw [split] at idle
  generalize session.perform outbox call = called at taken effect ⊢
  obtain ⟨fault, next, after, steps⟩ := called
  dsimp only at taken effect ⊢
  intro failed
  cases effect with
  | idle closed => rw [receiving] at closed; cases closed
  | fed _ _ goesOn => rw [goesOn] at failed; cases failed
  | finished => cases failed
  | cancelled => exact absurd (idle rfl) (by simp)
  | refused | overLimit | unheard | aborted => cases taken

/-- A notice of a call that was announced before is counted, and that is all. -/
theorem Keeps.handled_again (keeps : Keeps filter step.session step.outbox messages)
    (found : step.message.notice? = some notice)
    (known : notice.callKey ∈ (Message.notices messages).map Notice.callKey) :
    step.handled = ⟨.ok .emitted, step.session.countDuplicate, step.outbox⟩ := by
  obtain ⟨full, -, reflects⟩ := keeps
  have known : Notice.key notice.tool notice.arguments ∈ step.session.ledger.keys := by
    rw [reflects.ledger.keys, Notice.mem_keys_firsts]
    exact known
  obtain ⟨session, outbox, final, kind, tagOffset, start, stop, complete, body⟩ := step
  cases kind with
  | model => cases found
  | tool =>
    have entered : session.ledger.enter notice outbox =
        ⟨.ok .emitted, { session.ledger with duplicates := session.ledger.duplicates + 1 },
          outbox⟩ := if_pos known
    unfold Step.handled Session.handle
    dsimp only
    rw [Ledger.handle_of_some found, entered]
    rfl

/-- What a consumer has of the tool calls after some calls of a session that handled these messages,
and what comes of each notice in the next call. -/
structure Announces (held : Called) (handled : List Step) : Prop where
  apart : held.outbox.ToldApart
  /-- Each notice was either taken or is a duplicate. -/
  count : held.session.phase ≠ .failed →
    held.outbox.payloads.length + held.session.ledger.duplicates =
      (Message.notices (handled.map Step.message)).length
  again : ∀ call earlier step later notice,
    (held.session.perform held.outbox call).steps = earlier ++ step :: later →
    step.message.notice? = some notice →
    notice.callKey ∈
      (Message.notices ((handled ++ earlier).map Step.message)).map Notice.callKey →
    step.handled = ⟨.ok .emitted, step.session.countDuplicate, step.outbox⟩
  /-- When a call succeeds, the first notice of each tool call in it was taken. -/
  taken : ∀ call earlier step later notice,
    (held.session.perform held.outbox call).steps = earlier ++ step :: later →
    step.message.notice? = some notice →
    (held.session.perform held.outbox call).fault = none →
    ∃ first, (Message.notices ((handled ++ earlier ++ [step]).map Step.message)).find?
        (·.callKey = notice.callKey) = some first ∧
      Notice.ofValue? first.payload = some first ∧
      first.payload ∈ (held.session.perform held.outbox call).outbox.payloads

/-- Whatever calls are made and whatever the consumer refuses, it takes no two notices of one tool
call. A notice of a call that was announced before is counted as a duplicate and changes nothing
else. Where a call of the session succeeds, the first notice of each tool call in it was taken, and
with it the payload it was read from. -/
theorem announces_of_calls {id : String} {settings : DemuxSettings}
    (started : start id settings = .ok session) (consumer : Consumer) (calls : List Call) :
    Announces (session.performAll (.fresh consumer) calls)
      (session.stepsAll (.fresh consumer) calls) := by
  have standing := standing_of_calls started consumer calls
  have signals := signals_of_calls started consumer calls
  generalize session.performAll (.fresh consumer) calls = held at standing signals ⊢
  generalize session.stepsAll (.fresh consumer) calls = handled at standing ⊢
  refine ⟨standing.begins.toldApart, standing.count, ?_, ?_⟩
  · intro call earlier step later notice split found known
    rw [List.map_append] at known
    exact (standing.at_step split).handled_again found known
  · intro call earlier step later notice split found taken
    have all := (standing.perform signals call).payloads (lives_of_steps split taken)
    have whole : handled.map Step.message ++
          (held.session.perform held.outbox call).steps.map Step.message =
        (handled ++ earlier ++ [step]).map Step.message ++ later.map Step.message := by
      rw [split, ← List.map_append, ← List.map_append]
      simp only [List.append_assoc, List.singleton_append]
    have present : notice ∈
        Message.notices ((handled ++ earlier ++ [step]).map Step.message) := by
      refine List.mem_filterMap.2 ⟨step.message, ?_, found⟩
      exact List.mem_map_of_mem (List.mem_append_right _ List.mem_cons_self)
    -- The rest of the call has only later notices, so the first one of its tool call stays so.
    obtain ⟨first, among, read, kept⟩ := Message.exists_first present (later.map Step.message)
    refine ⟨first, among, read, ?_⟩
    rw [all, whole]
    exact List.mem_map_of_mem kept

/-- The announcement of a call, and the beginning of another one with other blanks and its members
in another order. -/
def noticeOnce : List Call :=
  [.feed (Bytes.ofText ("Tool :\x7b\"tool_name\":\"a\"," ++
    "\"additional_kwargs\":\x7b\"x\":1,\"y\":2\x7d\x7d" ++
    "Tool : \x7b\"additional_kwargs\":\x7b\"y\":2, \"x\""))]

/-- The rest of the announcement. -/
def noticeAgain : Call := .feed (Bytes.ofText ":1\x7d, \"tool_name\":\"a\"\x7d Toly :")

theorem announces_a_call_once :
    let held := (standard "s").performAll (.fresh .accepting) noticeOnce
    let handled := (standard "s").stepsAll (.fresh .accepting) noticeOnce
    ∃ step notice, (held.session.perform held.outbox noticeAgain).steps = [step] ∧
      step.message.notice? = some notice ∧
      (held.session.perform held.outbox noticeAgain).fault = none ∧
      step.handled = ⟨.ok .emitted, step.session.countDuplicate, step.outbox⟩ ∧
      ∃ first, (Message.notices ((handled ++ [step]).map Step.message)).find?
          (·.callKey = notice.callKey) = some first ∧
        Notice.ofValue? first.payload = some first ∧
        first.payload ∈ (held.session.perform held.outbox noticeAgain).outbox.payloads := by
  intro held handled
  have announces := announces_of_calls (start_standard "s") .accepting noticeOnce
  have ⟨taken, one, same⟩ : (held.session.perform held.outbox noticeAgain).fault = none ∧
      (held.session.perform held.outbox noticeAgain).steps.length = 1 ∧
      (held.session.perform held.outbox noticeAgain).steps.map
          (fun step => step.message.notice?.map Notice.callKey) =
        (Message.notices (handled.map Step.message)).map fun notice => some notice.callKey := by
    decide +kernel
  obtain ⟨step, split⟩ := List.length_eq_one_iff.1 one
  rw [split] at same
  obtain ⟨told, only, key⟩ := List.map_eq_singleton_iff.1 same.symm
  obtain ⟨notice, found, equal⟩ := Option.map_eq_some_iff.1 key.symm
  have known : notice.callKey ∈
      (Message.notices ((handled ++ []).map Step.message)).map Notice.callKey := by
    rw [List.append_nil, only, equal]
    exact List.mem_singleton_self _
  have again := announces.again noticeAgain [] step [] notice split found known
  have first := announces.taken noticeAgain [] step [] notice split found taken
  rw [List.append_nil] at first
  exact ⟨step, notice, split, found, taken, again, first⟩

end Session

end Unbraid
