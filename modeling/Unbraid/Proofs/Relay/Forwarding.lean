import Mathlib.Data.List.Induction
import Unbraid.Proofs.Relay.Direct

/-!
# What a relay forwards

A relay, its channel, and all that may happen around it, in any interleaving. Beside it stands the
direct run: what the session makes of the same input with a consumer that takes everything.

* The items that were put into the channel and those that wait are the items of the direct run over
  the input that the relay has looked at (`Tracks`), and every move keeps this (`Tracks.apply`).
* So the channel gets a beginning of what the direct run yields, and the outcome of the relay says
  how far it got (`Forwards`).
* The channel never holds more than it has room for (`Channel`), and a relay that has not ended
  waits only for its receiver or for the agent (`forwards_of_moves`).
-/

namespace Unbraid

def Move.input? : Move → Option Input
  | .arrive input => some input
  | _ => none

namespace Relay

/-! ## One step -/

/-- What the next step of a relay can be. -/
inductive Step (relay : Relay) : Relay → Prop where
  /-- Nobody waits for the next event. -/
  | abandon {event : Event} {rest : List Item} (waits : relay.pending = .ok event :: rest)
      (left : relay.receiverLeft = true) : Step relay (relay.stop .detached)
  /-- Nobody waits for the fault. -/
  | unheard {fault : Fault} {rest : List Item} (waits : relay.pending = .error fault :: rest)
      (left : relay.receiverLeft = true) : Step relay { relay with outcome := some .failed }
  | send {item : Item} {rest : List Item} (waits : relay.pending = item :: rest)
      (room : relay.queued.length < relay.capacity) :
      Step relay
        { relay with
          pending := rest
          sent := relay.sent ++ [item]
          outcome := relay.outcomeAfter item rest }
  | cancelled (none : relay.pending = []) (cancelled : relay.isCancelled = true) :
      Step relay (relay.stop .cancelled)
  | detached (none : relay.pending = []) (left : relay.receiverLeft = true) :
      Step relay (relay.stop .detached)
  /-- The relay looks at the next input. -/
  | look {input : Input} {rest : List Input} (none : relay.pending = [])
      (next : relay.inputs = input :: rest) :
      Step relay
        { relay with
          session := (call relay.session input).session
          inputs := rest
          pending := itemsOf (call relay.session input) }

/-- A relay that has not ended waits for room in the channel, or for the agent. -/
inductive Waits (relay : Relay) : Prop where
  | room (pending : relay.pending ≠ []) (left : relay.receiverLeft = false)
      (full : relay.capacity ≤ relay.queued.length)
  | input (pending : relay.pending = []) (left : relay.receiverLeft = false)
      (cancelled : relay.isCancelled = false) (none : relay.inputs = [])

variable {relay next : Relay}

theorem step_of_step? (stepped : relay.step? = some next) :
    relay.outcome = none ∧ Step relay next := by
  unfold step? at stepped
  cases running : relay.outcome with
  | some _ => simp [running] at stepped
  | none =>
    refine ⟨rfl, ?_⟩
    simp only [running, Option.isSome_none, Bool.false_eq_true, if_false] at stepped
    cases waiting : relay.pending with
    | cons item rest =>
      simp only [waiting] at stepped
      split at stepped
      · next left =>
        cases item with
        | ok event =>
          obtain rfl := Option.some.inj stepped
          exact .abandon waiting left
        | error fault =>
          obtain rfl := Option.some.inj stepped
          rw [← waiting]
          exact .unheard waiting left
      · split at stepped
        · next room =>
          obtain rfl := Option.some.inj stepped
          exact .send waiting room
        · cases stepped
    | nil =>
      simp only [waiting] at stepped
      split at stepped
      · next cancelled =>
        obtain rfl := Option.some.inj stepped
        exact .cancelled waiting cancelled
      · split at stepped
        · next left =>
          obtain rfl := Option.some.inj stepped
          exact .detached waiting left
        · cases arrived : relay.inputs with
          | nil => simp [arrived] at stepped
          | cons input rest =>
            simp only [arrived] at stepped
            obtain rfl := Option.some.inj stepped
            rw [← running]
            exact .look waiting arrived

theorem waits_of_step? (running : relay.outcome = none) (stuck : relay.step? = none) :
    Waits relay := by
  unfold step? at stuck
  simp only [running, Option.isSome_none, Bool.false_eq_true, if_false] at stuck
  cases waiting : relay.pending with
  | cons item rest =>
    simp only [waiting] at stuck
    split at stuck
    · cases item <;> cases stuck
    · next present =>
      split at stuck
      · cases stuck
      · next full => exact .room (by simp [waiting]) (by simpa using present) (by omega)
  | nil =>
    simp only [waiting] at stuck
    split at stuck
    · cases stuck
    · next going =>
      split at stuck
      · cases stuck
      · next present =>
        cases arrived : relay.inputs with
        | nil => exact .input waiting (by simpa using present) (by simpa using going) arrived
        | cons input rest => simp [arrived] at stuck

/-! ## The invariant -/

/-- How far a relay has come with what a direct run yields. -/
inductive Progress (called : Called) (relay : Relay) : Option RelayOutcome → Prop where
  | running (same : relay.session = called.session)
      (goesOn : relay.pending = [] → called.session.phase = .receiving) :
      Progress called relay none
  | completed (none : relay.pending = []) (phase : called.session.phase = .completed) :
      Progress called relay (some (.completed called.session.statistics))
  | failed {fault : Fault} (reported : called.fault = some fault) (none : relay.pending = []) :
      Progress called relay (some .failed)
  | unheard {fault : Fault} (reported : called.fault = some fault)
      (waits : relay.pending = [.error fault]) (left : relay.receiverLeft = true) :
      Progress called relay (some .failed)
  | detached (left : relay.receiverLeft = true)
      (goesOn : relay.pending = [] → called.session.phase = .receiving) :
      Progress called relay (some .detached)
  | cancelled (cancelled : relay.isCancelled = true)
      (goesOn : relay.pending = [] → called.session.phase = .receiving) :
      Progress called relay (some .cancelled)

theorem Progress.around {called : Called} {other : Relay} {outcome : Option RelayOutcome}
    (progress : Progress called relay outcome) (session : other.session = relay.session)
    (pending : other.pending = relay.pending)
    (left : relay.receiverLeft = true → other.receiverLeft = true)
    (cancelled : relay.isCancelled = true → other.isCancelled = true) :
    Progress called other outcome := by
  cases progress with
  | running same goesOn =>
    exact .running (session.trans same) fun none => goesOn (pending.symm.trans none)
  | completed none phase => exact .completed (pending.trans none) phase
  | failed reported none => exact .failed reported (pending.trans none)
  | unheard reported waits gone => exact .unheard reported (pending.trans waits) (left gone)
  | detached gone goesOn =>
    exact .detached (left gone) fun none => goesOn (pending.symm.trans none)
  | cancelled stopped goesOn =>
    exact .cancelled (cancelled stopped) fun none => goesOn (pending.symm.trans none)

/-- A relay and the direct run over the input that it has looked at, of what has arrived. The items
in the channel and those that wait are the items of that run, and the outcome is told from it. -/
structure Tracks (first : Session) (arrived looked : List Input) (relay : Relay) : Prop where
  arrived : arrived = looked ++ relay.inputs
  items : relay.sent ++ relay.pending = itemsOf (first.direct (.fresh .accepting) looked)
  progress : Progress (first.direct (.fresh .accepting) looked) relay relay.outcome

section

variable {first : Session} {arrived looked : List Input}

theorem progress_of_send {called : Called} {item : Item} {rest : List Item}
    (stands : Session.Stands called) (same : relay.session = called.session)
    (items : relay.sent ++ item :: rest = itemsOf called) :
    Progress called
      { relay with
        pending := rest
        sent := relay.sent ++ [item]
        outcome := relay.outcomeAfter item rest }
      (relay.outcomeAfter item rest) := by
  cases item with
  | error fault =>
    obtain ⟨reported, none, -⟩ := Session.eq_nil_of_error items
    exact .failed reported none
  | ok event =>
    cases rest with
    | cons next more => exact .running same nofun
    | nil =>
      have fault : called.fault = none := by
        cases reported : called.fault with
        | none => rfl
        | some cause =>
          rw [Session.itemsOf_of_some reported] at items
          cases (List.append_inj' items rfl).2
      have outcome : relay.outcomeAfter (.ok event) [] =
          if called.session.phase = .completed then some (.completed called.session.statistics)
          else none := by rw [outcomeAfter, same]
      rw [outcome]
      cases stands with
      | goesOn _ phase =>
        rw [if_neg (by rw [phase]; nofun)]
        exact .running same fun _ => phase
      | completed _ phase =>
        rw [if_pos phase]
        exact .completed rfl phase
      | failed reported =>
        rw [fault] at reported
        cases reported

theorem Tracks.step (ready : Session.Ready first (.fresh .accepting))
    (tracks : Tracks first arrived looked relay) (running : relay.outcome = none)
    (step : Step relay next) : ∃ further, Tracks first arrived further next := by
  obtain ⟨split, items, progress⟩ := tracks
  obtain ⟨stands, -⟩ := ready.direct looked
  rw [running] at progress
  cases progress with | running same goesOn
  cases step with
  | abandon waits left => exact ⟨looked, split, items, .detached left goesOn⟩
  | unheard waits left =>
    rw [waits] at items
    obtain ⟨reported, rfl, -⟩ := Session.eq_nil_of_error items
    exact ⟨looked, split, waits ▸ items, .unheard reported waits left⟩
  | @send item rest waits room =>
    rw [waits] at items
    exact ⟨looked, split, (List.append_assoc ..).trans items, progress_of_send stands same items⟩
  | cancelled none cancelled =>
    exact ⟨looked, split, items, .cancelled cancelled goesOn⟩
  | detached none left => exact ⟨looked, split, items, .detached left goesOn⟩
  | @look input rest none more =>
    obtain ⟨after, further⟩ := ready.direct_look looked input (goesOn none)
    rw [none, List.append_nil] at items
    rw [more, List.append_cons] at split
    rw [← items, ← same] at further
    rw [← same] at after
    refine ⟨looked ++ [input], split, further.symm, ?_⟩
    rw [running]
    refine .running after.symm fun (nothing : itemsOf (call relay.session input) = []) => ?_
    -- No new item: all of them are those from before, which are parts of the answer.
    refine (ready.direct (looked ++ [input])).1.phase_of_parts fun item present => ?_
    rw [further, nothing, List.append_nil, items] at present
    obtain ⟨fault, parts⟩ := stands.fault_of_receiving (goesOn none)
    rw [Session.itemsOf_of_none fault] at present
    exact Session.isPart_of_events parts item present

theorem Tracks.apply (ready : Session.Ready first (.fresh .accepting))
    (tracks : Tracks first arrived looked relay) (move : Move) :
    ∃ further, Tracks first (arrived ++ move.input?.toList) further (relay.apply move) := by
  have silent : arrived ++ [] = looked ++ relay.inputs :=
    (List.append_nil _).trans tracks.arrived
  cases move with
  | arrive input =>
    refine ⟨looked, ?_, tracks.items, tracks.progress.around rfl rfl id id⟩
    rw [tracks.arrived, List.append_assoc]
    rfl
  | receive =>
    rw [Relay.apply]
    split
    · exact ⟨looked, silent, tracks.items, tracks.progress⟩
    · exact ⟨looked, silent, tracks.items, tracks.progress.around rfl rfl id id⟩
  | leave => exact ⟨looked, silent, tracks.items, tracks.progress.around rfl rfl (fun _ => rfl) id⟩
  | cancel => exact ⟨looked, silent, tracks.items, tracks.progress.around rfl rfl id fun _ => rfl⟩
  | run =>
    have idle : arrived ++ Move.run.input?.toList = arrived := List.append_nil _
    rw [Relay.apply, idle]
    cases stepped : relay.step? with
    | none => exact ⟨looked, tracks⟩
    | some next =>
      obtain ⟨running, step⟩ := step_of_step? stepped
      exact tracks.step ready running step

theorem Tracks.applyAll (ready : Session.Ready first (.fresh .accepting)) (capacity : Nat)
    (moves : List Move) :
    ∃ looked, Tracks first (moves.filterMap Move.input?) looked
      ((start first capacity).applyAll moves) := by
  induction moves using List.reverseRecOn with
  | nil => exact ⟨[], rfl, rfl, .running rfl fun _ => ready.receiving⟩
  | append_singleton moves move ih =>
    obtain ⟨looked, tracks⟩ := ih
    rw [List.filterMap_append, Relay.applyAll, List.foldl_append]
    have one : [move].filterMap Move.input? = move.input?.toList := by
      cases move <;> rfl
    rw [one]
    exact tracks.apply ready move

/-! ## The channel -/

/-- The channel never holds more than it has room for, nor does the receiver take what is not
there. -/
structure Channel (capacity : Nat) (relay : Relay) : Prop where
  same : relay.capacity = capacity
  taken : relay.taken ≤ relay.sent.length
  room : relay.queued.length ≤ capacity

theorem Channel.apply {capacity : Nat} (channel : Channel capacity relay) (move : Move) :
    Channel capacity (relay.apply move) := by
  obtain ⟨same, taken, room⟩ := channel
  cases move with
  | arrive | leave | cancel => exact ⟨same, taken, room⟩
  | receive =>
    rw [Relay.apply]
    split
    · exact ⟨same, taken, room⟩
    · next waits =>
      rw [not_or, queued, List.drop_eq_nil_iff] at waits
      rw [queued, List.length_drop] at room
      refine ⟨same, by show relay.taken + 1 ≤ relay.sent.length; omega, ?_⟩
      rw [queued, List.length_drop]
      show relay.sent.length - (relay.taken + 1) ≤ capacity
      omega
  | run =>
    rw [Relay.apply]
    cases stepped : relay.step? with
    | none => exact ⟨same, taken, room⟩
    | some next =>
      cases (step_of_step? stepped).2 with
      | send _ free =>
        rw [queued, List.length_drop, same] at free
        refine ⟨same, ?_, ?_⟩
        · show relay.taken ≤ (relay.sent ++ [_]).length
          rw [List.length_append]
          omega
        · show ((relay.sent ++ [_]).drop relay.taken).length ≤ capacity
          rw [List.length_drop, List.length_append]
          simp only [List.length_singleton]
          omega
      | abandon | unheard | cancelled | detached | look => exact ⟨same, taken, room⟩

theorem Channel.applyAll (first : Session) (capacity : Nat) (moves : List Move) :
    Channel capacity ((start first capacity).applyAll moves) := by
  induction moves using List.reverseRecOn with
  | nil => exact ⟨rfl, Nat.le_refl _, Nat.zero_le _⟩
  | append_singleton moves move ih =>
    rw [Relay.applyAll, List.foldl_append]
    exact ih.apply move

/-! ## What is forwarded -/

/-- What a relay has put into the channel and how it has ended, told by what the direct run over all
the input yields. -/
structure Forwards (direct : Called) (relay : Relay) : Prop where
  begins : relay.sent <+: itemsOf direct
  /-- Only the last item can end the answer. -/
  once : ∀ item ∈ relay.sent.dropLast, Item.IsPart item
  completed : ∀ statistics, relay.outcome = some (.completed statistics) ↔
    (∃ text, .ok (.complete text) ∈ relay.sent) ∧ statistics = direct.session.statistics
  /-- All events and the fault were put into the channel, or the receiver left before the fault. -/
  failed : relay.outcome = some .failed → ∃ fault, direct.fault = some fault ∧
    (relay.sent = itemsOf direct ∨
      relay.receiverLeft = true ∧ relay.sent = direct.outbox.events.map .ok)
  detached : relay.outcome = some .detached →
    relay.receiverLeft = true ∧ ∀ item ∈ relay.sent, Item.IsPart item
  cancelled : relay.outcome = some .cancelled →
    relay.isCancelled = true ∧ ∀ item ∈ relay.sent, Item.IsPart item

theorem Tracks.isPart (ready : Session.Ready first (.fresh .accepting))
    (tracks : Tracks first arrived looked relay)
    (goesOn : relay.pending = [] →
      (first.direct (.fresh .accepting) looked).session.phase = .receiving) :
    ∀ item ∈ relay.sent, Item.IsPart item := by
  obtain ⟨stands, -⟩ := ready.direct looked
  have items := tracks.items
  by_cases none : relay.pending = []
  · obtain ⟨fault, parts⟩ := stands.fault_of_receiving (goesOn none)
    rw [none, List.append_nil, Session.itemsOf_of_none fault] at items
    rw [items]
    exact Session.isPart_of_events parts
  · exact stands.isPart_of_rest items none

theorem Tracks.completed_of_mem (ready : Session.Ready first (.fresh .accepting))
    (tracks : Tracks first arrived looked relay) {text : String}
    (present : .ok (.complete text) ∈ relay.sent) :
    relay.outcome = some (.completed
      (first.direct (.fresh .accepting) looked).session.statistics) := by
  have apart : ¬ ∀ item ∈ relay.sent, Item.IsPart item :=
    fun parts => Item.not_isPart_complete text (parts _ present)
  have items := tracks.items
  have progress := tracks.progress
  generalize relay.outcome = outcome at progress ⊢
  cases progress with
  | running _ goesOn => exact absurd (tracks.isPart ready goesOn) apart
  | completed => rfl
  | failed reported none =>
    obtain ⟨stands, -⟩ := ready.direct looked
    rw [none, List.append_nil, Session.itemsOf_of_some reported] at items
    rw [items] at present
    rcases List.mem_append.1 present with among | last
    · exact absurd (Session.isPart_of_events (stands.failed_of_fault reported).2 _ among)
        (Item.not_isPart_complete text)
    · cases List.mem_singleton.1 last
  | unheard _ waits => exact absurd (tracks.isPart ready fun none => by simp [waits] at none) apart
  | detached _ goesOn => exact absurd (tracks.isPart ready goesOn) apart
  | cancelled _ goesOn => exact absurd (tracks.isPart ready goesOn) apart

theorem Tracks.forwards (ready : Session.Ready first (.fresh .accepting))
    (tracks : Tracks first arrived looked relay) :
    Forwards (first.direct (.fresh .accepting) arrived) relay := by
  obtain ⟨stands, -⟩ := ready.direct looked
  have ended : (first.direct (.fresh .accepting) looked).session.phase ≠ .receiving →
      first.direct (.fresh .accepting) arrived = first.direct (.fresh .accepting) looked := by
    intro ended
    rw [tracks.arrived, ready.direct_append, if_pos (Called.isOver_iff.2 ended)]
  have progress := tracks.progress
  refine ⟨?_, ?_, fun statistics => ⟨fun completed => ?_, fun ⟨⟨text, present⟩, same⟩ => ?_⟩,
    fun failed => ?_, fun detached => ?_, fun cancelled => ?_⟩
  · rw [tracks.arrived]
    refine List.IsPrefix.trans ?_ (ready.itemsOf_prefix looked relay.inputs)
    rw [← tracks.items]
    exact List.prefix_append _ _
  · have items := tracks.items
    rcases List.eq_nil_or_concat relay.sent with none | ⟨before, last, split⟩
    · rw [none]
      exact fun item present => nomatch present
    · rw [List.concat_eq_append] at split
      rw [split, List.append_assoc] at items
      rw [split, List.dropLast_concat]
      exact stands.isPart_of_rest items (by simp)
  · rw [completed] at progress
    cases progress with | completed none phase
    rw [ended (by rw [phase]; nofun)]
    refine ⟨?_, rfl⟩
    cases stands with
    | goesOn _ receiving => rw [phase] at receiving; cases receiving
    | failed _ closed => rw [phase] at closed; cases closed
    | @completed before text fault _ whole =>
      have items := tracks.items
      rw [none, List.append_nil, Session.itemsOf_of_none fault, whole, List.map_append] at items
      rw [items]
      exact ⟨text, List.mem_append_right _ List.mem_cons_self⟩
  · have completed := tracks.completed_of_mem ready present
    rw [completed] at progress
    cases progress with | completed none phase
    rw [completed, same, ended (by rw [phase]; nofun)]
  · rw [failed] at progress
    have items := tracks.items
    cases progress with
    | failed reported none =>
      rw [ended (by rw [(stands.failed_of_fault reported).1]; nofun)]
      rw [none, List.append_nil] at items
      exact ⟨_, reported, .inl items⟩
    | unheard reported waits left =>
      rw [ended (by rw [(stands.failed_of_fault reported).1]; nofun)]
      rw [waits] at items
      exact ⟨_, reported, .inr ⟨left, (Session.eq_nil_of_error items).2.2⟩⟩
  · rw [detached] at progress
    cases progress with | detached left goesOn
    exact ⟨left, tracks.isPart ready goesOn⟩
  · rw [cancelled] at progress
    cases progress with | cancelled stopped goesOn
    exact ⟨stopped, tracks.isPart ready goesOn⟩

/-- Whatever the agent, the receiver and the one who cancels do, and in whatever order, a relay puts
a beginning of the items of the direct run into the channel, never more than it has room for, and
its outcome says how far it has come. It is never stuck: if it has not ended and cannot go on, the
receiver is still there, and there are items for it in the channel or nothing more has come from the
agent. -/
theorem forwards_of_moves {id : String} {settings : DemuxSettings} {session : Session}
    {capacity : Nat} (started : Session.start id settings = .ok session) (room : 0 < capacity)
    (moves : List Move) :
    let relay := (start session capacity).applyAll moves
    Forwards (session.direct (.fresh .accepting) (moves.filterMap Move.input?)) relay ∧
      relay.queued.length ≤ capacity ∧
      (relay.outcome = none → relay.step? = none →
        relay.receiverLeft = false ∧ (relay.queued ≠ [] ∨
          relay.pending = [] ∧ relay.inputs = [] ∧ relay.isCancelled = false)) := by
  intro relay
  have ready : Session.Ready session (.fresh .accepting) :=
    ⟨rfl, (Session.Receives.of_start started).2.phase, fun event none => by cases none⟩
  obtain ⟨looked, tracks⟩ := Tracks.applyAll ready capacity moves
  have channel := Channel.applyAll session capacity moves
  refine ⟨tracks.forwards ready, channel.room, fun running stuck => ?_⟩
  cases waits_of_step? running stuck with
  | room pending left full =>
    refine ⟨left, .inl fun empty => ?_⟩
    rw [empty, channel.same, List.length_nil] at full
    omega
  | input pending left going none => exact ⟨left, .inr ⟨pending, none, going⟩⟩

/-- A notice and the end of the answer, with a receiver that takes the first item late. -/
def lateReceiver : List Move :=
  [.arrive (.chunk (Bytes.ofText
      "Tool :\x7b\"tool_name\":\"a\",\"additional_kwargs\":1\x7dToly :")),
    .run, .run, .arrive .eof, .run, .run, .receive, .run]

theorem forwards_of_a_full_channel :
    let relay := (start (.standard "s") 1).applyAll lateReceiver
    relay.received.length = 1 ∧ relay.sent.length = 2 ∧
      relay.outcome = some (.completed ⟨51, 1, 0, 0, 1⟩) ∧
      Forwards ((Session.standard "s").direct (.fresh .accepting)
        (lateReceiver.filterMap Move.input?)) relay :=
  ⟨by decide +kernel, by decide +kernel, by decide +kernel,
    (forwards_of_moves (Session.start_standard "s") (by decide) lateReceiver).1⟩

end

end Relay

end Unbraid
