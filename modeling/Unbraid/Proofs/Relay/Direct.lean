import Mathlib.Data.List.Infix
import Unbraid.Proofs.Session.Accepting
import Unbraid.Relay

/-!
# The direct run

What a session makes of the agent's input without a relay: one call for each input, up to the one
that ends the session, with one consumer that takes everything. More input adds items and takes none
back (`Session.Ready.itemsOf_prefix`), and only the last item can be anything but a part of the
answer (`Session.Stands.isPart_of_rest`).
-/

namespace Unbraid

theorem Input.asks_ne_cancel (input : Input) : input.asks ≠ .cancel := by
  cases input <;> nofun

/-- The item is an event that belongs to the answer, and not the end of it. -/
def Item.IsPart (item : Item) : Prop := ∃ event : Event, event.isPart = true ∧ item = .ok event

theorem Item.not_isPart_complete (text : String) : ¬ Item.IsPart (.ok (.complete text)) := by
  rintro ⟨event, part, equal⟩
  cases equal
  cases part

theorem Item.not_isPart_error (fault : Fault) : ¬ Item.IsPart (.error fault) := by
  rintro ⟨event, -, equal⟩
  cases equal

def Called.isOver (called : Called) : Bool := called.session.phase != .receiving

theorem Called.isOver_iff {called : Called} :
    called.isOver = true ↔ called.session.phase ≠ .receiving := bne_iff_ne

namespace Session

/-- The calls for some input, up to the one that ends the session. A relay that never has to wait
makes just these calls, and what they yield is what it puts into the channel. -/
def direct (session : Session) (outbox : Outbox) (inputs : List Input) : Called :=
  (session.uncalled outbox).run Called.isOver (inputs.map Input.asks)

section

variable {session : Session} {outbox : Outbox} {called : Called} {looked : List Input}
  {input : Input}

theorem Ready.next (ready : Ready session outbox) (input : Input)
    (receiving : (session.perform outbox input.asks).session.phase = .receiving) :
    Ready (session.perform outbox input.asks).session
      (session.perform outbox input.asks).outbox := by
  obtain ⟨stands, attempts, log⟩ := ready.perform input.asks_ne_cancel
  refine ⟨log.consumer.trans ready.accepting, receiving, ?_⟩
  cases stands with
  | goesOn _ _ parts => exact parts
  | completed _ phase => rw [receiving] at phase; cases phase
  | failed _ phase => rw [receiving] at phase; cases phase

theorem Stands.fault_of_receiving (stands : Stands called)
    (receiving : called.session.phase = .receiving) :
    called.fault = none ∧ ∀ event ∈ called.outbox.events, event.isPart = true := by
  cases stands with
  | goesOn fault _ parts => exact ⟨fault, parts⟩
  | completed _ phase => rw [receiving] at phase; cases phase
  | failed _ phase => rw [receiving] at phase; cases phase

/-- What further input adds to an open session. -/
theorem Ready.run (ready : Ready called.session called.outbox) (fault : called.fault = none)
    (inputs : List Input) :
    Stands (called.run Called.isOver (inputs.map Input.asks)) ∧
      ∃ attempts, called.outbox.Extends
        (called.run Called.isOver (inputs.map Input.asks)).outbox attempts := by
  induction inputs generalizing called with
  | nil => exact ⟨.goesOn fault ready.receiving ready.parts, [], .refl called.outbox⟩
  | cons input rest ih =>
    obtain ⟨stands, attempts, log⟩ := ready.perform input.asks_ne_cancel
    rw [List.map_cons, Called.run_cons]
    dsimp only
    split
    · exact ⟨stands, attempts, log⟩
    · next goesOn =>
      have receiving : (called.session.perform called.outbox input.asks).session.phase =
          .receiving := not_not.1 (mt Called.isOver_iff.2 goesOn)
      obtain ⟨later, more, further⟩ :=
        ih (ready.next input receiving) (stands.fault_of_receiving receiving).1
      exact ⟨later, _, log.trans further⟩

theorem Ready.direct (ready : Ready session outbox) (inputs : List Input) :
    Stands (session.direct outbox inputs) ∧
      ∃ attempts, outbox.Extends (session.direct outbox inputs).outbox attempts :=
  have ready : Ready (session.uncalled outbox).session (session.uncalled outbox).outbox := ready
  ready.run rfl inputs

theorem Ready.direct_append (ready : Ready session outbox) (looked rest : List Input) :
    session.direct outbox (looked ++ rest) =
      if (session.direct outbox looked).isOver then session.direct outbox looked
      else (session.direct outbox looked).run Called.isOver (rest.map Input.asks) := by
  have goesOn : (session.uncalled outbox).isOver = false :=
    Bool.eq_false_iff.2 fun ended => Called.isOver_iff.1 ended ready.receiving
  rw [Session.direct, List.map_append, Called.run_append goesOn]
  rfl

/-! ## Items -/

theorem Stands.failed_of_fault (stands : Stands called) {cause : Fault}
    (reported : called.fault = some cause) :
    called.session.phase = .failed ∧ ∀ event ∈ called.outbox.events, event.isPart = true := by
  cases stands with
  | goesOn fault => rw [reported] at fault; cases fault
  | completed fault => rw [reported] at fault; cases fault
  | failed _ phase parts => exact ⟨phase, parts⟩

theorem itemsOf_of_none (fault : called.fault = none) :
    Relay.itemsOf called = called.outbox.events.map .ok := by
  rw [Relay.itemsOf, fault]
  exact List.append_nil _

theorem itemsOf_of_some {cause : Fault} (fault : called.fault = some cause) :
    Relay.itemsOf called = called.outbox.events.map .ok ++ [.error cause] := by
  rw [Relay.itemsOf, fault]
  rfl

theorem Ready.itemsOf_prefix (ready : Ready session outbox) (looked rest : List Input) :
    Relay.itemsOf (session.direct outbox looked) <+:
      Relay.itemsOf (session.direct outbox (looked ++ rest)) := by
  obtain ⟨stands, attempts, log⟩ := ready.direct looked
  rw [ready.direct_append]
  split
  · exact List.prefix_refl _
  · next goesOn =>
    have receiving : (session.direct outbox looked).session.phase = .receiving :=
      not_not.1 (mt Called.isOver_iff.2 goesOn)
    obtain ⟨fault, parts⟩ := stands.fault_of_receiving receiving
    have further : Ready (session.direct outbox looked).session
        (session.direct outbox looked).outbox :=
      ⟨log.consumer.trans ready.accepting, receiving, parts⟩
    obtain ⟨-, more, log⟩ := further.run fault rest
    rw [itemsOf_of_none fault, Relay.itemsOf, log.events, List.map_append, List.append_assoc]
    exact List.prefix_append _ _

theorem isPart_of_events {events : List Event} (parts : ∀ event ∈ events, event.isPart = true) :
    ∀ item ∈ events.map (Except.ok : Event → Item), Item.IsPart item := by
  intro item present
  obtain ⟨event, among, rfl⟩ := List.mem_map.1 present
  exact ⟨event, parts event among, rfl⟩

theorem Stands.isPart_of_rest (stands : Stands called) {sent pending : List Item}
    (whole : sent ++ pending = Relay.itemsOf called) (left : pending ≠ []) :
    ∀ item ∈ sent, Item.IsPart item := by
  have parts : ∀ item ∈ (Relay.itemsOf called).dropLast, Item.IsPart item := by
    cases stands with
    | goesOn fault _ parts =>
      rw [itemsOf_of_none fault]
      exact fun item present => isPart_of_events parts item (List.mem_of_mem_dropLast present)
    | completed fault _ whole before =>
      rw [itemsOf_of_none fault, whole, List.map_append, List.map_singleton, List.dropLast_concat]
      exact isPart_of_events before
    | failed fault _ parts =>
      rw [itemsOf_of_some fault, List.dropLast_concat]
      exact isPart_of_events parts
  rw [← whole, List.dropLast_append_of_ne_nil left] at parts
  exact fun item present => parts item (List.mem_append_left _ present)

theorem eq_nil_of_error {sent rest : List Item} {fault : Fault}
    (whole : sent ++ .error fault :: rest = Relay.itemsOf called) :
    called.fault = some fault ∧ rest = [] ∧ sent = called.outbox.events.map .ok := by
  have event : (.error fault : Item) ∉ called.outbox.events.map .ok := by
    intro present
    obtain ⟨other, -, equal⟩ := List.mem_map.1 present
    cases equal
  cases reported : called.fault with
  | none =>
    rw [itemsOf_of_none reported] at whole
    rw [← whole] at event
    exact absurd (List.mem_append_right _ List.mem_cons_self) event
  | some cause =>
    rw [itemsOf_of_some reported] at whole
    rcases List.eq_nil_or_concat rest with rfl | ⟨before, last, rfl⟩
    · obtain ⟨same, equal⟩ := List.append_inj' whole rfl
      cases equal
      exact ⟨rfl, rfl, same⟩
    · rw [List.concat_eq_append, ← List.cons_append, ← List.append_assoc] at whole
      rw [← (List.append_inj' whole rfl).1] at event
      exact absurd (List.mem_append_right _ List.mem_cons_self) event

/-- If all items are parts of the answer, the session is still open. -/
theorem Stands.phase_of_parts (stands : Stands called)
    (parts : ∀ item ∈ Relay.itemsOf called, Item.IsPart item) :
    called.session.phase = .receiving := by
  cases stands with
  | goesOn _ phase => exact phase
  | @completed before text fault _ whole =>
    rw [itemsOf_of_none fault, whole, List.map_append] at parts
    exact absurd (parts _ (List.mem_append_right _ List.mem_cons_self))
      (Item.not_isPart_complete text)
  | @failed cause fault =>
    rw [itemsOf_of_some fault] at parts
    exact absurd (parts _ (List.mem_append_right _ List.mem_cons_self))
      (Item.not_isPart_error cause)

theorem Ready.direct_look (ready : Ready session outbox) (looked : List Input) (input : Input)
    (receiving : (session.direct outbox looked).session.phase = .receiving) :
    let after := Relay.call (session.direct outbox looked).session input
    (session.direct outbox (looked ++ [input])).session = after.session ∧
      Relay.itemsOf (session.direct outbox (looked ++ [input])) =
        Relay.itemsOf (session.direct outbox looked) ++ Relay.itemsOf after := by
  obtain ⟨stands, attempts, log⟩ := ready.direct looked
  obtain ⟨fault, -⟩ := stands.fault_of_receiving receiving
  have one : (session.direct outbox looked).run Called.isOver [input.asks] =
      (session.direct outbox looked).session.perform (session.direct outbox looked).outbox
        input.asks := by
    rw [Called.run_cons]
    dsimp only
    split <;> rfl
  rw [ready.direct_append, if_neg fun ended => Called.isOver_iff.1 ended receiving,
    List.map_singleton, one,
    itemsOf_of_none fault]
  generalize session.direct outbox looked = called at log ⊢
  have asked : Relay.call called.session input =
      called.session.perform (.fresh .accepting) input.asks := rfl
  have before : called.outbox = (Outbox.fresh .accepting).behind called.outbox.log := by
    rw [Outbox.behind, Outbox.fresh, List.append_nil, ← ready.accepting, ← log.consumer]
  have fresh : (Outbox.fresh .accepting).consumer = .accepting := rfl
  have behind := perform_behind fresh called.outbox.log called.session input.asks
  rw [← before] at behind
  intro after
  rw [behind, ← asked]
  refine ⟨rfl, ?_⟩
  rw [Relay.itemsOf, Called.behind, Outbox.behind, Outbox.events, List.filterMap_append,
    List.map_append, List.append_assoc]
  rfl

end

end Session

end Unbraid
