import Unbraid.Session

/-!
# Relays

A relay runs a session on what the agent sends and puts the session's events into a channel of
bounded capacity, from which a receiver takes them. The last item of the channel is the event that
the answer is complete, or the fault that ended it.

The agent, the receiver and the one who may cancel act at any time, and so does the relay; each of
their actions is a `Move`, and `Relay.apply` says what it changes. An interleaving is a list of
moves.
-/

namespace Unbraid

inductive Input where
  | chunk (bytes : Bytes)
  | failure (fault : Fault)
  /-- The answer has ended. -/
  | eof

def Input.asks : Input → Call
  | chunk bytes => .feed bytes
  | failure fault => .abort fault
  | eof => .finish

/-- What is put into the channel. -/
abbrev Item := Except Fault Event

inductive RelayOutcome where
  /-- The event that the answer is complete was put into the channel. -/
  | completed (statistics : Statistics)
  /-- The session failed. -/
  | failed
  /-- The receiver left. -/
  | detached
  | cancelled
  deriving DecidableEq, Repr

/-- A relay, its channel, and what has reached it from outside. -/
structure Relay where
  session : Session
  /-- What the agent sent and the relay has not yet looked at. -/
  inputs : List Input
  /-- The items of the last input that wait for room in the channel. -/
  pending : List Item
  capacity : Nat
  /-- All items that were put into the channel, the oldest first. -/
  sent : List Item
  /-- How many of them the receiver took. -/
  taken : Nat
  receiverLeft : Bool
  isCancelled : Bool
  outcome : Option RelayOutcome

/-- An action of anyone around the relay, or of the relay itself. -/
inductive Move where
  /-- The agent sends something. -/
  | arrive (input : Input)
  /-- The receiver takes an item. -/
  | receive
  /-- The receiver leaves. -/
  | leave
  | cancel
  /-- The relay takes its next step. -/
  | run

namespace Relay

def start (session : Session) (capacity : Nat) : Relay :=
  { session, inputs := [], pending := [], capacity, sent := [], taken := 0, receiverLeft := false
    isCancelled := false, outcome := none }

def received (relay : Relay) : List Item := relay.sent.take relay.taken

def queued (relay : Relay) : List Item := relay.sent.drop relay.taken

/-- What comes of the call that an input asks for. The session hands its events to a consumer of its
own, which takes all of them; the relay puts them into the channel afterwards. -/
def call (session : Session) (input : Input) : Called :=
  session.perform (.fresh .accepting) input.asks

/-- The items that a call yields: its events, and the fault if it reports one. -/
def itemsOf (called : Called) : List Item :=
  called.outbox.events.map .ok ++ (called.fault.map .error).toList

/-- Gives up the session because nobody waits for its events. -/
def stop (relay : Relay) (outcome : RelayOutcome) : Relay :=
  { relay with session := relay.session.cancel, outcome := some outcome }

/-- Where the relay stands after it has put an item into the channel. -/
def outcomeAfter (relay : Relay) (item : Item) (rest : List Item) : Option RelayOutcome :=
  match item, rest with
  | .error _, _ => some .failed
  | .ok _, [] =>
    if relay.session.phase = .completed then some (.completed relay.session.statistics) else none
  | .ok _, _ :: _ => none

/-- The next step of the relay, if it can take one. It puts waiting items into the channel first.
When none wait it looks whether it is cancelled, then whether the receiver has left, and then
takes the next input. -/
def step? (relay : Relay) : Option Relay :=
  if relay.outcome.isSome then none
  else match relay.pending with
    | item :: rest =>
      if relay.receiverLeft then
        match item with
        | .ok _ => some (relay.stop .detached)
        | .error _ => some { relay with outcome := some .failed }
      else if relay.queued.length < relay.capacity then
        some { relay with
          pending := rest
          sent := relay.sent ++ [item]
          outcome := relay.outcomeAfter item rest }
      else none
    | [] =>
      if relay.isCancelled then some (relay.stop .cancelled)
      else if relay.receiverLeft then some (relay.stop .detached)
      else match relay.inputs with
        | [] => none
        | input :: inputs =>
          let called := call relay.session input
          some { relay with session := called.session, inputs, pending := itemsOf called }

/-- What a move changes. The receiver takes nothing from an empty channel, nor after it has left;
the relay does nothing while it has to wait, nor after it has ended. -/
def apply (relay : Relay) (move : Move) : Relay :=
  match move with
  | .arrive input => { relay with inputs := relay.inputs ++ [input] }
  | .receive =>
    if relay.receiverLeft ∨ relay.queued = [] then relay
    else { relay with taken := relay.taken + 1 }
  | .leave => { relay with receiverLeft := true }
  | .cancel => { relay with isCancelled := true }
  | .run => relay.step?.getD relay

def applyAll (relay : Relay) (moves : List Move) : Relay := moves.foldl apply relay

end Relay

end Unbraid
