import Unbraid.Relay

/-!
# Taking turns

One interleaving, in which the relay and its receiver take turns. The relay goes on until it has to
wait; then the receiver takes the items that are in the channel. The play ends when only the agent
could go on. A receiver may be content with a number of items: it leaves as soon as it has them.
-/

namespace Unbraid.Relay

/-- What the receiver does on its turn, if it can do anything. -/
def receiverMove? (relay : Relay) (limit : Option Nat) : Option Move :=
  if relay.receiverLeft then none
  else if limit = some relay.taken then some .leave
  else if relay.queued = [] then none
  else some .receive

/-- A step ends the relay, looks at an input, or sends an item. -/
theorem step?_effort {relay next : Relay} (stepped : relay.step? = some next) :
    (relay.outcome = none ∧ next.outcome.isSome) ∨
    (relay.outcome = none ∧ next.outcome = none ∧
      (next.inputs.length < relay.inputs.length ∨
        (next.inputs = relay.inputs ∧ next.pending.length < relay.pending.length))) := by
  unfold step? at stepped
  cases running : relay.outcome with
  | some _ => simp [running] at stepped
  | none =>
    simp only [running, Option.isSome_none, Bool.false_eq_true, if_false] at stepped
    cases waiting : relay.pending with
    | cons item rest =>
      simp only [waiting] at stepped
      split at stepped
      · cases item <;> simp only [Option.some.injEq] at stepped <;> subst stepped <;> simp [stop]
      · split at stepped
        · simp only [Option.some.injEq] at stepped
          subst stepped
          cases relay.outcomeAfter item rest <;> simp
        · simp at stepped
    | nil =>
      simp only [waiting] at stepped
      split at stepped
      · simp only [Option.some.injEq] at stepped
        subst stepped
        simp [stop]
      · split at stepped
        · simp only [Option.some.injEq] at stepped
          subst stepped
          simp [stop]
        · cases arrived : relay.inputs with
          | nil => simp [arrived] at stepped
          | cons input inputs =>
            simp only [arrived, Option.some.injEq] at stepped
            subst stepped
            simp

/-- The relay at the end of the play. The receiver is on its turn or the relay is. -/
def play (limit : Option Nat) (receiverTurn : Bool) (relay : Relay) : Relay :=
  match _stepped : if receiverTurn then none else relay.step? with
  | some next => play limit false next
  | none =>
    match _moved : relay.receiverMove? limit with
    | some move => play limit true (relay.apply move)
    | none => if _turn : receiverTurn then play limit false relay else relay
termination_by
  (if relay.outcome.isNone then 1 else 0, relay.inputs.length, relay.pending.length,
    if relay.receiverLeft then 0 else 1, relay.queued.length, if receiverTurn then 1 else 0)
decreasing_by
  · have progress : relay.step? = some next := by
      cases receiverTurn <;> simp_all
    rcases step?_effort progress with ⟨running, ended⟩ | ⟨running, goesOn, less | ⟨same, less⟩⟩
    · apply Prod.Lex.left
      simp [running, Option.isNone_iff_eq_none, Option.ne_none_iff_isSome.2 ended]
    · simp only [running, goesOn]
      exact .right _ (.left _ _ less)
    · simp only [running, goesOn, same]
      exact .right _ (.right _ (.left _ _ less))
  · unfold receiverMove? at _moved
    cases present : relay.receiverLeft with
    | true => simp [present] at _moved
    | false =>
      simp only [present, Bool.false_eq_true, if_false] at _moved
      split at _moved
      · obtain rfl : Move.leave = move := by simpa using _moved
        exact .right _ (.right _ (.right _ (.left _ _ (by simp [apply]))))
      · split at _moved
        · simp at _moved
        · next waiting =>
          obtain rfl : Move.receive = move := by simpa using _moved
          have some_queued : relay.queued.length ≠ 0 := by simpa using waiting
          have one_less : (relay.apply .receive).queued.length < relay.queued.length := by
            simp only [apply, present, queued, List.length_drop] at some_queued ⊢
            simp only [Bool.false_eq_true, false_or, queued] at waiting ⊢
            simp only [waiting, if_false]
            omega
          have same : relay.apply .receive =
              { relay with taken := (relay.apply .receive).taken } := by
            simp only [apply]
            split <;> rfl
          rw [same] at one_less ⊢
          simp only [present]
          exact .right _ (.right _ (.right _ (.right _ (.left _ _ one_less))))
  · simp only [_turn]
    exact .right _ (.right _ (.right _ (.right _ (.right _ (by simp)))))

end Unbraid.Relay
