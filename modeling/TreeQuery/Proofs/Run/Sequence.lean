import TreeQuery.Trace

/-! # Sequences of runs

The loops of a navigation have one shape: parts are taken in order, each from the state that the one
before came to, and before each of them it is looked whether the work is over. Lists of parts put
one behind the other make runs one behind the other (`TreeQuery.Run.sequence_append`), and it does
not matter what stands in the place of a part that is not reached
(`TreeQuery.Run.perform_sequence_congr`).
-/

namespace TreeQuery.Run

variable {Node Leaf Failure State : Type} {isOver : State → Bool}

/-- Takes parts in order, each from what the one before came to, until the work is over. -/
def sequence (isOver : State → Bool) :
    List (State → Run Node Leaf Failure State) → State → Run Node Leaf Failure State
  | [], state => pure state
  | part :: rest, state => if isOver state then pure state else part state >>= sequence isOver rest

theorem sequence_of_over (parts : List (State → Run Node Leaf Failure State)) {state : State}
    (done : isOver state = true) : sequence isOver parts state = pure state := by
  cases parts with
  | nil => rfl
  | cons part rest => rw [sequence, if_pos done]

theorem sequence_cons_of_not_over (part : State → Run Node Leaf Failure State)
    (rest : List (State → Run Node Leaf Failure State)) {state : State}
    (more : isOver state = false) :
    sequence isOver (part :: rest) state = part state >>= sequence isOver rest := by
  rw [sequence, more, if_neg Bool.false_ne_true]

/-- Parts in front and parts behind them are taken one after the other. -/
theorem sequence_append (front back : List (State → Run Node Leaf Failure State)) (state : State) :
    sequence isOver (front ++ back) state =
      sequence isOver front state >>= sequence isOver back := by
  induction front generalizing state with
  | nil => rw [List.nil_append, sequence, pure_bind]
  | cons part rest ih =>
      rw [List.cons_append]
      cases done : isOver state with
      | true => rw [sequence_of_over _ done, sequence_of_over _ done, pure_bind,
          sequence_of_over _ done]
      | false =>
          rw [sequence_cons_of_not_over _ _ done, sequence_cons_of_not_over _ _ done, bind_assoc]
          congr 1
          funext next
          exact ih next

/-- Two lists of parts run alike as soon as each part that is reached does in the state in which it
is reached what stands in its place. -/
theorem perform_sequence_congr {left right : List (State → Run Node Leaf Failure State)}
    (length : left.length = right.length) {state : State} {before : Journal Node Leaf}
    (agree : ∀ index here there reached after, left[index]? = some here →
      right[index]? = some there →
      (sequence isOver (left.take index) state).perform before = (.ok reached, after) →
      isOver reached = false → (here reached).perform after = (there reached).perform after) :
    (sequence isOver left state).perform before = (sequence isOver right state).perform before := by
  induction left generalizing right state before with
  | nil =>
      rw [List.length_eq_zero_iff.mp length.symm]
  | cons here rest ih =>
      obtain ⟨there, others, rfl⟩ := List.exists_cons_of_length_eq_add_one length.symm
      cases done : isOver state with
      | true => rw [sequence_of_over _ done, sequence_of_over _ done]
      | false =>
          have first : (here state).perform before = (there state).perform before :=
            agree 0 here there state before rfl rfl rfl done
          rw [sequence_cons_of_not_over _ _ done, sequence_cons_of_not_over _ _ done, perform_bind,
            perform_bind, ← first]
          generalize reached : (here state).perform before = reach
          obtain ⟨outcome, after⟩ := reach
          cases outcome with
          | error fault => rfl
          | ok next =>
              apply ih (Nat.succ.inj length)
              intro index later other found last leftAt rightAt further
              apply agree (index + 1) later other found last leftAt rightAt
              rw [List.take_succ_cons, sequence_cons_of_not_over _ _ done, perform_bind, reached]
              exact further

end TreeQuery.Run
