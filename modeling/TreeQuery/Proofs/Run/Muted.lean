import TreeQuery.Proofs.Navigation.Congruence
import TreeQuery.Proofs.Run.Outcome

/-! # Runs with trace output off

A path without titles never switches trace output on. Run with output off, it sends no line, so it
does not matter which sink it was given: it ends and calls as it would with a sink that takes every
line, and output is still off (`TreeQuery.Path.run_muted`). What a path ends with in every run with
such a sink is therefore what it ends with in a run with output off and any sink
(`TreeQuery.Path.navigate_endsMuted`).
-/

namespace TreeQuery

variable {Node Leaf Failure : Type} {α β : Type}

namespace Run

/-- The right run, started with trace output off, does what the left one does, and leaves output
off. -/
def Muted (left right : Run Node Leaf Failure α) : Prop :=
  ∀ before other : Journal Node Leaf, before.calls = other.calls → other.active = false →
    (left.perform before).1 = (right.perform other).1 ∧
      (left.perform before).2.calls = (right.perform other).2.calls ∧
        (right.perform other).2.active = false

namespace Muted

theorem bind {left right : Run Node Leaf Failure α}
    {leftNext rightNext : α → Run Node Leaf Failure β} (muted : Muted left right)
    (goes : ∀ value, Muted (leftNext value) (rightNext value)) :
    Muted (left >>= leftNext) (right >>= rightNext) := by
  intro before other same off
  have parts := muted before other same off
  rw [perform_bind, perform_bind]
  generalize left.perform before = leftDone at parts ⊢
  generalize right.perform other = rightDone at parts ⊢
  obtain ⟨leftOutcome, leftLater⟩ := leftDone
  obtain ⟨rightOutcome, rightLater⟩ := rightDone
  obtain ⟨outcome, calls, off⟩ := parts
  cases outcome
  cases leftOutcome with
  | error fault => exact ⟨rfl, calls, off⟩
  | ok value => exact goes value leftLater rightLater calls off

theorem congruence :
    Congruence fun _ (left right : Run Node Leaf Failure _) => Muted left right where
  pure _ _ _ same off := ⟨rfl, same, off⟩
  throw _ _ _ same off := ⟨rfl, same, off⟩
  note call := by
    intro before other same off
    rw [perform_note, perform_note, same]
    exact ⟨rfl, rfl, off⟩
  liftExcept outcome := by
    intro before other same off
    rw [perform_liftExcept, perform_liftExcept]
    exact ⟨rfl, same, off⟩
  bind := bind

variable {first : Sink Failure}

/-- A line that is taken on the left goes nowhere on the right. -/
theorem send (accepts : first.Accepts) (second : Sink Failure) (line : Line) :
    Muted (Run.send first line : Run Node Leaf Failure Unit) (Run.send second line) := by
  intro before other same off
  rw [perform_send_of_accepts accepts, perform_send_of_inactive second line off]
  exact ⟨rfl, same, off⟩

/-- Titles on the left do not count. -/
theorem traced (accepts : first.Accepts) (title : String) {body other : Run Node Leaf Failure α}
    (muted : Muted body other) : Muted (Run.traced first title body) other := by
  intro before later same off
  rw [perform_traced_of_accepts accepts]
  exact muted _ later same off

theorem traceCongruence (accepts : first.Accepts) (second : Sink Failure) :
    TraceCongruence (fun _ (left right : Run Node Leaf Failure _) => Muted left right)
      first second id where
  toCongruence := congruence
  step label count := send accepts second (.step label count)
  abort := send accepts second .abort
  excluding muted := by
    apply (send accepts second _).bind
    intro _
    apply muted.bind
    intro result
    exact (send accepts second _).bind fun _ => congruence.pure result
  traced title _ _ muted := muted.traced accepts title

end Muted

/-- A run that ends in one way whenever trace output is off before it. -/
def EndsMuted (computation : Run Node Leaf Failure α) (outcome : Except (Fault Failure) α) :
    Prop :=
  ∀ journal, journal.active = false → (computation.perform journal).1 = outcome

end Run

namespace Path

variable [Keyed Node]

/-- A path with a sink that takes every line does what it does without its titles, with output off
and any sink. -/
theorem run_muted {first : Sink Failure} (accepts : first.Accepts) (second : Sink Failure)
    (setting : Setting Node Leaf Failure) (path : Path Leaf) (start : Frontier Node) :
    (path.run (setting.reporting first) start).Muted
      (path.untraced.run (setting.reporting second) start) := by
  have related := (Run.Muted.traceCongruence accepts second).run_untraced setting path start
  rw [path.retitled_id] at related
  exact related

/-- A path without titles ends with output off as it ends in every run with a sink that takes every
line. -/
theorem navigate_endsMuted {setting : Setting Node Leaf Failure} {path : Path Leaf}
    (untraced : path.untraced = path) {start : List Node}
    {outcome : Except (Fault Failure) (Frontier Node)}
    (ends : (path.navigate (setting.reporting .accepting) start).Ends outcome) :
    (path.navigate setting start).EndsMuted outcome := by
  intro journal off
  have accepts : (Sink.accepting : Sink Failure).Accepts := fun _ _ => rfl
  have muted := run_muted accepts setting.sink setting path (.ofList start) journal journal rfl off
  rw [untraced] at muted
  exact muted.1.symm.trans (ends journal)

end Path

end TreeQuery
