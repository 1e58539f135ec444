import TreeQuery.Proofs.Run.Congruence
import TreeQuery.Proofs.Run.Outcome

/-! # Runs that differ in their traces only

Two runs are alike when, from journals with the same calls, they end in the same way and leave the
same calls behind, whatever the journals say of traces. Alike parts make alike runs, a line that a
sink takes makes no difference, and neither does tracing a section
(`TreeQuery.Run.Alike.traceCongruence`).
-/

namespace TreeQuery.Run

variable {Node Leaf Failure : Type} {α β : Type}

/-- Two runs that end in the same way and make the same calls, wherever their traces stand. -/
def Alike (left right : Run Node Leaf Failure α) : Prop :=
  ∀ before other : Journal Node Leaf, before.calls = other.calls →
    (left.perform before).1 = (right.perform other).1 ∧
      (left.perform before).2.calls = (right.perform other).2.calls

namespace Alike

/-- Neither of two runs that are alike comes first. -/
theorem symm {left right : Run Node Leaf Failure α} (alike : Alike left right) :
    Alike right left := by
  intro before other same
  obtain ⟨outcome, calls⟩ := alike other before same.symm
  exact ⟨outcome.symm, calls.symm⟩

/-- Runs alike to a third one are alike. -/
theorem trans {left middle right : Run Node Leaf Failure α} (near : Alike left middle)
    (far : Alike middle right) : Alike left right := by
  intro before other same
  obtain ⟨nearOutcome, nearCalls⟩ := near before other same
  obtain ⟨farOutcome, farCalls⟩ := far other other rfl
  exact ⟨nearOutcome.trans farOutcome, nearCalls.trans farCalls⟩

/-- Alike runs end with the same value, and what goes on from it may start alike. -/
theorem bind {left right : Run Node Leaf Failure α}
    {leftNext rightNext : α → Run Node Leaf Failure β} (alike : Alike left right)
    (goes : ∀ value, Alike (leftNext value) (rightNext value)) :
    Alike (left >>= leftNext) (right >>= rightNext) := by
  intro before other same
  have parts := alike before other same
  rw [perform_bind, perform_bind]
  -- The journals may differ in their traces by now, but agree in what decides how to go on.
  generalize left.perform before = leftDone at parts ⊢
  generalize right.perform other = rightDone at parts ⊢
  obtain ⟨leftOutcome, leftLater⟩ := leftDone
  obtain ⟨rightOutcome, rightLater⟩ := rightDone
  obtain ⟨outcome, calls⟩ := parts
  cases outcome
  cases leftOutcome with
  | error fault => exact ⟨rfl, calls⟩
  | ok value => exact goes value leftLater rightLater calls

/-- Runs made of alike parts are alike. -/
theorem congruence :
    Congruence fun _ (left right : Run Node Leaf Failure _) => Alike left right where
  pure _ _ _ same := ⟨rfl, same⟩
  throw _ _ _ same := ⟨rfl, same⟩
  note call := by
    intro before other same
    rw [perform_note, perform_note, same]
    exact ⟨rfl, rfl⟩
  liftExcept outcome := by
    intro before other same
    rw [perform_liftExcept, perform_liftExcept]
    exact ⟨rfl, same⟩
  bind := bind

variable {first second : Sink Failure}

/-- Lines to sinks that take them make no difference. -/
theorem send (accepts : first.Accepts) (takes : second.Accepts) (line : Line) :
    Alike (Run.send first line : Run Node Leaf Failure Unit) (Run.send second line) := by
  intro before other same
  rw [perform_send_of_accepts accepts, perform_send_of_accepts takes]
  exact ⟨rfl, same⟩

/-- Tracing a section makes no difference. -/
theorem traced (accepts : first.Accepts) (title : String)
    {body other : Run Node Leaf Failure α} (alike : Alike body other) :
    Alike (Run.traced first title body) other := by
  intro before later same
  rw [perform_traced_of_accepts accepts]
  exact alike _ later same

/-- Alike parts make alike runs also if sinks and titles differ, as long as both sinks take their
lines. -/
theorem traceCongruence (accepts : first.Accepts) (takes : second.Accepts)
    (names : String → String) :
    TraceCongruence (fun _ (left right : Run Node Leaf Failure _) => Alike left right)
      first second names where
  toCongruence := congruence
  step label count := send accepts takes (.step label count)
  abort := send accepts takes .abort
  excluding alike := by
    apply (send accepts takes _).bind
    intro _
    apply alike.bind
    intro result
    exact (send accepts takes _).bind fun _ => congruence.pure result
  traced title _ _ alike := alike.traced accepts (names title)

end Alike

end TreeQuery.Run
