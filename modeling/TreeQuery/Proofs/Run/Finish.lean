import TreeQuery.Proofs.Run.Outcome
import TreeQuery.Proofs.Run.Sequence

/-! # Runs that come to an end

A run finishes when it is not given up, whatever its journal and whatever the sink refuses: it fails
in some other way, or it ends on a value of which something is known. Parts that finish make runs
that finish (`TreeQuery.Run.Finishes.bind`, `TreeQuery.Run.Finishes.sequence`).
-/

namespace TreeQuery.Run

variable {Node Leaf Failure State : Type} {α β : Type}

/-- A run that is never given up, and ends on a value as expected unless it fails. -/
def Finishes (computation : Run Node Leaf Failure α) (expected : α → Prop) : Prop :=
  ∀ before, match (computation.perform before).1 with
    | .ok value => expected value
    | .error fault => fault ≠ .exhausted

namespace Finishes

variable {expected : α → Prop} {desired : β → Prop}

theorem pure {value : α} (holds : expected value) :
    Finishes (Pure.pure value : Run Node Leaf Failure α) expected :=
  fun _ => holds

/-- A fault is no giving up unless it is that one. -/
theorem throw {fault : Fault Failure} (other : fault ≠ .exhausted) :
    Finishes (throw fault : Run Node Leaf Failure α) expected :=
  fun _ => other

theorem note (call : Call Node Leaf) :
    Finishes (Run.note call : Run Node Leaf Failure Unit) fun _ => True :=
  fun _ => trivial

/-- A run that finishes has not been given up. -/
theorem ne_exhausted {computation : Run Node Leaf Failure α}
    (finishes : Finishes computation expected) (before : Journal Node Leaf) :
    (computation.perform before).1 ≠ .error .exhausted := by
  intro given
  have ended := finishes before
  rw [given] at ended
  exact ended rfl

/-- Less may be expected of the value. -/
theorem mono {computation : Run Node Leaf Failure α} {weaker : α → Prop}
    (finishes : Finishes computation expected) (weaken : ∀ value, expected value → weaker value) :
    Finishes computation weaker := by
  intro before
  have ended := finishes before
  cases same : (computation.perform before).1 with
  | ok value =>
      rw [same] at ended
      exact weaken value ended
  | error fault =>
      rw [same] at ended
      exact ended

/-- A run whose outcome is known finishes if that is not being given up. -/
theorem of_ends {computation : Run Node Leaf Failure α} {outcome : Except (Fault Failure) α}
    (ends : computation.Ends outcome) (other : outcome ≠ .error .exhausted)
    (holds : ∀ value, outcome = .ok value → expected value) : Finishes computation expected := by
  intro before
  rw [ends before]
  cases outcome with
  | ok value => exact holds value rfl
  | error fault => exact fun same => other (congrArg Except.error same)

/-- Runs that finish finish one after the other, the later one from every value expected. -/
theorem bind {first : Run Node Leaf Failure α} {next : α → Run Node Leaf Failure β}
    (finishes : Finishes first expected)
    (goes : ∀ value, expected value → Finishes (next value) desired) :
    Finishes (first >>= next) desired := by
  intro before
  have ended := finishes before
  rw [perform_bind]
  generalize first.perform before = done at ended ⊢
  obtain ⟨outcome, middle⟩ := done
  cases outcome with
  | error fault => exact ended
  | ok value => exact goes value ended middle

/-- A sink may refuse a line, but that is no giving up. -/
theorem send (sink : Sink Failure) (line : Line) :
    Finishes (Run.send sink line : Run Node Leaf Failure Unit) fun _ => True := by
  rintro ⟨_ | _, lines, calls⟩
  · rw [perform_send_of_inactive sink line rfl]
    trivial
  · rw [perform_send_of_active sink line rfl]
    cases sink lines line with
    | none => trivial
    | some failure => exact fun same => by cases same

/-- A traced section finishes if its body does. -/
theorem traced (sink : Sink Failure) (title : String) {body : Run Node Leaf Failure α}
    (finishes : Finishes body expected) : Finishes (Run.traced sink title body) expected := by
  have closes : ∀ before, Finishes (Run.leave sink title before : Run Node Leaf Failure Unit)
      fun _ => True := fun before => (send sink _).bind fun _ _ => fun _ => trivial
  intro before
  rw [perform_traced]
  have opens : Finishes (Run.send sink (.beginPath title) : Run Node Leaf Failure Unit)
      fun _ => True := send sink _
  have opened := opens { before with active := true }
  generalize (Run.send sink (.beginPath title) : Run Node Leaf Failure Unit).perform
    { before with active := true } = entered at opened ⊢
  obtain ⟨_ | _, middle⟩ := entered
  · exact opened
  · dsimp only
    rw [perform_ensuring]
    have closed := closes before.active (body.perform middle).2
    generalize (Run.leave sink title before.active : Run Node Leaf Failure Unit).perform
      (body.perform middle).2 = left at closed ⊢
    obtain ⟨_ | _, last⟩ := left
    · exact closed
    · exact finishes middle

/-- Runs for the elements of a list finish if each of them does. -/
theorem mapM {elements : List α} {computation : α → Run Node Leaf Failure β}
    (finishes : ∀ element ∈ elements, Finishes (computation element) desired) :
    Finishes (elements.mapM computation) fun values => ∀ value ∈ values, desired value := by
  induction elements with
  | nil =>
      rw [List.mapM_nil]
      exact pure fun _ member => absurd member List.not_mem_nil
  | cons element rest ih =>
      rw [List.mapM_cons]
      refine (finishes element List.mem_cons_self).bind fun value here => ?_
      refine (ih fun other member => finishes other (.tail _ member)).bind fun values others => ?_
      exact pure (List.forall_mem_cons.mpr ⟨here, others⟩)

/-- A sequence finishes if every part keeps what holds of the state. -/
theorem sequence {isOver : State → Bool} {invariant : State → Prop}
    {parts : List (State → Run Node Leaf Failure State)}
    (keeps : ∀ part ∈ parts, ∀ state, invariant state → Finishes (part state) invariant)
    {state : State} (holds : invariant state) :
    Finishes (Run.sequence isOver parts state) invariant := by
  induction parts generalizing state with
  | nil => exact pure holds
  | cons part rest ih =>
      rw [Run.sequence]
      split
      · exact pure holds
      · refine (keeps part List.mem_cons_self state holds).bind fun next later => ?_
        exact ih (fun other member => keeps other (.tail _ member)) later

end Finishes

end TreeQuery.Run
