import Mathlib.Data.Set.Defs
import TreeQuery.Proofs.Run.Congruence
import TreeQuery.Proofs.Run.Outcome
import TreeQuery.Proofs.Run.Sequence

/-! # Where runs put their questions

Every question that a run puts is about a node. A run keeps to a region when all its questions are
about nodes of the region, however it ends, so that nothing outside the region can have a part in
it. Parts that keep to a region make runs that do (`TreeQuery.Run.KeepsTo.bind`,
`TreeQuery.Run.KeepsTo.sequence`).
-/

namespace TreeQuery

variable {Node Leaf Failure State : Type} {α β : Type} {region : Set Node}

/-- The node that a question is about. -/
def Call.about : Call Node Leaf → Node
  | .tested _ node | .counted _ node | .asked _ node => node

/-- A journal to which none but questions about nodes of a region were added. -/
def Journal.InRegion (region : Set Node) (before after : Journal Node Leaf) : Prop :=
  ∃ calls, after.calls = calls ++ before.calls ∧ ∀ call ∈ calls, call.about ∈ region

namespace Journal.InRegion

variable {before middle after : Journal Node Leaf}

/-- Without a new call there is none outside. -/
theorem of_same (same : after.calls = before.calls) : InRegion region before after :=
  ⟨[], same, fun _ member => absurd member List.not_mem_nil⟩

theorem trans (first : InRegion region before middle) (second : InRegion region middle after) :
    InRegion region before after := by
  obtain ⟨early, begun, inside⟩ := first
  obtain ⟨late, ended, within⟩ := second
  refine ⟨late ++ early, by rw [ended, begun, List.append_assoc], fun call member => ?_⟩
  exact (List.mem_append.mp member).elim (within call) (inside call)

end Journal.InRegion

namespace Run

/-- A run that asks about none but nodes of a region, also where it fails, and ends on a value as
expected unless it fails. -/
def KeepsTo (region : Set Node) (computation : Run Node Leaf Failure α) (expected : α → Prop) :
    Prop :=
  ∀ before, before.InRegion region (computation.perform before).2 ∧
    ∀ value, (computation.perform before).1 = .ok value → expected value

namespace KeepsTo

variable {expected : α → Prop} {desired : β → Prop}

theorem pure {value : α} (holds : expected value) :
    KeepsTo region (Pure.pure value : Run Node Leaf Failure α) expected := by
  refine fun before => ⟨.of_same rfl, fun found same => ?_⟩
  cases same
  exact holds

/-- A fault asks about nothing. -/
theorem throw (fault : Fault Failure) :
    KeepsTo region (throw fault : Run Node Leaf Failure α) expected :=
  fun before => ⟨.of_same rfl, fun _ same => by cases same⟩

/-- A call about a node of the region is noted. -/
theorem note {call : Call Node Leaf} (inside : call.about ∈ region) :
    KeepsTo region (Run.note call : Run Node Leaf Failure Unit) fun _ => True :=
  fun _ => ⟨⟨[call], rfl, List.forall_mem_singleton.mpr inside⟩, fun _ _ => trivial⟩

theorem liftExcept {outcome : Except (Fault Failure) α}
    (holds : ∀ value, outcome = .ok value → expected value) :
    KeepsTo region (liftM outcome : Run Node Leaf Failure α) expected := by
  intro before
  rw [perform_liftExcept]
  exact ⟨.of_same rfl, holds⟩

/-- Runs one after the other keep to the region if both do, the later one from every value expected.
-/
theorem bind {first : Run Node Leaf Failure α} {next : α → Run Node Leaf Failure β}
    (keeps : KeepsTo region first expected)
    (goes : ∀ value, expected value → KeepsTo region (next value) desired) :
    KeepsTo region (first >>= next) desired := by
  intro before
  obtain ⟨begun, holds⟩ := keeps before
  rw [perform_bind]
  generalize first.perform before = done at begun holds ⊢
  obtain ⟨outcome, middle⟩ := done
  cases outcome with
  | error fault => exact ⟨begun, fun _ same => by cases same⟩
  | ok value =>
      obtain ⟨later, ends⟩ := goes value (holds value rfl) middle
      exact ⟨begun.trans later, ends⟩

theorem map {computation : Run Node Leaf Failure α} (change : α → β)
    (keeps : KeepsTo region computation fun value => desired (change value)) :
    KeepsTo region (change <$> computation) desired := by
  rw [map_eq_pure_bind]
  exact keeps.bind fun _ holds => pure holds

/-- A line is no question, whether or not the sink takes it. -/
theorem send (sink : Sink Failure) (line : Line) :
    KeepsTo region (Run.send sink line : Run Node Leaf Failure Unit) fun _ => True := by
  rintro ⟨_ | _, lines, calls⟩
  · rw [perform_send_of_inactive sink line rfl]
    exact ⟨.of_same rfl, fun _ _ => trivial⟩
  · rw [perform_send_of_active sink line rfl]
    exact ⟨.of_same rfl, fun _ _ => trivial⟩

/-- A traced section puts the questions of its body. -/
theorem traced (sink : Sink Failure) (title : String) {body : Run Node Leaf Failure α}
    (keeps : KeepsTo region body expected) :
    KeepsTo region (Run.traced sink title body) expected := by
  have closes : ∀ before, KeepsTo region (Run.leave sink title before : Run Node Leaf Failure Unit)
      fun _ => True := by
    refine fun before => (send sink _).bind fun _ _ => fun journal => ?_
    exact ⟨.of_same rfl, fun _ _ => trivial⟩
  intro before
  rw [perform_traced]
  have opens : KeepsTo region (Run.send sink (.beginPath title) : Run Node Leaf Failure Unit)
      fun _ => True := send sink _
  have opened : before.InRegion region _ := (opens { before with active := true }).1
  generalize (Run.send sink (.beginPath title) : Run Node Leaf Failure Unit).perform
    { before with active := true } = entered at opened ⊢
  obtain ⟨_ | _, middle⟩ := entered
  · exact ⟨opened, fun _ same => by cases same⟩
  · obtain ⟨within, holds⟩ := keeps middle
    dsimp only
    rw [perform_ensuring]
    have closed := (closes before.active (body.perform middle).2).1
    generalize (Run.leave sink title before.active : Run Node Leaf Failure Unit).perform
      (body.perform middle).2 = left at closed ⊢
    obtain ⟨_ | _, last⟩ := left
    · exact ⟨(opened.trans within).trans closed, fun _ same => by cases same⟩
    · exact ⟨(opened.trans within).trans closed, holds⟩

/-- A body between the two lines of an exclusion puts its questions. -/
theorem excluding (sink : Sink Failure) {body : Run Node Leaf Failure α}
    (keeps : KeepsTo region body expected) :
    KeepsTo region (Run.excluding sink body) expected := by
  refine (send sink _).bind fun _ _ => keeps.bind fun value holds => ?_
  exact (send sink _).bind fun _ _ => pure holds

/-- Runs for the elements of a list keep to the region if each of them does. -/
theorem mapM {elements : List α} {computation : α → Run Node Leaf Failure β}
    (keeps : ∀ element ∈ elements, KeepsTo region (computation element) desired) :
    KeepsTo region (elements.mapM computation) fun values => ∀ value ∈ values, desired value := by
  induction elements with
  | nil =>
      rw [List.mapM_nil]
      exact pure fun _ member => absurd member List.not_mem_nil
  | cons element rest ih =>
      rw [List.mapM_cons]
      refine (keeps element List.mem_cons_self).bind fun value here => ?_
      refine (ih fun other member => keeps other (.tail _ member)).bind fun values others => ?_
      exact pure (List.forall_mem_cons.mpr ⟨here, others⟩)

/-- A sequence keeps to a region if every part does that keeps what holds of the state. -/
theorem sequence {isOver : State → Bool} {invariant : State → Prop}
    {parts : List (State → Run Node Leaf Failure State)}
    (keeps : ∀ part ∈ parts, ∀ state, invariant state → KeepsTo region (part state) invariant)
    {state : State} (holds : invariant state) :
    KeepsTo region (Run.sequence isOver parts state) invariant := by
  induction parts generalizing state with
  | nil => exact pure holds
  | cons part rest ih =>
      rw [Run.sequence]
      split
      · exact pure holds
      · refine (keeps part List.mem_cons_self state holds).bind fun next later => ?_
        exact ih (fun other member => keeps other (.tail _ member)) later

end KeepsTo

end Run

end TreeQuery
