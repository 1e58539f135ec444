import Mathlib.Data.List.Forall2
import TreeQuery.Proofs.Run.Outcome
import TreeQuery.Proofs.Run.Sequence

/-! # What runs yield

A run yields what it ends on when it does not fail. Whether it fails may depend on what a sink makes
of earlier lines, so nothing is said here about when it does. What a run yields is put together from
what its parts yield (`TreeQuery.Run.Yields.of_bind`).
-/

namespace TreeQuery.Run

variable {Node Leaf Failure State : Type} {α β : Type}

/-- A value on which a run may end. -/
def Yields (computation : Run Node Leaf Failure α) (value : α) : Prop :=
  ∃ before after, computation.perform before = (.ok value, after)

/-- Runs with the same outcomes and journals are the same. -/
theorem ext_perform {left right : Run Node Leaf Failure α}
    (same : ∀ before, left.perform before = right.perform before) : left = right :=
  funext same

/-- A run that goes on from a first part yields what it yields from something that the first part
does. -/
theorem perform_bind_eq_ok {first : Run Node Leaf Failure α} {next : α → Run Node Leaf Failure β}
    {before after : Journal Node Leaf} {value : β} :
    (first >>= next).perform before = (.ok value, after) ↔
      ∃ middle reached, first.perform before = (.ok middle, reached) ∧
        (next middle).perform reached = (.ok value, after) := by
  rw [perform_bind]
  rcases first.perform before with ⟨_ | middle, reached⟩
  · simp
  · simp

namespace Yields

theorem of_pure {value found : α}
    (yields : (pure value : Run Node Leaf Failure α).Yields found) : found = value := by
  obtain ⟨before, after, ended⟩ := yields
  cases ended
  rfl

theorem not_throw {fault : Fault Failure} {found : α} :
    ¬ (throw fault : Run Node Leaf Failure α).Yields found := by
  rintro ⟨before, after, ended⟩
  cases ended

theorem of_bind {first : Run Node Leaf Failure α} {next : α → Run Node Leaf Failure β} {found : β}
    (yields : (first >>= next).Yields found) :
    ∃ middle, first.Yields middle ∧ (next middle).Yields found := by
  obtain ⟨before, after, ended⟩ := yields
  obtain ⟨middle, reached, begun, later⟩ := perform_bind_eq_ok.mp ended
  exact ⟨middle, ⟨before, reached, begun⟩, reached, after, later⟩

/-- Where the outcome is known, a run yields nothing else. -/
theorem of_ends {computation : Run Node Leaf Failure α} {outcome : Except (Fault Failure) α}
    {found : α} (yields : computation.Yields found) (ends : computation.Ends outcome) :
    outcome = .ok found := by
  obtain ⟨before, after, ended⟩ := yields
  rw [← ends before, ended]

theorem of_mapM {computation : α → Run Node Leaf Failure β} {elements : List α} {found : List β}
    (yields : (elements.mapM computation).Yields found) :
    List.Forall₂ (fun element value => (computation element).Yields value) elements found := by
  induction elements generalizing found with
  | nil =>
      rw [List.mapM_nil] at yields
      rw [yields.of_pure]
      exact .nil
  | cons element rest ih =>
      rw [List.mapM_cons] at yields
      obtain ⟨value, first, later⟩ := yields.of_bind
      obtain ⟨values, others, ended⟩ := later.of_bind
      rw [ended.of_pure]
      exact .cons first (ih others)

/-- Where what each element yields is known, so is what all of them yield. -/
theorem eq_map_of_mapM {computation : α → Run Node Leaf Failure β} {value : α → β}
    {elements : List α} {found : List β} (yields : (elements.mapM computation).Yields found)
    (single : ∀ element ∈ elements, ∀ result, (computation element).Yields result →
      result = value element) : found = elements.map value := by
  have each := yields.of_mapM
  clear yields
  induction each with
  | nil => rfl
  | @cons element result rest results first others ih =>
      rw [List.map_cons, single element List.mem_cons_self result first]
      congr 1
      exact ih fun other member => single other (List.mem_cons_of_mem _ member)

/-- A traced section yields what its body does. -/
theorem of_traced {sink : Sink Failure} {title : String} {body : Run Node Leaf Failure α}
    {found : α} (yields : (traced sink title body).Yields found) : body.Yields found := by
  obtain ⟨before, after, ended⟩ := yields
  rw [perform_traced] at ended
  split at ended
  · next middle _ =>
      rw [perform_ensuring] at ended
      split at ended
      · exact ⟨middle, (body.perform middle).2, Prod.ext (Prod.ext_iff.mp ended).1 rfl⟩
      · cases ended
  · cases ended

/-- What every part of a sequence keeps holds of what the sequence yields. -/
theorem of_sequence {isOver : State → Bool} {invariant : State → Prop}
    {parts : List (State → Run Node Leaf Failure State)}
    (keeps : ∀ part ∈ parts, ∀ state next, invariant state → (part state).Yields next →
      invariant next)
    {state found : State} (holds : invariant state)
    (yields : (Run.sequence isOver parts state).Yields found) : invariant found := by
  induction parts generalizing state with
  | nil => exact yields.of_pure ▸ holds
  | cons part rest ih =>
      rw [Run.sequence] at yields
      split at yields
      · exact yields.of_pure ▸ holds
      · obtain ⟨next, first, later⟩ := yields.of_bind
        have kept := keeps part List.mem_cons_self state next holds first
        exact ih (fun other member => keeps other (List.mem_cons_of_mem _ member)) kept later

end Yields

end TreeQuery.Run
