import Mathlib.Data.List.Forall2
import TreeQuery.Proofs.Run.Congruence
import TreeQuery.Proofs.Run.Outcome
import TreeQuery.Proofs.Run.Sequence

/-! # Runs over renamed nodes

Nodes may go by other names. A run mirrors another one if it does over the new names what the other
does over the old ones: from journals that differ in the names only they come to such journals, they
fail with the same fault, and their values are related. Parts that mirror each other make wholes
that do (`TreeQuery.Run.Mirrors.bind`, `TreeQuery.Run.Mirrors.sequence`).
-/

namespace TreeQuery

variable {Node Other Leaf Failure : Type}

/-- The same question about a renamed node. -/
def Call.renamed (rename : Node → Other) : Call Node Leaf → Call Other Leaf
  | .tested leaf node => .tested leaf (rename node)
  | .counted counter node => .counted counter (rename node)
  | .asked relation node => .asked relation (rename node)

/-- The same journal over renamed nodes. -/
def Journal.renamed (rename : Node → Other) (journal : Journal Node Leaf) : Journal Other Leaf :=
  ⟨journal.active, journal.lines, journal.calls.map (Call.renamed rename)⟩

/-- The same listing of renamed nodes. -/
def Listing.renamed (rename : Node → Other) (listing : Listing Node Failure) :
    Listing Other Failure :=
  ⟨listing.nodes.map rename, listing.fault?⟩

namespace Run

variable {α β γ δ : Type}

/-- Outcomes that are one fault or related values. -/
def Matches (relates : α → β → Prop) :
    Except (Fault Failure) α → Except (Fault Failure) β → Prop
  | .ok value, .ok other => relates value other
  | .error fault, .error failed => fault = failed
  | _, _ => False

/-- The second run does over renamed nodes what the first one does. -/
def Mirrors (rename : Node → Other) (relates : α → β → Prop) (left : Run Node Leaf Failure α)
    (right : Run Other Leaf Failure β) : Prop :=
  ∀ before : Journal Node Leaf,
    (right.perform (before.renamed rename)).2 = (left.perform before).2.renamed rename ∧
      Matches relates (left.perform before).1 (right.perform (before.renamed rename)).1

namespace Mirrors

variable {rename : Node → Other} {relates : α → β → Prop} {desired : γ → δ → Prop}

theorem pure {value : α} {other : β} (related : relates value other) :
    Mirrors rename relates (Pure.pure value : Run Node Leaf Failure α) (Pure.pure other) :=
  fun _ => ⟨rfl, related⟩

/-- A fault names no node. -/
theorem throw (fault : Fault Failure) :
    Mirrors rename relates (throw fault : Run Node Leaf Failure α)
      (throw fault : Run Other Leaf Failure β) :=
  fun _ => ⟨rfl, rfl⟩

/-- A call is mirrored by the same question about the renamed node. -/
theorem note (call : Call Node Leaf) :
    Mirrors rename Eq (Run.note call : Run Node Leaf Failure Unit)
      (Run.note (call.renamed rename)) :=
  fun _ => ⟨rfl, rfl⟩

theorem liftExcept {outcome : Except (Fault Failure) α} {other : Except (Fault Failure) β}
    (matching : Matches relates outcome other) :
    Mirrors rename relates (liftM outcome : Run Node Leaf Failure α)
      (liftM other : Run Other Leaf Failure β) := by
  intro before
  rw [perform_liftExcept, perform_liftExcept]
  exact ⟨rfl, matching⟩

/-- What goes on from related values may mirror each other from there. -/
theorem bind {left : Run Node Leaf Failure α} {right : Run Other Leaf Failure β}
    {leftNext : α → Run Node Leaf Failure γ} {rightNext : β → Run Other Leaf Failure δ}
    (mirrors : Mirrors rename relates left right)
    (goes : ∀ value other, relates value other →
      Mirrors rename desired (leftNext value) (rightNext other)) :
    Mirrors rename desired (left >>= leftNext) (right >>= rightNext) := by
  intro before
  obtain ⟨journals, outcomes⟩ := mirrors before
  rw [perform_bind, perform_bind]
  generalize left.perform before = leftDone at journals outcomes ⊢
  generalize right.perform (before.renamed rename) = rightDone at journals outcomes ⊢
  obtain ⟨leftOutcome, middle⟩ := leftDone
  obtain ⟨rightOutcome, _⟩ := rightDone
  cases journals
  cases leftOutcome with
  | error fault =>
      cases rightOutcome with
      | error failed => exact ⟨rfl, outcomes⟩
      | ok other => exact outcomes.elim
  | ok value =>
      cases rightOutcome with
      | error failed => exact outcomes.elim
      | ok other => exact goes value other outcomes middle

/-- Related values stay related when both are changed alike. -/
theorem map {left : Run Node Leaf Failure α} {right : Run Other Leaf Failure β}
    {change : α → γ} {replace : β → δ} (mirrors : Mirrors rename relates left right)
    (changes : ∀ value other, relates value other → desired (change value) (replace other)) :
    Mirrors rename desired (change <$> left) (replace <$> right) := by
  rw [map_eq_pure_bind, map_eq_pure_bind]
  exact mirrors.bind fun value other related => .pure (changes value other related)

/-- A line says nothing of nodes. -/
theorem send (sink : Sink Failure) (line : Line) :
    Mirrors rename Eq (Run.send sink line : Run Node Leaf Failure Unit) (Run.send sink line) := by
  rintro ⟨_ | _, lines, calls⟩
  · rw [perform_send_of_inactive sink line rfl, perform_send_of_inactive sink line rfl]
    exact ⟨rfl, rfl⟩
  · rw [perform_send_of_active sink line rfl, perform_send_of_active sink line rfl]
    refine ⟨rfl, ?_⟩
    dsimp only [Journal.renamed]
    cases sink lines line <;> exact rfl

/-- The closing line of a section is sent however the section ended. -/
theorem ensuring {left : Run Node Leaf Failure α} {right : Run Other Leaf Failure β}
    {closing : Run Node Leaf Failure Unit} {ending : Run Other Leaf Failure Unit}
    (mirrors : Mirrors rename relates left right) (closes : Mirrors rename Eq closing ending) :
    Mirrors rename relates (Run.ensuring left closing) (Run.ensuring right ending) := by
  intro before
  obtain ⟨journals, outcomes⟩ := mirrors before
  rw [perform_ensuring, perform_ensuring, journals]
  obtain ⟨closed, ends⟩ := closes (left.perform before).2
  generalize closing.perform (left.perform before).2 = leftDone at closed ends ⊢
  generalize ending.perform ((left.perform before).2.renamed rename) = rightDone at closed ends ⊢
  obtain ⟨leftOutcome, last⟩ := leftDone
  obtain ⟨rightOutcome, _⟩ := rightDone
  cases closed
  cases leftOutcome with
  | error fault =>
      cases rightOutcome with
      | error failed => exact ⟨rfl, ends⟩
      | ok _ => exact ends.elim
  | ok _ =>
      cases rightOutcome with
      | error failed => exact ends.elim
      | ok _ => exact ⟨rfl, outcomes⟩

/-- Lines name no node, so that traced sections mirror each other if their bodies do. -/
theorem traced (sink : Sink Failure) (title : String) {left : Run Node Leaf Failure α}
    {right : Run Other Leaf Failure β} (mirrors : Mirrors rename relates left right) :
    Mirrors rename relates (Run.traced sink title left) (Run.traced sink title right) := by
  have switches : ∀ active, Mirrors rename Eq (switch active : Run Node Leaf Failure Unit)
      (switch active) := fun _ _ => ⟨rfl, rfl⟩
  have looks : Mirrors rename Eq (isActive : Run Node Leaf Failure Bool) isActive :=
    fun _ => ⟨rfl, rfl⟩
  refine looks.bind fun active _ same => ?_
  cases same
  have opens := (switches true).bind fun _ _ _ => send sink (.beginPath title)
  have closes : Mirrors rename Eq (leave sink title active : Run Node Leaf Failure Unit)
      (leave sink title active) := (send sink (.endPath title)).bind fun _ _ _ => switches active
  exact opens.bind fun _ _ _ => mirrors.ensuring closes

/-- Exclusions mirror each other if their bodies do. -/
theorem excluding (sink : Sink Failure) {left : Run Node Leaf Failure α}
    {right : Run Other Leaf Failure β} (mirrors : Mirrors rename relates left right) :
    Mirrors rename relates (Run.excluding sink left) (Run.excluding sink right) :=
  (send sink .beginExclusion).bind fun _ _ _ => mirrors.bind fun _ _ related =>
    (send sink .endExclusion).bind fun _ _ _ => .pure related

/-- Sequences mirror each other if their parts do, from related states. -/
theorem sequence {leftOver : α → Bool} {rightOver : β → Bool}
    (ended : ∀ state other, relates state other → leftOver state = rightOver other)
    {leftParts : List (α → Run Node Leaf Failure α)}
    {rightParts : List (β → Run Other Leaf Failure β)}
    (parts : List.Forall₂ (fun left right => ∀ state other, relates state other →
      Mirrors rename relates (left state) (right other)) leftParts rightParts)
    {state : α} {other : β} (related : relates state other) :
    Mirrors rename relates (Run.sequence leftOver leftParts state)
      (Run.sequence rightOver rightParts other) := by
  induction parts generalizing state other with
  | nil => exact .pure related
  | cons first _ ih =>
      rw [Run.sequence, Run.sequence, ended state other related]
      split
      · exact .pure related
      · exact (first state other related).bind fun next later => ih

end Mirrors

end Run

end TreeQuery
