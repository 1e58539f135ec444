import Mathlib.Data.Set.Defs
import TreeQuery.Navigation
import TreeQuery.Proofs.Run.Outcome

/-! # Verdicts of predicates

What a predicate answers about a node does not depend on the journal of the run that asks it. The
verdict is that answer, or the fault of the first operand asked that has none, read off the answers
of the leaves alone (`TreeQuery.Predicate.test_ends`).
-/

namespace TreeQuery.Predicate

variable {Node Leaf Failure : Type}

/-- The answer of a predicate, given those of the leaves. The right operand of a connective counts
only when the left one leaves the answer open. -/
def verdict (answer : Leaf → Node → Except (Fault Failure) Value) :
    Predicate Leaf → Node → Except (Fault Failure) Value
  | any, _ => .ok (.bool true)
  | function leaf _, node => (fun value => .bool value.truthy) <$> answer leaf node
  | custom leaf _, node => answer leaf node
  | counting _ inner _, node => inner.verdict answer node
  | negation inner, node => (fun value => .bool !value.truthy) <$> inner.verdict answer node
  | conjunction left right, node => do
      if (← left.verdict answer node).truthy then
        (fun value => .bool value.truthy) <$> right.verdict answer node
      else .ok (.bool false)
  | disjunction left right, node => do
      if (← left.verdict answer node).truthy then .ok (.bool true)
      else (fun value => .bool value.truthy) <$> right.verdict answer node
  | traversal _ inner, node => inner.verdict answer node
  | foreign object, node => answer object node

/-- Whether a predicate has an answer about a node, and a true one. -/
def holds (answer : Leaf → Node → Except (Fault Failure) Value) (predicate : Predicate Leaf)
    (node : Node) : Bool :=
  match predicate.verdict answer node with
  | .ok value => value.truthy
  | .error _ => false

/-- A predicate that has an answer about every node of a region. -/
def Answers (answer : Leaf → Node → Except (Fault Failure) Value) (region : Set Node)
    (predicate : Predicate Leaf) : Prop :=
  ∀ node ∈ region, ∃ value, predicate.verdict answer node = .ok value

variable {setting : Setting Node Leaf Failure}

/-- Testing a node ends with the verdict about it. -/
theorem test_ends (predicate : Predicate Leaf) (node : Node) :
    (predicate.test setting node).Ends (predicate.verdict setting.answer node) := by
  induction predicate with
  | any => exact .pure _
  | function leaf label =>
      rw [test, verdict, map_eq_pure_bind]
      refine (Run.Ends.note _).bind_ok ?_
      exact (Run.Ends.liftExcept _).bind fun _ => .pure _
  | custom leaf className =>
      rw [test, verdict]
      exact (Run.Ends.note _).bind_ok (.liftExcept _)
  | counting counter inner title? ih =>
      rw [test, verdict]
      exact (Run.Ends.note _).bind_ok ih
  | negation inner ih =>
      rw [test, verdict, map_eq_pure_bind]
      exact ih.bind fun _ => .pure _
  | conjunction left right leftIH rightIH =>
      rw [test, verdict]
      refine leftIH.bind fun value => ?_
      cases value.truthy with
      | false => exact .pure _
      | true =>
          rw [if_pos rfl, if_pos rfl, map_eq_pure_bind]
          exact rightIH.bind fun _ => .pure _
  | disjunction left right leftIH rightIH =>
      rw [test, verdict]
      refine leftIH.bind fun value => ?_
      cases value.truthy with
      | true => exact .pure _
      | false =>
          rw [if_neg Bool.false_ne_true, if_neg Bool.false_ne_true, map_eq_pure_bind]
          exact rightIH.bind fun _ => .pure _
  | traversal axis inner ih =>
      rw [test, verdict]
      exact ih
  | foreign object =>
      rw [test, verdict]
      exact .liftExcept _

/-- Where a predicate has an answer, the question whether it accepts ends with whether it holds. -/
theorem Answers.accepts_ends {region : Set Node} {predicate : Predicate Leaf}
    (answers : predicate.Answers setting.answer region) {node : Node} (inside : node ∈ region) :
    (predicate.accepts setting node).Ends (.ok (predicate.holds setting.answer node)) := by
  obtain ⟨value, given⟩ := answers node inside
  have tested : (predicate.test setting node).Ends (.ok value) := given ▸ predicate.test_ends node
  have ends := tested.map Value.truthy
  rw [holds, given]
  exact ends

end TreeQuery.Predicate
