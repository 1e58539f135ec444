import TreeQuery.Proofs.Navigation.Loops
import TreeQuery.Proofs.Run.Course

/-! # Evaluation from left to right

The course of a navigation is written down here without traces and journals. A path is evaluated
from left to right: steps, delegates, a base and then what is excluded from it, and links each come
in order, and what lies behind an empty frontier is skipped. The first part that fails ends the
whole, since all of these are parts in order (`TreeQuery.Course.inOrder`). A run of a path takes
this course (`TreeQuery.Evaluation.run_takes`).
-/

namespace TreeQuery.Evaluation

variable {Node Leaf Failure : Type}

/-- A test asks its leaves from left to right, and the right operand of a connective only when the
left one leaves the answer open. -/
def test (answer : Leaf → Node → Except (Fault Failure) Value) :
    Predicate Leaf → Node → Course Node Leaf Failure Value
  | .any, _ => .done (.bool true)
  | .function leaf _, node =>
      (Course.asked (.tested leaf node) (answer leaf node)).andThen fun value =>
        .done (.bool value.truthy)
  | .custom leaf _, node => .asked (.tested leaf node) (answer leaf node)
  | .counting counter inner _, node =>
      (Course.asked (.counted counter node) (.ok ())).andThen fun _ => test answer inner node
  | .negation inner, node =>
      (test answer inner node).andThen fun value => .done (.bool !value.truthy)
  | .conjunction left right, node => (test answer left node).andThen fun first =>
      if first.truthy then
        (test answer right node).andThen fun second => .done (.bool second.truthy)
      else .done (.bool false)
  | .disjunction left right, node => (test answer left node).andThen fun first =>
      if first.truthy then .done (.bool true)
      else (test answer right node).andThen fun second => .done (.bool second.truthy)
  | .traversal _ inner, node => test answer inner node
  | .foreign object, node => ⟨[], answer object node⟩

variable [Keyed Node]

/-- Tests a node and keeps it if it is accepted. -/
def keeping (answer : Leaf → Node → Except (Fault Failure) Value) (predicate : Predicate Leaf)
    (node : Node) (kept : Frontier Node) : Course Node Leaf Failure (Frontier Node) :=
  (test answer predicate node).andThen fun value =>
    .done (if value.truthy then kept.insert node else kept)

/-- Tests the nodes of a frontier in order. -/
def filter (answer : Leaf → Node → Except (Fault Failure) Value) (predicate : Predicate Leaf)
    (frontier : Frontier Node) : Course Node Leaf Failure (Frontier Node) :=
  .inOrder never (frontier.nodes.map (keeping answer predicate)) ∅

/-- Asks the host one thing about a node and takes in the answer. -/
def inquiring (host : Host Node Failure) (inquiry : Relation × Node) (found : Frontier Node) :
    Course Node Leaf Failure (Frontier Node) :=
  (Course.asked (.asked inquiry.1 inquiry.2)
    (host.related inquiry.1 inquiry.2).toExcept).andThen fun listed =>
      .done (found.insertAll listed)

/-- Asks the host about the nodes of a frontier in order. -/
def relocate (host : Host Node Failure) (axis : Axis) (frontier : Frontier Node) :
    Course Node Leaf Failure (Frontier Node) :=
  .inOrder never ((axis.inquiries frontier.nodes).map (inquiring host)) ∅

/-- Moves and filters, and moves on from where it arrived when nothing was accepted. -/
def deepen (setting : Setting Node Leaf Failure) (axis : Axis) (predicate : Predicate Leaf) :
    Nat → Frontier Node → Course Node Leaf Failure (Frontier Node)
  | 0, _ => .failed .exhausted
  | moves + 1, frontier => (relocate setting.host axis frontier).andThen fun arrived =>
      if arrived.isEmpty then .done ∅
      else (filter setting.answer predicate arrived).andThen fun candidates =>
        if candidates.isEmpty && axis.deepens then deepen setting axis predicate moves arrived
        else .done candidates

/-- A step relocates and tests if it is a traversal, and tests otherwise. -/
def step (setting : Setting Node Leaf Failure) :
    Predicate Leaf → Frontier Node → Course Node Leaf Failure (Frontier Node)
  | .traversal axis inner, frontier => deepen setting axis inner setting.patience frontier
  | predicate, frontier => filter setting.answer predicate frontier

/-- A step that may be missing, which is a failure with its position. A step without a label fails
when it has been taken. -/
def stepAt (setting : Setting Node Leaf Failure) :
    Option (Predicate Leaf) × Nat → Frontier Node → Course Node Leaf Failure (Frontier Node)
  | (none, index), _ => .failed (.missingStep index)
  | (some predicate, _), frontier => (step setting predicate frontier).andThen fun found =>
      match predicate.label with
      | .ok _ => .done found
      | .error object => .failed (.raised (setting.unlabelled object))

/-- Adds what is found from a start. -/
def adding (start : Frontier Node)
    (part : Frontier Node → Course Node Leaf Failure (Frontier Node)) (found : Frontier Node) :
    Course Node Leaf Failure (Frontier Node) :=
  (part start).andThen fun result => .done (found.insertAll result.nodes)

/-- Takes away what is found from a start. -/
def withdrawing (start : Frontier Node)
    (part : Frontier Node → Course Node Leaf Failure (Frontier Node)) (found : Frontier Node) :
    Course Node Leaf Failure (Frontier Node) :=
  (part start).andThen fun result => .done (found.removeAll result.nodes)

mutual

/-- The course of a path from a frontier. -/
def path (setting : Setting Node Leaf Failure) :
    Path Leaf → Frontier Node → Course Node Leaf Failure (Frontier Node)
  | .simple steps, start => .inOrder Frontier.isEmpty (steps.zipIdx.map (stepAt setting)) start
  | .union delegates, start =>
      .inOrder (fun _ => start.isEmpty) ((paths setting delegates).map (adding start)) ∅
  | .exclusion base excluded, start =>
      .inOrder Frontier.isEmpty
        (path setting base :: (paths setting excluded).map (withdrawing start)) start
  | .chain links, start => .inOrder Frontier.isEmpty (paths setting links) start
  | .traced _ body, start => path setting body start
  | .stray operand?, _ => .failed (.raised (setting.noPath operand?))

/-- The evaluations of several paths. -/
def paths (setting : Setting Node Leaf Failure) :
    List (Path Leaf) → List (Frontier Node → Course Node Leaf Failure (Frontier Node))
  | [] => []
  | first :: rest => path setting first :: paths setting rest

end

theorem paths_eq_map (setting : Setting Node Leaf Failure) (parts : List (Path Leaf)) :
    paths setting parts = parts.map (path setting) := by
  induction parts with
  | nil => rw [paths, List.map_nil]
  | cons first rest ih => rw [paths, ih, List.map_cons]

section Takes

variable {setting : Setting Node Leaf Failure}

omit [Keyed Node] in
/-- A test asks its leaves in the order of evaluation. -/
theorem test_takes (predicate : Predicate Leaf) (node : Node) :
    (predicate.test setting node).Takes (test setting.answer predicate node) := by
  induction predicate with
  | any => exact .pure _
  | function leaf label =>
      rw [Predicate.test, ← bind_assoc]
      exact (Run.Takes.asked _ _).bind fun _ => .pure _
  | custom leaf className => exact .asked _ _
  | counting counter inner title? ih =>
      have noted : (Run.note (.counted counter node) : Run Node Leaf Failure Unit).Takes
          (.asked (.counted counter node) (.ok ())) := fun _ => ⟨rfl, rfl⟩
      exact noted.bind fun _ => ih
  | negation inner ih => exact ih.bind fun _ => .pure _
  | conjunction left right leftIH rightIH =>
      refine leftIH.bind fun first => ?_
      split
      · exact rightIH.bind fun _ => .pure _
      · exact .pure _
  | disjunction left right leftIH rightIH =>
      refine leftIH.bind fun first => ?_
      split
      · exact .pure _
      · exact rightIH.bind fun _ => .pure _
  | traversal axis inner ih => exact ih
  | foreign object => exact .liftExcept _

/-- A filter tests the nodes in their order. -/
theorem filter_takes (predicate : Predicate Leaf) (frontier : Frontier Node) :
    (frontier.filterRun (predicate.accepts setting)).Takes
      (filter setting.answer predicate frontier) := by
  rw [Frontier.filterRun_eq_sequence]
  refine .sequence (forall₂_map_of_mem ?_) ∅
  intro node _ kept
  rw [Frontier.keeping, Predicate.accepts, map_eq_pure_bind, bind_assoc]
  refine (test_takes predicate node).bind fun value => ?_
  rw [pure_bind]
  split <;> exact .pure _

/-- A relocation asks about the nodes in their order. -/
theorem relocate_takes (axis : Axis) (frontier : Frontier Node) :
    (axis.relocate setting frontier).Takes (relocate setting.host axis frontier) := by
  rw [Axis.relocate_eq_sequence]
  refine .sequence (forall₂_map_of_mem ?_) ∅
  intro inquiry _ found
  exact (Run.Takes.asked _ _).bind fun listed => .pure _

/-- A search that goes deeper relocates and tests by turns. -/
theorem deepen_takes (axis : Axis) (predicate : Predicate Leaf) (moves : Nat)
    (frontier : Frontier Node) :
    (frontier.deepen (axis.relocate setting) axis.deepens (predicate.accepts setting) moves).Takes
      (deepen setting axis predicate moves frontier) := by
  induction moves generalizing frontier with
  | zero => exact .throw _
  | succ moves ih =>
      refine (relocate_takes axis frontier).bind fun arrived => ?_
      split
      · exact .pure _
      · refine (filter_takes predicate arrived).bind fun candidates => ?_
        split
        · exact ih arrived
        · exact .pure _

/-- A step is run as it is evaluated. -/
theorem step_takes (predicate : Predicate Leaf) (frontier : Frontier Node) :
    (predicate.step setting frontier).Takes (step setting predicate frontier) := by
  cases predicate with
  | traversal axis inner => exact deepen_takes axis inner setting.patience frontier
  | any | function | custom | counting | negation | conjunction | disjunction | foreign =>
      exact filter_takes _ frontier

variable (accepts : setting.sink.Accepts)

include accepts

/-- The lines about a step are no part of its course. -/
theorem stepAt_takes (step? : Option (Predicate Leaf)) (index : Nat) (last : Bool)
    (frontier : Frontier Node) :
    (Program.stepPart setting index last step? frontier).Takes
      (stepAt setting (step?, index) frontier) := by
  cases step? with
  | none => exact .throw _
  | some predicate =>
      refine (step_takes predicate frontier).bind fun found => ?_
      rw [Setting.labelOf]
      cases predicate.label with
      | error object => exact .throw_bind _ _
      | ok text =>
          have ends : (pure found : Run Node Leaf Failure (Frontier Node)).Takes (.done found) :=
            .pure found
          rw [pure_bind]
          refine Run.Takes.after_send ?_ accepts _
          split
          · exact ends.after_send accepts .abort
          · exact ends

/-- The steps of a path are run as they are evaluated, each at its place. -/
theorem steps_take (steps : List (Option (Predicate Leaf))) (index : Nat) :
    List.Forall₂ (fun part course => ∀ frontier : Frontier Node,
        (part frontier).Takes (course frontier))
      (Program.stepParts setting index steps) ((steps.zipIdx index).map (stepAt setting)) := by
  induction steps generalizing index with
  | nil => exact .nil
  | cons step? rest ih => exact .cons (stepAt_takes accepts step? index _) (ih (index + 1))

/-- A run of a path takes the course of the path. -/
theorem run_takes (navigated : Path Leaf) (start : Frontier Node) :
    (navigated.run setting start).Takes (path setting navigated start) := by
  induction navigated using Path.induct generalizing start with
  | simple steps =>
      rw [Path.run, Program.simple_eq_sequence]
      exact .sequence (steps_take accepts steps 0) start
  | union delegates ih =>
      rw [Path.run, Program.union_eq_sequence, Path.runs_eq_map, path, paths_eq_map, List.map_map,
        List.map_map]
      refine .sequence (forall₂_map_of_mem ?_) ∅
      exact fun delegate member found => (ih delegate member start).bind fun result => .pure _
  | exclusion base excluded baseIH excludedIH =>
      rw [Path.run, Program.exclusion_eq_sequence, Path.runs_eq_map, path, paths_eq_map,
        List.map_map, List.map_map]
      refine .sequence (.cons baseIH (forall₂_map_of_mem ?_)) start
      intro other member found
      exact ((excludedIH other member start).excluding accepts).bind fun result => .pure _
  | chain links ih =>
      rw [Path.run, Program.chain_eq_sequence, Path.runs_eq_map, path, paths_eq_map]
      exact .sequence (forall₂_map_of_mem ih) start
  | traced title body ih => exact (ih start).traced accepts title
  | stray operand? => exact .throw _

end Takes

end TreeQuery.Evaluation
