import Mathlib.Data.List.Forall2
import TreeQuery.Navigation
import TreeQuery.Proofs.Path.Titles
import TreeQuery.Proofs.Run.Congruence

/-! # Navigations are related part by part

A relation between runs that parts hand on to wholes holds between the navigations along a path and
along the same path without its titles, with two sinks, as soon as it stands up to the lines sent
and to titles (`TreeQuery.Run.TraceCongruence.run_untraced`).
-/

namespace TreeQuery

variable {Node Leaf Failure : Type}

/-- The same setting with another sink. -/
def Setting.reporting (setting : Setting Node Leaf Failure) (sink : Sink Failure) :
    Setting Node Leaf Failure :=
  { setting with sink := sink }

namespace Run

variable {relates : ∀ ⦃α : Type⦄, Run Node Leaf Failure α → Run Node Leaf Failure α → Prop}

namespace Congruence

variable (congruent : Congruence relates) (setting : Setting Node Leaf Failure)
  (first second : Sink Failure)

include congruent

/-- A test has nothing to do with the sink, whatever the predicate is made of. -/
theorem test (predicate : Predicate Leaf) (node : Node) :
    relates (predicate.test (setting.reporting first) node)
      (predicate.test (setting.reporting second) node) := by
  induction predicate with
  | any => exact congruent.pure _
  | function leaf label =>
      rw [Predicate.test, Predicate.test]
      apply congruent.bind (congruent.note _)
      intro _
      exact congruent.bind (congruent.liftExcept _) fun _ => congruent.pure _
  | custom leaf className =>
      rw [Predicate.test, Predicate.test]
      exact congruent.bind (congruent.note _) fun _ => congruent.liftExcept _
  | counting counter inner title? ih =>
      rw [Predicate.test, Predicate.test]
      exact congruent.bind (congruent.note _) fun _ => ih
  | negation inner ih =>
      rw [Predicate.test, Predicate.test]
      exact congruent.bind ih fun _ => congruent.pure _
  | conjunction left right leftIH rightIH =>
      rw [Predicate.test, Predicate.test]
      apply congruent.bind leftIH
      intro answer
      split
      · exact congruent.bind rightIH fun _ => congruent.pure _
      · exact congruent.pure _
  | disjunction left right leftIH rightIH =>
      rw [Predicate.test, Predicate.test]
      apply congruent.bind leftIH
      intro answer
      split
      · exact congruent.pure _
      · exact congruent.bind rightIH fun _ => congruent.pure _
  | traversal axis inner ih =>
      rw [Predicate.test, Predicate.test]
      exact ih
  | foreign object =>
      rw [Predicate.test, Predicate.test]
      exact congruent.liftExcept _

/-- The Boolean value of a test has nothing to do with the sink. -/
theorem accepts (predicate : Predicate Leaf) (node : Node) :
    relates (predicate.accepts (setting.reporting first) node)
      (predicate.accepts (setting.reporting second) node) :=
  congruent.map _ (congruent.test setting first second predicate node)

/-- A relation is asked of the host, which knows no sink. -/
theorem ask (relation : Relation) (node : Node) :
    relates ((setting.reporting first).ask relation node)
      ((setting.reporting second).ask relation node) := by
  rw [Setting.ask, Setting.ask]
  exact congruent.bind (congruent.note _) fun _ => congruent.liftExcept _

theorem labelOf (step : Predicate Leaf) :
    relates ((setting.reporting first).labelOf step) ((setting.reporting second).labelOf step) := by
  rw [Setting.labelOf, Setting.labelOf]
  cases step.label with
  | ok label => exact congruent.pure _
  | error object => exact congruent.throw _

variable [Keyed Node]

/-- Nodes are filtered alike if each of them is tested alike. -/
theorem filterRun {left right : Node → Run Node Leaf Failure Bool}
    (related : ∀ node, relates (left node) (right node)) (frontier : Frontier Node) :
    relates (frontier.filterRun left) (frontier.filterRun right) := by
  rw [Frontier.filterRun, Frontier.filterRun]
  exact congruent.bind (congruent.mapM related _) fun _ => congruent.pure _

/-- Nodes are gathered alike if each of them is relocated alike. -/
theorem gather {left right : Node → Run Node Leaf Failure (List Node)}
    (related : ∀ node, relates (left node) (right node)) (frontier : Frontier Node) :
    relates (frontier.gather left) (frontier.gather right) := by
  rw [Frontier.gather, Frontier.gather]
  exact congruent.bind (congruent.mapM related _) fun _ => congruent.pure _

/-- A search that goes deeper takes the same rounds if it relocates and tests alike. -/
theorem deepen {left right : Frontier Node → Run Node Leaf Failure (Frontier Node)}
    {asks wonders : Node → Run Node Leaf Failure Bool} (again : Bool)
    (relocates : ∀ frontier, relates (left frontier) (right frontier))
    (decides : ∀ node, relates (asks node) (wonders node)) (moves : Nat)
    (frontier : Frontier Node) :
    relates (Frontier.deepen left again asks moves frontier)
      (Frontier.deepen right again wonders moves frontier) := by
  induction moves generalizing frontier with
  | zero => exact congruent.throw _
  | succ moves ih =>
      rw [Frontier.deepen, Frontier.deepen]
      apply congruent.bind (relocates frontier)
      intro arrived
      split
      · exact congruent.pure _
      · apply congruent.bind (congruent.filterRun decides arrived)
        intro candidates
        split
        · exact ih arrived
        · exact congruent.pure _

/-- Relocating along an axis only asks the host for relations. -/
theorem relocate (axis : Axis) (frontier : Frontier Node) :
    relates (axis.relocate (setting.reporting first) frontier)
      (axis.relocate (setting.reporting second) frontier) := by
  have asks := congruent.ask setting first second
  cases axis with
  | neighbours =>
      apply congruent.gather
      intro node
      apply congruent.bind (asks .children node)
      intro children
      exact congruent.bind (asks .parent node) fun _ => congruent.pure _
  | children | descendants => exact congruent.gather (asks .children) frontier
  | allDescendants => exact congruent.gather (asks .descendants) frontier
  | siblings => exact congruent.gather (asks .siblings) frontier
  | parent | ancestors => exact congruent.gather (asks .parent) frontier

/-- A step neither sends lines nor has a title. -/
theorem step (step : Predicate Leaf) (frontier : Frontier Node) :
    relates (step.step (setting.reporting first) frontier)
      (step.step (setting.reporting second) frontier) := by
  cases step with
  | traversal axis inner =>
      apply congruent.deepen
      · exact congruent.relocate setting first second axis
      · exact congruent.accepts setting first second inner
  | _ => exact congruent.filterRun (congruent.accepts setting first second _) frontier

end Congruence

end Run

variable [Keyed Node]

/-- Programs whose runs are related, from whatever frontier. -/
def Program.Related
    (relates : ∀ ⦃α : Type⦄, Run Node Leaf Failure α → Run Node Leaf Failure α → Prop)
    (left right : Program Node Leaf Failure) : Prop :=
  ∀ start, relates (left start) (right start)

/-- Withdrawing the results of a program runs it between the lines of an exclusion. -/
theorem Program.withdraw_cons (sink : Sink Failure) (program : Program Node Leaf Failure)
    (rest : List (Program Node Leaf Failure)) (start found : Frontier Node) :
    withdraw sink (program :: rest) start found =
      Run.excluding sink (program start) >>= fun result =>
        if (found.removeAll result.nodes).isEmpty then pure ∅
        else withdraw sink rest start (found.removeAll result.nodes) := by
  simp only [withdraw, Run.excluding, bind_assoc, pure_bind]

namespace Run.TraceCongruence

open Program (Related)

variable {relates : ∀ ⦃α : Type⦄, Run Node Leaf Failure α → Run Node Leaf Failure α → Prop}
  {first second : Sink Failure} {names : String → String}
  (congruent : TraceCongruence relates first second names) (setting : Setting Node Leaf Failure)

include congruent

/-- What a simple path does apart from its titles is a chain of steps. -/
theorem runSteps (steps : List (Option (Predicate Leaf))) (index : Nat) :
    Related relates (Program.runSteps (setting.reporting first) index steps)
      (Program.runSteps (setting.reporting second) index steps) := by
  induction steps generalizing index with
  | nil => exact fun frontier => congruent.pure frontier
  | cons step? rest ih =>
      intro frontier
      cases step? with
      | none =>
          rw [Program.runSteps, Program.runSteps]
          split
          · exact congruent.pure _
          · exact congruent.throw _
      | some step =>
          rw [Program.runSteps, Program.runSteps]
          split
          · exact congruent.pure _
          · apply congruent.bind (congruent.toCongruence.step setting first second step frontier)
            intro found
            apply congruent.bind (congruent.labelOf setting first second step)
            intro label
            apply congruent.bind (congruent.step label found.size)
            intro _
            dsimp only
            split
            · exact congruent.bind congruent.abort fun _ => ih (index + 1) found
            · exact ih (index + 1) found

/-- The alternatives of a union are collected alike if each of them is. -/
theorem collect {left right : List (Program Node Leaf Failure)}
    (related : List.Forall₂ (Related relates) left right) (start found : Frontier Node) :
    relates (Program.collect left start found) (Program.collect right start found) := by
  induction related generalizing found with
  | nil => exact congruent.pure found
  | cons head _ ih =>
      rw [Program.collect, Program.collect]
      exact congruent.bind (head start) fun result => ih (found.insertAll result.nodes)

/-- The lines that an exclusion sends are related along with its paths. -/
theorem withdraw {left right : List (Program Node Leaf Failure)}
    (related : List.Forall₂ (Related relates) left right) (start found : Frontier Node) :
    relates (Program.withdraw first left start found)
      (Program.withdraw second right start found) := by
  induction related generalizing found with
  | nil => exact congruent.pure found
  | cons head _ ih =>
      rw [Program.withdraw_cons, Program.withdraw_cons]
      apply congruent.bind (congruent.excluding (head start))
      intro result
      split
      · exact congruent.pure ∅
      · exact ih (found.removeAll result.nodes)

/-- Paths in a chain start alike, since those before them ended alike. -/
theorem chain {left right : List (Program Node Leaf Failure)}
    (related : List.Forall₂ (Related relates) left right) :
    Related relates (Program.chain left) (Program.chain right) := by
  induction related with
  | nil => exact fun frontier => congruent.pure frontier
  | cons head _ ih =>
      intro frontier
      rw [Program.chain, Program.chain]
      split
      · exact congruent.pure ∅
      · exact congruent.bind (head frontier) ih

omit congruent in
/-- The programs of several paths are related when those of each are. -/
theorem runs {paths : List (Path Leaf)}
    (related : ∀ path ∈ paths, Related relates
      ((path.retitled names).run (setting.reporting first))
      (path.untraced.run (setting.reporting second))) :
    List.Forall₂ (Related relates)
      (Path.runs (setting.reporting first) (Path.retitledAll names paths))
      (Path.runs (setting.reporting second) (Path.untracedAll paths)) := by
  induction paths with
  | nil => exact .nil
  | cons path rest ih =>
      rw [Path.retitledAll, Path.untracedAll, Path.runs, Path.runs]
      apply List.Forall₂.cons
      · exact related path List.mem_cons_self
      · exact ih fun other member => related other (List.mem_cons_of_mem _ member)

/-- The run of a path under other titles is related to the run of the path without titles. -/
theorem run_untraced (path : Path Leaf) :
    Related relates ((path.retitled names).run (setting.reporting first))
      (path.untraced.run (setting.reporting second)) := by
  induction path using Path.induct with
  | simple steps =>
      intro start
      rw [Path.retitled, Path.untraced, Path.run, Path.run, Program.simple, Program.simple]
      split
      · exact congruent.pure ∅
      · exact congruent.runSteps setting steps 0 start
  | union delegates ih =>
      intro start
      rw [Path.retitled, Path.untraced, Path.run, Path.run, Program.union, Program.union]
      split
      · exact congruent.pure ∅
      · exact congruent.collect (runs setting ih) start ∅
  | exclusion base excluded baseIH excludedIH =>
      intro start
      rw [Path.retitled, Path.untraced, Path.run, Path.run, Program.exclusion, Program.exclusion]
      split
      · exact congruent.pure ∅
      · apply congruent.bind (baseIH start)
        intro found
        split
        · exact congruent.pure ∅
        · exact congruent.withdraw (runs setting excludedIH) start found
  | chain links ih =>
      rw [Path.retitled, Path.untraced, Path.run, Path.run]
      exact congruent.chain (runs setting ih)
  | traced title body ih =>
      intro start
      rw [Path.retitled, Path.untraced, Path.run]
      exact congruent.traced title (ih start)
  | stray operand? => exact fun start => congruent.throw _

end Run.TraceCongruence

end TreeQuery
