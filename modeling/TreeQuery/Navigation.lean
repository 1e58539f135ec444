import TreeQuery.Frontier
import TreeQuery.Path
import TreeQuery.Trace
import TreeQuery.Value

/-! # Navigation

A navigation runs a path on a frontier. Steps run in order, and nothing that lies behind an empty
frontier is run at all: neither the later steps of a simple path nor the later links of a chain,
nor the paths still to be excluded once nothing is left. A traversal moves the frontier along its
axis and filters it; when nothing was accepted and its axis deepens, it moves on from where it
arrived until something is accepted or the frontier runs out.

What a path does is a program, a run for each frontier to start from, and the program of a composite
is put together from those of its parts. Everything that can be seen from outside goes through the
journal of the run: each question put to a leaf test, to a counter or to the host, and each line
sent to the sink.
-/

namespace TreeQuery

/-- What a navigation runs in: the tree, the meaning of leaf tests, the sink of trace lines, and
how often a deepening traversal may move on before the navigation is given up. A foreign object that
is due as a test is asked for an answer like a leaf; one that is due under its label and a stray
that is due as a path each fail in a way of their own. -/
structure Setting (Node Leaf Failure : Type) where
  host : Host Node Failure
  answer : Leaf → Node → Except (Fault Failure) Value
  unlabelled : Leaf → Failure
  noPath : Option (Predicate Leaf) → Failure
  sink : Sink Failure
  patience : Nat

variable {Node Leaf Failure : Type}

namespace Predicate

/-- The answer of a predicate about a node. Operands are asked from left to right, and the right
one only when the left one leaves the answer open. -/
def test (setting : Setting Node Leaf Failure) :
    Predicate Leaf → Node → Run Node Leaf Failure Value
  | any, _ => pure (.bool true)
  | function leaf _, node => do
      Run.note (.tested leaf node)
      let answer ← setting.answer leaf node
      pure (.bool answer.truthy)
  | custom leaf _, node => do
      Run.note (.tested leaf node)
      setting.answer leaf node
  | counting counter inner _, node => do
      Run.note (.counted counter node)
      inner.test setting node
  | negation inner, node => do
      let answer ← inner.test setting node
      pure (.bool !answer.truthy)
  | conjunction left right, node => do
      let first ← left.test setting node
      if first.truthy then
        let second ← right.test setting node
        pure (.bool second.truthy)
      else pure (.bool false)
  | disjunction left right, node => do
      let first ← left.test setting node
      if first.truthy then pure (.bool true)
      else
        let second ← right.test setting node
        pure (.bool second.truthy)
  | traversal _ inner, node => inner.test setting node
  | foreign object, node => setting.answer object node

def accepts (setting : Setting Node Leaf Failure) (predicate : Predicate Leaf) (node : Node) :
    Run Node Leaf Failure Bool :=
  Value.truthy <$> predicate.test setting node

end Predicate

/-- Asks the host for the nodes in a relation to a node. -/
def Setting.ask (setting : Setting Node Leaf Failure) (relation : Relation) (node : Node) :
    Run Node Leaf Failure (List Node) := do
  Run.note (.asked relation node)
  (setting.host.related relation node).toExcept

/-- The label under which a step is reported. -/
def Setting.labelOf (setting : Setting Node Leaf Failure) (step : Predicate Leaf) :
    Run Node Leaf Failure String :=
  match step.label with
  | .ok label => pure label
  | .error object => throw (.raised (setting.unlabelled object))

namespace Frontier

variable [Keyed Node]

/-- Tests every node of a frontier in order and keeps the accepted ones. -/
def filterRun (accepts : Node → Run Node Leaf Failure Bool) (frontier : Frontier Node) :
    Run Node Leaf Failure (Frontier Node) := do
  return frontier.select (← frontier.nodes.mapM accepts)

/-- Collects what a relocation finds from each node of a frontier, in order. -/
def gather (relocate : Node → Run Node Leaf Failure (List Node)) (frontier : Frontier Node) :
    Run Node Leaf Failure (Frontier Node) := do
  return ofList (← frontier.nodes.mapM relocate).flatten

/-- Moves a frontier and filters it. When nothing was accepted and the traversal deepens, it moves
on from where it arrived, at most as often as the number allows. -/
def deepen (relocate : Frontier Node → Run Node Leaf Failure (Frontier Node)) (again : Bool)
    (accepts : Node → Run Node Leaf Failure Bool) :
    Nat → Frontier Node → Run Node Leaf Failure (Frontier Node)
  | 0, _ => throw .exhausted
  | moves + 1, frontier => do
      let arrived ← relocate frontier
      if arrived.isEmpty then pure ∅
      else
        let candidates ← arrived.filterRun accepts
        if candidates.isEmpty && again then deepen relocate again accepts moves arrived
        else pure candidates

end Frontier

variable [Keyed Node]

def Axis.relocate (setting : Setting Node Leaf Failure) (axis : Axis) :
    Frontier Node → Run Node Leaf Failure (Frontier Node) :=
  match axis with
  | .children | .descendants => Frontier.gather (setting.ask .children)
  | .allDescendants => Frontier.gather (setting.ask .descendants)
  | .siblings => Frontier.gather (setting.ask .siblings)
  | .parent | .ancestors => Frontier.gather (setting.ask .parent)
  | .neighbours => Frontier.gather fun node => do
      let children ← setting.ask .children node
      let parent ← setting.ask .parent node
      pure (children ++ parent)

/-- Runs a predicate as a step: a traversal moves the frontier and then filters it, and any other
predicate only filters it. -/
def Predicate.step (setting : Setting Node Leaf Failure) :
    Predicate Leaf → Frontier Node → Run Node Leaf Failure (Frontier Node)
  | traversal axis inner, frontier =>
      frontier.deepen (axis.relocate setting) axis.deepens (inner.accepts setting)
        setting.patience
  | predicate, frontier => frontier.filterRun (predicate.accepts setting)

/-- What a path does: a run for each frontier to start from. -/
abbrev Program (Node Leaf Failure : Type) [Keyed Node] :=
  Frontier Node → Run Node Leaf Failure (Frontier Node)

namespace Program

/-- Runs steps in order, counting from the given index, as long as the frontier has nodes. Each
step run is reported, and a frontier that empties before the last step is reported too. -/
def runSteps (setting : Setting Node Leaf Failure) :
    Nat → List (Option (Predicate Leaf)) → Program Node Leaf Failure
  | _, [], frontier => pure frontier
  | index, step? :: rest, frontier => do
      if frontier.isEmpty then pure ∅
      else match step? with
        | none => throw (.missingStep index)
        | some step =>
            let found ← step.step setting frontier
            let label ← setting.labelOf step
            Run.send setting.sink (.step label found.size)
            if found.isEmpty && !rest.isEmpty then Run.send setting.sink .abort
            runSteps setting (index + 1) rest found

/-- Runs steps in order, unless there is no node to start from. -/
def simple (setting : Setting Node Leaf Failure) (steps : List (Option (Predicate Leaf))) :
    Program Node Leaf Failure :=
  fun start => if start.isEmpty then pure ∅ else runSteps setting 0 steps start

/-- Adds the results of several programs on one start to what was found before. -/
def collect : List (Program Node Leaf Failure) → Frontier Node → Program Node Leaf Failure
  | [], _, found => pure found
  | program :: rest, start, found => do
      let result ← program start
      collect rest start (found.insertAll result.nodes)

def union (delegates : List (Program Node Leaf Failure)) : Program Node Leaf Failure :=
  fun start => if start.isEmpty then pure ∅ else collect delegates start ∅

/-- Takes the results of several programs on one start out of what was found before, as long as
something is left. -/
def withdraw (sink : Sink Failure) :
    List (Program Node Leaf Failure) → Frontier Node → Program Node Leaf Failure
  | [], _, found => pure found
  | program :: rest, start, found => do
      Run.send sink .beginExclusion
      let result ← program start
      Run.send sink .endExclusion
      let left := found.removeAll result.nodes
      if left.isEmpty then pure ∅ else withdraw sink rest start left

/-- Takes the results of several programs out of the result of another on the same start. -/
def exclusion (sink : Sink Failure) (base : Program Node Leaf Failure)
    (excluded : List (Program Node Leaf Failure)) : Program Node Leaf Failure :=
  fun start => do
    if start.isEmpty then pure ∅
    else
      let found ← base start
      if found.isEmpty then pure ∅ else withdraw sink excluded start found

/-- Runs each program on the result of the one before, as long as there are nodes. -/
def chain : List (Program Node Leaf Failure) → Program Node Leaf Failure
  | [], frontier => pure frontier
  | program :: rest, frontier => do
      if frontier.isEmpty then pure ∅
      else
        let found ← program frontier
        chain rest found

/-- Runs a program as a section traced under a title, if there is one. -/
def entitled (sink : Sink Failure) (title? : Option String) (body : Program Node Leaf Failure) :
    Program Node Leaf Failure :=
  match title? with
  | none => body
  | some title => fun start => Run.traced sink title (body start)

/-- Fails, since a stray is no path. -/
def stray (setting : Setting Node Leaf Failure) (operand? : Option (Predicate Leaf)) :
    Program Node Leaf Failure :=
  fun _ => throw (.raised (setting.noPath operand?))

end Program

namespace Path

mutual

def run (setting : Setting Node Leaf Failure) : Path Leaf → Program Node Leaf Failure
  | simple steps => .simple setting steps
  | union delegates => .union (runs setting delegates)
  | exclusion base excluded =>
      .exclusion setting.sink (run setting base) (runs setting excluded)
  | chain links => .chain (runs setting links)
  | traced title body => .entitled setting.sink (some title) (run setting body)
  | stray operand? => .stray setting operand?

def runs (setting : Setting Node Leaf Failure) : List (Path Leaf) → List (Program Node Leaf Failure)
  | [] => []
  | path :: rest => run setting path :: runs setting rest

end

theorem runs_eq_map (setting : Setting Node Leaf Failure) (paths : List (Path Leaf)) :
    runs setting paths = paths.map (run setting) := by
  induction paths with
  | nil => rw [runs, List.map_nil]
  | cons path rest ih => rw [runs, ih, List.map_cons]

def navigate (setting : Setting Node Leaf Failure) (path : Path Leaf) (start : List Node) :
    Run Node Leaf Failure (Frontier Node) :=
  path.run setting (Frontier.ofList start)

end Path

end TreeQuery
