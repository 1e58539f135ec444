import TreeQuery.Collections.Query
import TreeQuery.Navigation.Stored

/-! # Navigation that handles collections

A navigation may be run on frontiers as values, or on collections as objects. Here it is the latter:
every step, union and exclusion makes buffers, fills and drains them, and hands one of them out, or
the shared empty collection in place of one without nodes. A chain hands on what it was given, so
its result may be the very object that it started from. Objects may be confused: filling the shared
empty collection is refused, and so is taking the nodes of a buffer out of itself.
-/

namespace TreeQuery

variable {Node Leaf Failure : Type} [Keyed Node] {α : Type}

/-- A computation on collections as objects. It may end with a fault, and it keeps its journal and
what it did to the collections in any case. -/
abbrev Handling (Node Leaf Failure : Type) [Keyed Node] :=
  ExceptT (Fault Failure) (StateM (Journal Node Leaf × Collections Node))

/-- What a path does with a collection: it hands out another one, or perhaps the same. -/
abbrev Handler (Node Leaf Failure : Type) [Keyed Node] := Nat → Handling Node Leaf Failure Nat

namespace Handling

/-- The outcome of a computation, and the journal and the collections that it leaves behind. -/
def perform (handling : Handling Node Leaf Failure α) (journal : Journal Node Leaf)
    (collections : Collections Node) :
    Except (Fault Failure) α × Journal Node Leaf × Collections Node :=
  handling.run.run (journal, collections)

/-- A run that has nothing to do with collections. -/
def ofRun (run : Run Node Leaf Failure α) : Handling Node Leaf Failure α :=
  ExceptT.mk fun (journal, collections) =>
    let (outcome, later) := run.perform journal
    (outcome, later, collections)

/-- The nodes of a collection at present. -/
def read (index : Nat) : Handling Node Leaf Failure (Frontier Node) := do
  return (← get).2.get index

/-- The nodes of an argument at present. -/
def listed (source : NodeSource Node) : Handling Node Leaf Failure (List Node) := do
  return (← get).2.listed source

/-- Makes a new collection. -/
def create (frontier : Frontier Node) : Handling Node Leaf Failure Nat :=
  modifyGet fun (journal, collections) =>
    ((collections.create frontier).2, journal, (collections.create frontier).1)

/-- Adds the nodes of an argument to a collection. -/
def fill (refused : CollectionError → Failure) (buffer : Nat) (source : NodeSource Node) :
    Handling Node Leaf Failure Unit := do
  let (journal, collections) ← get
  match collections.addAll buffer source with
  | .ok (later, _) => set (journal, later)
  | .error cause => throw (.raised (refused cause))

/-- Takes the nodes of an argument out of a collection. -/
def drain (refused : CollectionError → Failure) (buffer : Nat) (source : NodeSource Node) :
    Handling Node Leaf Failure Unit := do
  let (journal, collections) ← get
  let (later, outcome) := collections.removeAll buffer source
  set (journal, later)
  match outcome with
  | .ok _ => pure ()
  | .error cause => throw (.raised (refused cause))

/-- Hands out a buffer, or the shared empty collection in place of a buffer without nodes. -/
def handOut (buffer : Nat) : Handling Node Leaf Failure Nat := do
  if (← read buffer).isEmpty then return Collections.shared else return buffer

/-- All collections at present. -/
def present : Handling Node Leaf Failure (Collections Node) := do
  return (← get).2

/-- Puts other collections in the place of all. -/
def replace (later : Collections Node) : Handling Node Leaf Failure Unit :=
  modify fun (journal, _) => (journal, later)

/-- The nodes of a collection that pass a test, as a result. -/
def filter (accepts : Node → Run Node Leaf Failure Bool) : Handler Node Leaf Failure :=
  fun index => do
    let (later, found) ← ofRun ((← present).filterRun accepts index)
    replace later
    return found

/-- Runs a body and hands its fault over as a value. -/
def attempt (body : Handling Node Leaf Failure α) :
    Handling Node Leaf Failure (Except (Fault Failure) α) :=
  ExceptT.mk (Except.ok <$> body.run)

/-- Runs a body and then a closing run, however the body ended. -/
def ensuring (body : Handling Node Leaf Failure α) (closing : Run Node Leaf Failure Unit) :
    Handling Node Leaf Failure α := do
  let outcome ← attempt body
  ofRun closing
  MonadExcept.ofExcept outcome

/-- A traced section. -/
def traced (sink : Sink Failure) (title : String) (body : Handling Node Leaf Failure α) :
    Handling Node Leaf Failure α := do
  let before ← ofRun Run.isActive
  ofRun (Run.enter sink title)
  ensuring body (Run.leave sink title before)

end Handling

namespace Handler

open Handling

section Steps

variable (refused : CollectionError → Failure)

/-- Fills a new buffer with what is found from each node of a collection, in order. -/
def gather (relocate : Node → Run Node Leaf Failure (List Node)) : Handler Node Leaf Failure :=
  fun index => do
    let buffer ← create ∅
    (← read index).nodes.forM fun node => do
      fill refused buffer (.list (← ofRun (relocate node)))
    return buffer

/-- Moves a collection along an axis. A move to neighbours hands out its buffer as it is. -/
def relocate (setting : Setting Node Leaf Failure) (axis : Axis) : Handler Node Leaf Failure :=
  fun index => match axis with
    | .children | .descendants => do handOut (← gather refused (setting.ask .children) index)
    | .allDescendants => do handOut (← gather refused (setting.ask .descendants) index)
    | .siblings => do handOut (← gather refused (setting.ask .siblings) index)
    | .parent | .ancestors => do handOut (← gather refused (setting.ask .parent) index)
    | .neighbours => gather refused (fun node => do
        let children ← setting.ask .children node
        let parent ← setting.ask .parent node
        pure (children ++ parent)) index

/-- Moves a collection and filters it, again and again if nothing was accepted. -/
def deepen (relocate : Handler Node Leaf Failure) (again : Bool)
    (accepts : Node → Run Node Leaf Failure Bool) : Nat → Handler Node Leaf Failure
  | 0, _ => throw .exhausted
  | moves + 1, index => do
      let arrived ← relocate index
      if (← read arrived).isEmpty then return Collections.shared
      else
        let candidates ← filter accepts arrived
        if (← read candidates).isEmpty && again then deepen relocate again accepts moves arrived
        else return candidates

/-- What a predicate does as a step. -/
def ofStep (setting : Setting Node Leaf Failure) :
    Predicate Leaf → Handler Node Leaf Failure
  | .traversal axis inner =>
      deepen (relocate refused setting axis) axis.deepens (inner.accepts setting)
        setting.patience
  | predicate => filter (predicate.accepts setting)

/-- Runs steps in order, each on the collection that the one before handed out. -/
def runSteps (setting : Setting Node Leaf Failure) :
    Nat → List (Option (Predicate Leaf)) → Handler Node Leaf Failure
  | _, [], current => handOut current
  | index, step? :: rest, current => do
      if (← read current).isEmpty then return Collections.shared
      else match step? with
        | none => throw (.missingStep index)
        | some step =>
            let found ← ofStep refused setting step current
            let label ← ofRun (setting.labelOf step)
            let nodes ← read found
            ofRun (Run.send setting.sink (.step label nodes.size))
            if nodes.isEmpty && !rest.isEmpty then ofRun (Run.send setting.sink .abort)
            runSteps setting (index + 1) rest found

/-- Runs steps in order on a copy of the collection to start from. -/
def simple (setting : Setting Node Leaf Failure) (steps : List (Option (Predicate Leaf))) :
    Handler Node Leaf Failure :=
  fun start => do
    let nodes ← read start
    if nodes.isEmpty then return Collections.shared
    else runSteps refused setting 0 steps (← create nodes)

end Steps

section Composites

variable (refused : CollectionError → Failure)

/-- Fills a buffer with what each delegate hands out. -/
def collect (delegates : List (Handler Node Leaf Failure)) (start buffer : Nat) :
    Handling Node Leaf Failure Unit :=
  delegates.forM fun delegate => do fill refused buffer (.collection (← delegate start))

def union (delegates : List (Handler Node Leaf Failure)) : Handler Node Leaf Failure :=
  fun start => do
    if (← read start).isEmpty then return Collections.shared
    else
      let buffer ← create ∅
      collect refused delegates start buffer
      handOut buffer

/-- Drains a buffer of what each handler hands out, as long as something is left. -/
def withdraw (sink : Sink Failure) (start buffer : Nat) :
    List (Handler Node Leaf Failure) → Handling Node Leaf Failure Nat
  | [] => return buffer
  | handler :: rest => do
      ofRun (Run.send sink .beginExclusion)
      drain refused buffer (.collection (← handler start))
      ofRun (Run.send sink .endExclusion)
      if (← read buffer).isEmpty then return Collections.shared
      else withdraw sink start buffer rest

/-- Drains a copy of what the base hands out. -/
def exclusion (sink : Sink Failure) (base : Handler Node Leaf Failure)
    (excluded : List (Handler Node Leaf Failure)) : Handler Node Leaf Failure :=
  fun start => do
    if (← read start).isEmpty then return Collections.shared
    else
      let nodes ← read (← base start)
      if nodes.isEmpty then return Collections.shared
      else withdraw refused sink start (← create nodes) excluded

/-- Hands each link what the one before handed out, the first what the chain was given. -/
def chain : List (Handler Node Leaf Failure) → Handler Node Leaf Failure
  | [], current => handOut current
  | handler :: rest, current => do
      if (← read current).isEmpty then return Collections.shared
      else chain rest (← handler current)

def entitled (sink : Sink Failure) (title? : Option String) (body : Handler Node Leaf Failure) :
    Handler Node Leaf Failure :=
  match title? with
  | none => body
  | some title => fun start => traced sink title (body start)

def stray (setting : Setting Node Leaf Failure) (operand? : Option (Predicate Leaf)) :
    Handler Node Leaf Failure :=
  fun _ => throw (.raised (setting.noPath operand?))

/-- What a part of a composite does with collections, given what path objects do. -/
def ofPart (setting : Setting Node Leaf Failure) (ofPath : Nat → Handler Node Leaf Failure) :
    PathPart Leaf → Handler Node Leaf Failure
  | .path index => ofPath index
  | .stray operand? => stray setting operand?

def ofShape (setting : Setting Node Leaf Failure)
    (ofPart : PathPart Leaf → Handler Node Leaf Failure) :
    PathShape Leaf → Handler Node Leaf Failure
  | .simple steps => simple refused setting steps
  | .union delegates => union refused (delegates.map ofPart)
  | .exclusion base excluded => exclusion refused setting.sink (ofPart base) (excluded.map ofPart)
  | .chain links => chain (links.map ofPart)

/-- What a path object does with collections. -/
def ofStored (setting : Setting Node Leaf Failure) (store : PathStore Leaf) :
    Nat → Nat → Handler Node Leaf Failure
  | 0, _, _ => throw .exhausted
  | depth + 1, path, start =>
      entitled setting.sink (store.title? path)
        (ofShape refused setting (ofPart setting (ofStored setting store depth))
          (store.shape path)) start

end Composites

/-- Starts a handler on a new collection of the nodes of an argument. -/
def navigate (handler : Handler Node Leaf Failure) (source : NodeSource Node) :
    Handling Node Leaf Failure Nat := do
  handler (← create (Frontier.ofList (← listed source)))

end Handler

end TreeQuery
