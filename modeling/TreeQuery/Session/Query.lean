import TreeQuery.Collections.Query
import TreeQuery.Session.Answer
import TreeQuery.Session.Command
import TreeQuery.Session.Evaluation

/-! # Queries of a session

The commands that put tests to nodes, work with collections, ask adapters and navigate. A navigation
evaluates its configuration and its adapter first. Whatever goes wrong after that is part of its
answer, together with the lines traced until then.
-/

namespace TreeQuery.Session

/-- What a test answers about a node. A predicate is asked, and so is a function where functions
stand for tests. Anything else fails as soon as a node is tested. -/
def askOperand (setting : Setting Value LeafTest Failure) (session : Session)
    (missing : String → Failure) (functionsToo : Bool) (operand : Operand) (node : Value) :
    Run Value LeafTest Failure Value :=
  match operand, functionsToo with
  | .predicate _ test, _ => test.test setting node
  | .object (.function _ host), true =>
      Predicate.test setting (.custom (.function host) host.label) node
  | operand, _ => throw (.raised (missing (session.typeName operand)))

def testNodes (asFunction : Bool) (operand : Operand) (nodes : List Value) : Act (List Value) := do
  let session ← get
  let missing : String → Failure :=
    if asFunction then .notCallable else fun typeName => .noAttribute typeName "test"
  runQuietly .standard fun setting =>
    nodes.mapM (askOperand setting session missing asFunction operand)

/-- Replaces the collections by those that an operation left, and hands its result on. -/
def keeping {α : Type} (result : Collections Value × α) : Act α := do
  modify fun session => { session with collections := result.1 }
  return result.2

/-- The collections after an operation that may be refused. -/
def changing {α : Type} (outcome : Except CollectionError (Collections Value × α)) : Act α :=
  match outcome with
  | .ok result => keeping result
  | .error cause => fail (.collection cause)

/-- The nodes of a collection that pass a test, as a result. -/
def filterCollection (index : Nat) (operand : Operand) : Act Nat := do
  let session ← get
  let found ← runQuietly .standard fun setting =>
    session.collections.filterRun (fun node =>
      Value.truthy <$> askOperand setting session .notCallable true operand node) index
  keeping found

def ensureAdmissible (node : Value) : Act Unit := do
  match (← get).refusal? node with
  | some fault => throw fault
  | none => pure ()

/-- The nodes of an argument before the first that cannot be put into a collection, and the fault of
that one. -/
def admitted (source : NodeSource Value) : Act (Listing Value Failure) := do
  let session ← get
  return .admitted session.refusal? (session.collections.listed source)

/-- Ends with the fault of a listing that broke off, after what was done with the nodes before. -/
def finished {Node α : Type} (listing : Listing Node Failure) (result : α) : Act α :=
  match listing.fault? with
  | some fault => throw fault
  | none => pure result

/-- Adds the nodes of an argument to a collection, up to the first that cannot be put into one. -/
def addAll (index : Nat) (source : NodeSource Value) : Act Bool := do
  let nodes ← admitted source
  if index = Collections.shared then
    changing ((← get).collections.addAll index source)
  else
    finished nodes (← changing ((← get).collections.addAll index (.list nodes.nodes)))

/-- Takes the nodes of an argument out of a collection, up to the first that cannot be in one. Out
of a collection without nodes anything can be taken. -/
def removeAll (index : Nat) (source : NodeSource Value) : Act Bool := do
  let nodes ← admitted source
  let source := if nodes.fault?.isSome then .list nodes.nodes else source
  match ← keeping ((← get).collections.removeAll index source) with
  | .error cause => fail (.collection cause)
  | .ok removed =>
      if ((← get).collections.get index).isEmpty then return removed else finished nodes removed

/-- Puts a collection under a name, if one is given, and tells about it and its names. -/
def answerCollection (index : Nat) (as? : Option String) : Act Answer := do
  match as? with
  | some name => setRegister name (.object (.collection index))
  | none => pure ()
  let session ← get
  return .collectionUnder (session.showCollection index)
    (session.namesOf (.collection index))

/-- A new collection with the nodes of one followed by those of an argument. -/
def unionWith (index : Nat) (source : NodeSource Value) : Act Nat := do
  finished (← admitted source) (← keeping ((← get).collections.union index source))

/-- A new collection with the nodes of one that are not among those of an argument. -/
def differenceFrom (index : Nat) (source : NodeSource Value) : Act Nat := do
  let nodes ← admitted source
  let rest ← keeping ((← get).collections.difference index (.list nodes.nodes))
  if ((← get).collections.get rest).isEmpty then return rest else finished nodes rest

def executeCollection (index : Nat) : CollectionCommand → Act Answer
  | .add tag? => do
      let node ← node tag?
      if index ≠ Collections.shared then ensureAdmissible node
      .truth <$> changing ((← get).collections.add index node)
  | .addAll nodes => do .truth <$> addAll index (← requiredSource nodes)
  | .removeAll nodes => do .truth <$> removeAll index (← requiredSource nodes)
  | .filter predicate as? => do
      answerCollection (← filterCollection index (← evalStep predicate)) as?
  | .union nodes as? => do answerCollection (← unionWith index (← requiredSource nodes)) as?
  | .difference nodes as? => do
      answerCollection (← differenceFrom index (← requiredSource nodes)) as?
  | .contains tag? => do
      let node ← node tag?
      ensureAdmissible node
      return .truth (((← get).collections.get index).contains node)
  | .equals none => pure (.equality false)
  | .equals (some other) => do
      match ← register other with
      | .object (.collection other) =>
          let collections := (← get).collections
          return .equality ((collections.get index).keys == (collections.get other).keys)
      | _ => return .equality false
  | .hash => do fail (.unhashable ((← get).foreignType (.collection index)))
  | .first => do
      let session ← get
      return .node (session.showFirst index)
  | .toList => do
      let session ← get
      return .nodes (session.showNodes (session.collections.get index).nodes)
  | .written => do return .text ((← get).collectionForm index)
  | .state => do
      let session ← get
      return .collectionState (session.showNodes (session.collections.get index).nodes)

/-- Tells about the result of a navigation in the way that was asked for. -/
def viewResult (index : Nat) : ResultView → Act Found
  | .collection as? => do
      match as? with
      | some name => setRegister name (.object (.collection index))
      | none => pure ()
      return .collection ((← get).showCollection index)
  | .first => do
      let session ← get
      return .node (session.showFirst index)
  | .count => do return .count ((← get).collections.get index).size

def runPath (config : Config Operand) (given? : Option Operand) (path : Nat)
    (start : NodeSource Value) : Act (SinkTarget × RunResult (Collections Value × Nat)) := do
  let standard : Operand := .object (.adapter 0 .standard)
  match config.start (← get).provides standard given? with
  | .error (.invalid problems) => fail (.configuration problems)
  | .error .loggerName => fail .loggerName
  | .ok (adapter, target) =>
      let source ← finished (← admitted start) start
      let session ← get
      let setting := session.setting (session.adapterOf adapter) target
      let program := session.paths.program setting patience path
      let result ← runEngine false target (session.collections.navigate program source)
      return (target, result)

/-- The object that keeps the trace lines of a configuration, if there is one. -/
def keeperOf (config : Config Operand) : Option Nat :=
  match config.trace with
  | .options { sink := .sink index, .. } => some index
  | _ => none

/-- The lines that an object has kept so far, if there is an object to keep lines. -/
def keptLines (keeper? : Option Nat) : Act (List Line) := do
  let session ← get
  return (keeper?.map fun index => (session.keeper index).kept).getD []

/-- The operand in the place of an adapter, if it is not nothing. -/
def givenAdapter (adapter : AdapterExpr) : Act (Option Operand) := do
  match ← evalAdapter adapter with
  | .absent => return none
  | operand => return some operand

/-- Navigates and tells what was found or what went wrong, and which lines were traced. -/
def navigate (path : PathExpr) (start : StartExpr) (view : ResultView) (adapter : AdapterExpr)
    (config : ConfigExpr) : Act Answer := do
  let config ← evalConfig "validate" config
  let given? ← givenAdapter adapter
  let keeper? := keeperOf config
  let before ← keptLines keeper?
  let attempted ← attempt do
    let path ← pathFor start.method (← evalPath path)
    runPath config given? path (← optionalSource start.source)
  let (outcome, log) ← match attempted with
    | .error fault => pure (.error fault, [])
    | .ok (target, result) => do
        let outcome ← match result.outcome with
          | .error fault => pure (.error fault)
          | .ok found => do
              let index ← keeping found
              .ok <$> viewResult index view
        pure (outcome, logEntries target result.sent)
  let after ← keptLines keeper?
  return .navigation
    { outcome, trace? := keeper?.map fun _ => after.drop before.length, log }

/-- The truth of an operand: nothing, a false value and a collection without nodes are false. -/
def isTrue (session : Session) : Operand → Bool
  | .absent => false
  | .object (.value value) => value.truthy
  | .object (.collection index) => !(session.collections.get index).isEmpty
  | _ => true

/-- The adapter that an operand stands for where a false operand stands for the standard one. -/
def adapterOrStandard (operand : Operand) : Act Adapter := do
  let session ← get
  return if session.isTrue operand then session.adapterOf operand else .standard

/-- Moves nodes along the axis of a traversal. A traversal to neighbours makes a new collection
even of no nodes. -/
def traverse (operand : Operand) (start : List Value) (adapter : Operand) : Act Answer := do
  let (axis, _) ← traversalFor "traverse" operand
  let start ← frontierOf start
  let found ← runQuietly (← adapterOrStandard adapter) fun setting => axis.relocate setting start
  let collections := (← get).collections
  let index ← keeping (match axis with
    | .neighbours => collections.create found
    | _ => collections.result found)
  return .collection ((← get).showCollection index)

/-- The tally of the counting predicate in a register, which is emptied if that is wanted. -/
def tally (name : String) (reset : Bool) : Act Answer := do
  match ← register name with
  | .predicate _ (.counting counter _ _) =>
      let session ← get
      let seen := ((session.tallies.lookup counter).getD []).reverse
      if reset then set { session with tallies := setEntry counter [] session.tallies }
      return .tally (session.showNodes seen)
  | operand => lacks operand "calls"

def sameOperand : Operand → Operand → Bool
  | .absent, .absent => true
  | .predicate left _, .predicate right _ => left == right
  | .object left, .object right => left.same right
  | _, _ => false

def ask (relation : Relation) (node : Value) (adapter : Operand) : Act Answer := do
  let adapter ← adapterOrStandard adapter
  let session ← get
  let nodes ← MonadExcept.ofExcept ((session.host adapter).related relation node).toExcept
  match relation with
  | .parent => return .node ((nodes.head?.map session.showNode).getD .nothing)
  | _ => return .nodes (session.showNodes nodes)

end TreeQuery.Session
