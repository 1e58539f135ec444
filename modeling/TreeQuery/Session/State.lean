import TreeQuery.LeafTest
import TreeQuery.Navigation.Stored

/-! # The state of a session

A session keeps host objects under tags and everything else under the names of one table of
registers. Predicates, paths, collections, sinks and contexts are objects that several registers may
share. What runs in a session goes through the journal of a run; afterwards the lines belong to the
sink and the questions to counters are added to their tallies.
-/

namespace TreeQuery

/-- What a register holds and what may stand in the place of a step: nothing, a predicate with an
identity, or an object that is no predicate. -/
inductive Operand where
  | absent
  | predicate (identity : Nat) (predicate : Predicate LeafTest)
  | object (object : Foreign)
  deriving Repr

namespace Operand

/-- What an operand is in the place of a predicate, unless it is nothing. -/
def predicate? : Operand → Option (Predicate LeafTest)
  | .absent => none
  | .predicate _ test => some test
  | .object thing => some (.foreign (.foreign thing))

/-- What an operand is as a part of a composite: a path, or a stray if it is none. -/
def part : Operand → PathPart LeafTest
  | .object (.path index) => .path index
  | operand => .stray operand.predicate?

end Operand

/-- An object that takes trace lines. It may refuse the line with a certain number, and it keeps all
others. -/
structure LineKeeper where
  refusedNumber? : Option Int := none
  received : List Line := []
  deriving Repr

namespace LineKeeper

/-- Whether a keeper refuses a line, in view of the lines before it. -/
def sink (keeper : LineKeeper) : Sink Failure := fun earlier _ =>
  if keeper.refusedNumber? = some (earlier.length + 1 : Int) then some .sinkRefused else none

/-- The lines that a keeper kept, in the order in which they came. -/
def kept (keeper : LineKeeper) : List Line :=
  (keeper.received.reverse.zipIdx 1).filterMap fun (line, number) =>
    if keeper.refusedNumber? = some (number : Int) then none else some line

end LineKeeper

/-- A context in which trace output may be on. The number counts the lines reported so far. -/
structure Context where
  active : Bool
  target : SinkTarget
  reported : Nat := 0
  deriving Repr

structure LogEntry where
  logger : String
  level : Int
  line : Line
  deriving Repr

/-- Everything that a session knows. Counters are numbered, and the nodes seen by one stand latest
first. -/
structure Session where
  world : World := {}
  tags : List (String × Value) := []
  shownTags : Index Place String := .withRoom 4096
  registers : List (String × Operand) := [("EMPTY", .object (.collection Collections.shared))]
  collections : Collections Value := {}
  paths : PathStore LeafTest := {}
  configs : Array (Config Operand) := #[]
  nextIdentity : Nat := 16
  tallies : List (Nat × List Value) := []
  keepers : Array LineKeeper := #[]
  contexts : Array Context := #[]

/-- A part of a session, which may fail. What was done before a failure stays done. -/
abbrev Act := ExceptT (Fault Failure) (StateM Session)

namespace Session

def fail {α : Type} (failure : Failure) : Act α :=
  throw (.raised failure)

def lift {α : Type} : Except Failure α → Act α
  | .ok value => pure value
  | .error failure => fail failure

/-- Runs a part of a session and hands its fault over as a value. -/
def attempt {α : Type} (action : Act α) : Act (Except (Fault Failure) α) :=
  ExceptT.mk (Except.ok <$> action.run)

/-- The node with a given tag, or nothing if no tag is given. -/
def node (tag? : Option String) : Act Value := do
  match tag? with
  | none => pure .null
  | some tag => match (← get).tags.lookup tag with
      | some node => pure node
      | none => fail (.unknownName tag)

def bindTag (tag : String) (node : Value) : Act Unit :=
  modify fun session => { session with
    tags := (tag, node) :: session.tags
    shownTags := match node.place? with
      | some place =>
          if session.shownTags.contains place then session.shownTags
          else session.shownTags.insert place tag
      | none => session.shownTags }

def register (name : String) : Act Operand := do
  match (← get).registers.lookup name with
  | some content => pure content
  | none => fail (.unknownName name)

def setRegister (name : String) (content : Operand) : Act Unit :=
  modify fun session => { session with registers := setEntry name content session.registers }

def freshIdentity : Act Nat := do
  let session ← get
  set { session with nextIdentity := session.nextIdentity + 1 }
  return session.nextIdentity

/-- A value as an object of its own, unless there is one object of it only. -/
def newObject (value : Value) : Act Value := do
  return value.owned (.occurrence (← freshIdentity))

def foreignType (session : Session) : Foreign → String
  | .function _ _ => "function"
  | .path index => (session.paths.shape index).className
  | .collection index =>
      if index = Collections.shared then "_EmptyNodeCollection" else "NodeCollection"
  | .adapter _ adapter => adapter.typeName
  | .config _ => "PathConfig"
  | .context _ => "NavigationContext"
  | .value value => session.world.typeName value

def typeName (session : Session) : Operand → String
  | .absent => "NoneType"
  | .predicate _ predicate => predicate.className
  | .object object => session.foreignType object

/-- The failure of an operand that lacks a wanted attribute. -/
def lacks {α : Type} (operand : Operand) (wanted : String) : Act α := do
  fail (.noAttribute ((← get).typeName operand) wanted)

/-- The collection that an operand is. Anything else lacks the attribute that was wanted of it. -/
def collectionFor (wanted : String) : Operand → Act Nat
  | .object (.collection index) => pure index
  | operand => lacks operand wanted

/-- The path that an operand is. Anything else lacks the attribute that was wanted of it. -/
def pathFor (wanted : String) : Operand → Act Nat
  | .object (.path index) => pure index
  | operand => lacks operand wanted

/-- The context that an operand is. Anything else lacks the attribute that was wanted of it. -/
def contextFor (wanted : String) : Operand → Act Nat
  | .object (.context index) => pure index
  | operand => lacks operand wanted

/-- The names of the registers that hold a given object, in the order of code points. -/
def namesOf (session : Session) (object : Foreign) : List String :=
  ((session.registers.filter fun entry => match entry.2 with
    | .object other => other.same object
    | _ => false).map Prod.fst).mergeSort fun left right => decide (left ≤ right)

def addKeeper (keeper : LineKeeper) : Act Nat := do
  let session ← get
  set { session with keepers := session.keepers.push keeper }
  return session.keepers.size

def keeper (session : Session) (index : Nat) : LineKeeper :=
  session.keepers[index]?.getD {}

/-- The sink that a target stands for. A logger takes every line, but only at a level that is a
whole number. -/
def sink (session : Session) : SinkTarget → Sink Failure
  | .sink index => (session.keeper index).sink
  | .logger _ level => fun _ _ => if level.int?.isSome then none else some .logLevel
  | .unusable value => fun _ _ => some (.notCallable (session.world.typeName value))

/-- The lines that a target got before, latest first. -/
def earlierLines (session : Session) : SinkTarget → List Line
  | .sink index => (session.keeper index).received
  | _ => []

/-- Adds the questions that a run put to counters to their tallies. Calls stand latest first. -/
def addCalls (tallies : List (Nat × List Value)) (calls : List (Call Value LeafTest)) :
    List (Nat × List Value) :=
  calls.reverse.foldl (fun tallies call => match call with
    | .counted counter node =>
        setEntry counter (node :: (tallies.lookup counter).getD []) tallies
    | _ => tallies) tallies

/-- What a run of the engine left behind: its outcome, whether trace output is on, and the lines it
sent, in order. -/
structure RunResult (α : Type) where
  outcome : Except (Fault Failure) α
  active : Bool
  sent : List Line

/-- Runs a computation of the engine with trace output on or off and its lines going to a target. -/
def runEngine {α : Type} (active : Bool) (target : SinkTarget)
    (computation : Run Value LeafTest Failure α) : Act (RunResult α) := do
  let session ← get
  let earlier := session.earlierLines target
  let (outcome, journal) := computation.perform { active, lines := earlier, calls := [] }
  set { session with
    tallies := addCalls session.tallies journal.calls
    keepers := match target with
      | .sink index => session.keepers.modify index fun keeper =>
          { keeper with received := journal.lines }
      | _ => session.keepers }
  let sent := (journal.lines.take (journal.lines.length - earlier.length)).reverse
  return ⟨outcome, journal.active, sent⟩

/-- How many moves a search in a session may make before it is given up. -/
def patience : Nat := 1000000000000

/-- What serves as an adapter when an operand stands in the place of one. -/
def adapterOf (session : Session) : Operand → Adapter
  | .object (.adapter _ adapter) => adapter
  | operand => .limited (session.typeName operand) []

def host (session : Session) (adapter : Adapter) : Host Value Failure :=
  session.world.host patience adapter

/-- The fault of a node that cannot be put into a frontier, if it cannot. A key of its own choice
has to be one that can be hashed. -/
def refusal? (session : Session) (node : Value) : Option (Fault Failure) :=
  (session.world.unhashableKey? node).map fun typeName => .raised (.unhashable typeName)

/-- The failure of a leaf whose label is wanted. -/
def unlabelled (session : Session) (leaf : LeafTest) : Failure :=
  .noAttribute ((leaf.foreign?.map session.foreignType).getD "object") "label"

/-- The type name of a predicate or a foreign object that stands in a path, or of nothing. -/
def strayType (session : Session) : Option (Predicate LeafTest) → String
  | none => "NoneType"
  | some (.foreign (.foreign object)) => session.foreignType object
  | some predicate => predicate.className

def setting (session : Session) (adapter : Adapter) (target : SinkTarget) :
    Setting Value LeafTest Failure where
  host := (session.host adapter).guarded session.refusal?
  answer leaf node := match leaf.answer session.world session.foreignType node with
    | .ok answer => .ok answer
    | .error failure => .error (.raised failure)
  unlabelled := session.unlabelled
  noPath operand? := .noAttribute (session.strayType operand?) "_run"
  sink := session.sink target
  patience

/-- The frontier of the nodes of a list, unless one of them cannot be put into it. -/
def frontierOf (nodes : List Value) : Act (Frontier Value) := do
  let session ← get
  let admitted := Listing.admitted session.refusal? nodes
  .ofList <$> MonadExcept.ofExcept admitted.toExcept

/-- Runs a computation of the engine that traces nothing, and passes its fault on. -/
def runQuietly {α : Type} (adapter : Adapter)
    (computation : Setting Value LeafTest Failure → Run Value LeafTest Failure α) : Act α := do
  let session ← get
  let target : SinkTarget := .unusable .null
  let result ← runEngine false target (computation (session.setting adapter target))
  MonadExcept.ofExcept result.outcome

/-- The lines that loggers record: those at a level above zero. -/
def logEntries (target : SinkTarget) (sent : List Line) : List LogEntry :=
  match target with
  | .logger name level => match level.int? with
      | some level => if 0 < level then sent.map fun line => ⟨name, level, line⟩ else []
      | none => []
  | _ => []

end Session

end TreeQuery
