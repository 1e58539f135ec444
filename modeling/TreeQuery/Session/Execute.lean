import TreeQuery.Session.Build
import TreeQuery.Session.Query
import TreeQuery.Session.Tracing

/-! # Executing commands

Commands run in order. A command that fails is answered by its failure, and the session goes on
with everything that was done before the failure.
-/

namespace TreeQuery.Session

/-- Tells about a node. -/
def answerInfo (node : Value) : Act Answer := do
  return (← get).showInfo node

/-- A member and its descendants, unless the walk comes to an object from outside the forest. -/
def walk (index : Nat) : Act (Listing Nat Failure) := do
  let world := (← get).world
  let listing := world.forest.walk index
  let fault? := listing.fault?.map <| Fault.map fun stranger =>
    .noAttribute (world.objectType stranger) "walk"
  return ⟨listing.nodes, fault?⟩

/-- Puts a path under a name and tells about it. A path that nothing can be told about does not get
the name. -/
def answerPath (as : String) (path : Operand) : Act Answer := do
  let index ← pathFor "name" path
  let registers := (← get).registers
  setRegister as path
  match ← attempt (showPath index) with
  | .ok answer => return .path answer
  | .error fault =>
      modify fun session => { session with registers }
      throw fault

/-- Carries out an instruction and answers it. -/
def execute : Instruction → Act Answer
  | .plant as name kind identifier? children attributes => do
      let children ← children.mapM node
      let member ←
        plantMember as (← newObject name) (← newObject kind) identifier? attributes children
      answerInfo ((← get).world.member member)
  | .tree tree => do return .identifier (← identifierOf (← plantTree tree))
  | .chain as length kind => do
      return .lastIdentifier (← identifierOf (← plantChain as length kind))
  | .wide as fanout depth => do
      return .lastIdentifier (← identifierOf (← plantLevels as fanout depth))
  | .box as => do
      let _ ← putThing as ⟨.box as, []⟩
      return .done
  | .bare as identifier customKey? => do
      let _ ← putThing as ⟨.bare identifier customKey?, []⟩
      return .done
  | .set tag? attributes => do
      setAttributes (← node tag?) attributes
      return .done
  | .info tag? => do answerInfo (← node tag?)
  | .addChild tag? child? => do
      let parent ← memberFor "add_child" (← node tag?)
      let child ← node child?
      attachChild parent child
      return .node ((← get).showNode child)
  | .walk tag? => do
      let index ← memberFor "walk" (← node tag?)
      let listing ← walk index
      let session ← get
      finished listing (.nodes (session.showNodes (listing.nodes.map session.world.member)))
  | .find tag? name => do
      let index ← memberFor "find" (← node tag?)
      let listing ← walk index
      let session ← get
      let found? ← MonadExcept.ofExcept (listing.find? (session.world.forest.isCalled name))
      return .node ((found?.map fun found =>
        session.showNode (session.world.member found)).getD .nothing)
  | .compare left? right? => do
      let left ← node left?
      let right ← node right?
      let equal := (← get).world.equalNodes left right
      return .comparison equal equal (left.key == right.key)
  | .parse as tree fromSource => do
      let root ← buildField fromSource false tree
      setRegister as (← newAdapter ((← get).world.parsedTree root))
      return .root ((← get).showNode root)
  | .syntaxName tag? => do
      let node ← node tag?
      return .optionalText ((← get).world.syntaxName? node)
  | .predicate as expression => do
      let operand ← evalStep expression
      let answer ← showOperand operand
      setRegister as operand
      return answer
  | .test predicate nodes asFunction => do
      let operand ← evalStep predicate
      .values <$> testNodes asFunction operand (← evalNodes nodes)
  | .samePredicate left right => do
      let left ← evalStep left
      return .truth (sameOperand left (← evalStep right))
  | .counter name reset => tally name reset
  | .traverse predicate nodes adapter => do
      let operand ← evalStep predicate
      let start ← evalNodes nodes
      traverse operand start (← evalAdapter adapter)
  | .adapter as expression => do
      setRegister as (← evalAdapter expression)
      return .done
  | .ask relation tag? adapter => do
      let node ← node tag?
      ask relation node (← evalAdapter adapter)
  | .collect as nodes => do
      let frontier ← frontierOf (← evalNodes nodes)
      let index ← keeping ((← get).collections.create frontier)
      setRegister as (.object (.collection index))
      return .collection ((← get).showCollection index)
  | .collection name command => do
      executeCollection (← collectionFor command.method (← register name)) command
  | .path as expression => do answerPath as (← evalPath expression)
  | .describe name => do .path <$> showPath (← pathFor "name" (← register name))
  | .navigate path start view adapter config => navigate path start view adapter config
  | .config as expression => do
      let config ← evalConfig "validate" expression
      setRegister as (← newConfig config)
      return .config ((← get).showConfig config)
  | .defaultConfig => do return .config ((← get).showConfig {})
  | .log config line => do logLine (← evalConfig "trace" config) line
  | .context as active sink => newContext as active sink
  | .message name template arguments => do
      sendMessage (← contextFor "message" (← register name)) template arguments
  | .step name label count => do
      sendStep (← contextFor "step" (← register name)) label count

/-- The answer to a part of a session, which is its failure if it fails. -/
def answered (action : Act Answer) : StateM Session Answer := do
  match ← action.run with
  | .ok answer => pure answer
  | .error fault => pure (.failed fault)

mutual

def run : Command → StateM Session Answer
  | .instruction instruction => answered (execute instruction)
  | .tracing name title body raise? => answered do
      let index ← contextFor "tracing" (← register name)
      let before := (← contextAt index).active
      let title := (← get).world.shown title
      match ← enterSection index title with
      | .error fault => return .tracing none (some fault) (← contextState index)
      | .ok entered =>
          let answers ← runAll body
          let fault? := raise?.map fun kind => .raised (.host kind "body failure")
          let (fault?, exit) ← leaveSection index title before fault?
          return .tracing (some (entered, answers)) fault? exit

/-- The answers to commands in order. A command that fails does not keep the next from running. -/
def runAll : List Command → StateM Session (List Answer)
  | [] => pure []
  | command :: rest => do
      let answer ← run command
      return answer :: (← runAll rest)

end

/-- The answers to the commands of a session that starts with nothing. -/
def answers (commands : List Command) : List Answer :=
  ((runAll commands).run {}).1

end TreeQuery.Session
