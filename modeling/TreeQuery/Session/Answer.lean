import TreeQuery.Session.Forms

/-! # Answers of a session

Each command is answered. Nodes are shown by their tags; an object that has none is shown by its
written form. A failure is an answer too.
-/

namespace TreeQuery

/-- A node as it is shown: none at all, one with a tag, or one without. -/
inductive ShownNode where
  | nothing
  | tag (tag : String)
  | unregistered (written : String)
  deriving Repr

/-- The nodes of a collection, and whether it is the one that all empty results share. -/
structure CollectionAnswer where
  nodes : List ShownNode
  isShared : Bool
  deriving Repr

/-- What is told about a member beyond what every identified node has. -/
structure MemberAnswer where
  parent : ShownNode
  children : List ShownNode
  attributes : List (String × Value)
  deriving Repr

/-- What is told about a node with an identifier, which may have a key of its own choice. -/
structure IdentifiedAnswer where
  identifier : String
  name : Value
  kind : Value
  customKey? : Option Value
  member? : Option MemberAnswer
  deriving Repr

/-- What is told about a predicate, and about the axis and the test of a traversal. -/
structure PredicateAnswer where
  className : String
  label : String
  written : String
  traversal? : Option (Axis × String)
  deriving Repr

/-- What is told about a path: its class and form, the names under which it is held, whether and
under which name it is traced, its steps if it has any and its parts otherwise. -/
structure PathAnswer where
  className : String
  written : String
  registers : List String
  name : Value
  traced : Bool
  steps : List (Option String)
  shape : PathShape LeafTest
  parts : List String
  deriving Repr

/-- What is viewed of the result of a navigation. -/
inductive Found where
  | collection (collection : CollectionAnswer)
  | node (node : ShownNode)
  | count (count : Nat)
  deriving Repr

/-- The result of a navigation with the lines that its sink kept, if it keeps lines, and those that
went to a logger. -/
structure NavigationAnswer where
  outcome : Except (Fault Failure) Found
  trace? : Option (List Line)
  log : List LogEntry

/-- What is told about a configuration: what is wrong with it, and what it sets. -/
structure ConfigAnswer where
  problems : List ConfigProblem
  options? : Option TraceOptions
  hasAdapter : Bool

/-- The state of a context: whether trace output is on, and the lines since the last report. -/
structure ContextAnswer where
  active : Bool
  lines : List Line
  deriving Repr

/-- The answers to all commands. -/
inductive Answer where
  | failed (fault : Fault Failure)
  | done
  | truth (value : Bool)
  | text (text : String)
  | optionalText (text? : Option String)
  | node (node : ShownNode)
  | nodes (nodes : List ShownNode)
  | identifier (identifier : String)
  | lastIdentifier (identifier : String)
  | root (node : ShownNode)
  | info (written shown : String) (identified? : Option IdentifiedAnswer)
  | comparison (equal sameHash sameKey : Bool)
  | nothing
  | function (name? : Option String)
  | predicate (predicate : PredicateAnswer)
  | values (values : List Value)
  | tally (seen : List ShownNode)
  | collection (collection : CollectionAnswer)
  | collectionUnder (collection : CollectionAnswer) (registers : List String)
  | equality (equal : Bool)
  | collectionState (nodes : List ShownNode)
  | path (path : PathAnswer)
  | navigation (navigation : NavigationAnswer)
  | config (config : ConfigAnswer)
  | log (entries : List LogEntry)
  | context (context : ContextAnswer)
  | failedIn (fault : Fault Failure) (context : ContextAnswer)
  | tracing (entered? : Option (ContextAnswer × List Answer)) (fault? : Option (Fault Failure))
      (exit : ContextAnswer)

namespace Session

/-- A node is shown by its tag, and by its written form if it has none. -/
def showNode (session : Session) (node : Value) : ShownNode :=
  if node.isNull then .nothing
  else match node.place?.bind fun place => session.shownTags.find? place with
    | some tag => .tag tag
    | none => .unregistered (session.world.written node)

def showNodes (session : Session) (nodes : List Value) : List ShownNode :=
  nodes.map session.showNode

/-- The first node of a collection, if there is one. -/
def showFirst (session : Session) (index : Nat) : ShownNode :=
  ((session.collections.get index).first?.map session.showNode).getD .nothing

/-- The nodes of a collection by their tags. -/
def showCollection (session : Session) (index : Nat) : CollectionAnswer :=
  ⟨session.showNodes (session.collections.get index).nodes, index == Collections.shared⟩

/-- A node that has no identifier of its own is told about by its written forms only. -/
def showInfo (session : Session) (node : Value) : Answer :=
  let world := session.world
  let identified? := node.place?.bind fun place => (world.identifier? place).map fun identifier =>
    { identifier
      name := world.attributeOf node "name"
      kind := world.attributeOf node "kind"
      customKey? := world.customKey? node
      member? := match place with
        | .member index => world.forest.members[index]?.map fun member =>
            { parent := session.showNode (world.attributeOf node "parent")
              children := session.showNodes (member.children.map world.value)
              attributes := member.attributes }
        | .object _ => none }
  .info (world.written node) (world.shown node) identified?

/-- The written forms of the parts that a path is composed of, the base of an exclusion first. -/
def partForms (session : Session) (shape : PathShape LeafTest) : Act (List String) :=
  let parts := match shape with
    | .simple _ => []
    | .union parts | .chain parts => parts
    | .exclusion base excluded => base :: excluded
  parts.mapM fun part => formed (session.partForm part)

/-- The labels of the steps of a path, of which composites have none. -/
def stepLabels : PathShape LeafTest → Act (List (Option String))
  | .simple steps => steps.mapM fun step? => step?.mapM fun step => formed step.label
  | _ => pure []

/-- A path is told about as far as its labels and written forms can be made. -/
def showPath (index : Nat) : Act PathAnswer := do
  let session ← get
  let shape := session.paths.shape index
  let name? := session.paths.paths[index]?.bind StoredPath.name?
  return {
    className := shape.className
    written := ← formed (session.foreignForm (.path index))
    registers := session.namesOf (.path index)
    name := name?.getD .null
    traced := name?.isSome
    steps := ← stepLabels shape
    shape
    parts := ← session.partForms shape }

/-- A predicate is told about as far as its label and its written form can be made. -/
def showPredicate (predicate : Predicate LeafTest) : Act PredicateAnswer := do
  let traversal? ← match predicate with
    | .traversal axis inner => do pure (some (axis, ← formed inner.label))
    | _ => pure none
  return {
    className := predicate.className
    label := ← formed predicate.label
    written := ← formed predicate.written
    traversal? }

/-- What is told about an operand. Nothing can be told about what is no step. -/
def showOperand : Operand → Act Answer
  | .absent => pure .nothing
  | .predicate _ predicate => .predicate <$> showPredicate predicate
  | .object (.function _ host) => pure (.function host.name?)
  | operand => lacks operand "label"

/-- Whether an operand in the place of an adapter has a capability. -/
def provides (session : Session) (operand : Operand) (capability : Capability) : Bool :=
  (session.adapterOf operand).provides capability

/-- A configuration is told about without starting anything with it. -/
def showConfig (session : Session) (config : Config Operand) : ConfigAnswer where
  problems := config.problems session.provides
  options? := match config.trace with
    | .options options => some options
    | .value _ => none
  hasAdapter := config.adapter?.isSome

end Session

end TreeQuery
