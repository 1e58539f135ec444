import TreeQuery.Session.Expression
import TreeQuery.Session.Forms

/-! # Evaluating expressions

The parts of an expression are evaluated from left to right, and each may change the session before
a later one fails. Evaluating an expression makes new objects, except where it names a constant or
a register. An object may stand wherever an expression is allowed, and what is wrong with it is
noticed when it is used: an operation that an object lacks is missed before its arguments are
evaluated.
-/

namespace TreeQuery

namespace Session

def constantIdentity : Option Axis → Nat
  | none => 0
  | some .children => 1
  | some .descendants => 2
  | some .allDescendants => 3
  | some .parent => 4
  | some .siblings => 5
  | some .ancestors => 6
  | some .neighbours => 7

/-- A predicate with an identity of its own. -/
def newPredicate (predicate : Predicate LeafTest) : Act Operand := do
  return .predicate (← freshIdentity) predicate

/-- A new object for the result of an operator. A foreign object stays one. -/
def newOperand : Predicate LeafTest → Act Operand
  | .foreign (.foreign object) => pure (.object object)
  | predicate => newPredicate predicate

/-- The failure of an operand that is no step. -/
def refuseStep {α : Type} (operand : Operand) : Act α := do
  fail (.unusableStep (← writtenOperand operand))

/-- Takes an operand as a step: a predicate as it is, a function as a test of its own, and nothing
as a missing step. -/
def asStep : Operand → Act Operand
  | .absent => pure .absent
  | .predicate identity predicate => pure (.predicate identity predicate)
  | .object (.function _ host) => newPredicate (.ofFunction host none)
  | operand => refuseStep operand

/-- The predicate that an operand taken as a step is, if it is not missing. -/
def step? (operand : Operand) : Act (Option (Predicate LeafTest)) := do
  return (← asStep operand).predicate?

/-- The predicate that an operand is. Anything else lacks the attribute that was wanted of it. -/
def predicateFor (wanted : String) : Operand → Act (Predicate LeafTest)
  | .predicate _ predicate => pure predicate
  | operand => lacks operand wanted

/-- The traversal that an operand is. Anything else lacks the attribute that was wanted of it. -/
def traversalFor (wanted : String) (operand : Operand) : Act (Axis × Predicate LeafTest) := do
  match ← predicateFor wanted operand with
  | .traversal axis inner => pure (axis, inner)
  | _ => lacks operand wanted

/-- The test of a traversal, which is always passed when nothing is given. -/
def innerTest (operand : Operand) : Predicate LeafTest :=
  operand.predicate?.getD .any

/-- The result of an operator, or the failure of applying it. -/
def operated (outcome : Except (OperatorError LeafTest) (Predicate LeafTest)) : Act Operand := do
  let session ← get
  match outcome with
  | .ok predicate => newOperand predicate
  | .error (.axisMismatch left right) => fail (.axisMismatch left right)
  | .error (.unlabelled leaf) => fail (session.unlabelled leaf)
  | .error (.noNegation leaf) => fail (.noNegation (session.strayType (some (.foreign leaf))))
  | .error (.noOperator connective leaf other) =>
      fail (.noOperator connective.sign (session.strayType (some (.foreign leaf)))
        (session.strayType (some other)))
  | .error (.noStep leaf) => refuseStep (leaf.foreign?.elim .absent .object)

def negate (operand : Operand) : Act Operand := do
  match operand.predicate? with
  | some predicate => operated (predicate.not? LeafTest.foreignRules)
  | none => fail (.noNegation ((← get).typeName operand))

/-- Joins two operands by an operator of the left one. A predicate on the left asks for the kind of
the right one. -/
def combine (connective : Connective) (left right : Operand) : Act Operand := do
  match left, left.predicate?, right.predicate? with
  | _, some first, some second => operated (first.join LeafTest.foreignRules connective second)
  | .predicate _ _, _, _ => lacks right "kind"
  | _, _, _ =>
      let session ← get
      fail (.noOperator connective.sign (session.typeName left) (session.typeName right))

/-- A host function whose nodes are found by their tags. -/
def resolveFunction (host : FunctionExpr) : Act (HostFunction Value) :=
  host.resolve node

/-- Composes stored paths by an operation that always succeeds. -/
def composing (operation : PathStore LeafTest → PathStore LeafTest × Nat) : Act Nat := do
  let session ← get
  let (paths, index) := operation session.paths
  set { session with paths }
  return index

def unite (path : Nat) (other : Operand) : Act Nat := do
  match (← get).paths.or path other.part with
  | .ok (paths, index) =>
      modify fun session => { session with paths }
      pure index
  | .error cause => fail (.composition cause)

/-- Takes the results of a part out of those of a stored path. -/
def exclude (path : Nat) (other : Operand) : Act Nat :=
  composing fun store => store.exclude path other.part

/-- Appends operands to a stored path: a single path as a link, and steps as a path of their own. -/
def appendOperands (path : Nat) : List Operand → Act Nat
  | [.object (.path other)] => composing fun store => store.append path other
  | operands => do
      let steps ← operands.mapM step?
      composing fun store => store.appendSteps path steps

/-- A new path object. -/
def newPath (shape : PathShape LeafTest) : Act Operand := do
  return .object (.path (← composing fun store => store.create shape))

mutual

/-- What an expression for a predicate comes to. -/
def evalStep : StepExpr → Act Operand
  | .absent => pure .absent
  | .any => pure (.predicate (constantIdentity none) .any)
  | .all axis => pure (.predicate (constantIdentity (some axis)) (.traversal axis .any))
  | .attributeIs name values => do newPredicate (← lift (Predicate.attributeIs name values))
  | .syntaxNameIs values => do newPredicate (← lift (Predicate.syntaxNameIs values))
  | .nameMatches text => do newPredicate (← lift (Predicate.nameMatches text))
  | .classIs names => newPredicate (Predicate.classIs names)
  | .test host label? => do
      newPredicate (.ofFunction (← resolveFunction host) label?)
  | .function host => do
      return .object (.function (← freshIdentity) (← resolveFunction host))
  | .custom host => do
      newPredicate (.custom (.function (← resolveFunction host)) "CustomPredicate")
  | .counting inner title? => do
      let inner ← step? (← evalStep inner)
      let counter ← freshIdentity
      return .predicate counter
        (.counting counter (inner.getD .any) (title?.filter (!·.isEmpty)))
  | .traversal axis inner => do
      newPredicate (.traversal axis (innerTest (← evalStep inner)))
  | .on axis inner => do
      newPredicate (.traversal axis (← predicateFor axis.method (← evalStep inner)))
  | .withInner outer inner => do
      let (axis, _) ← traversalFor "with_inner" (← evalStep outer)
      newPredicate (.traversal axis (innerTest (← evalStep inner)))
  | .not inner => do negate (← evalStep inner)
  | .and left right => do
      let left ← evalStep left
      combine .and left (← evalStep right)
  | .or left right => do
      let left ← evalStep left
      combine .or left (← evalStep right)
  | .asPredicate inner => do asStep (← evalStep inner)
  | .value .null => pure .absent
  | .value value => do return .object (.value (← newObject value))
  | .path path => evalPath path
  | .register name => register name

/-- What several expressions come to, from left to right. -/
def evalSteps : List StepExpr → Act (List Operand)
  | [] => pure []
  | expression :: rest => do
      let operand ← evalStep expression
      return operand :: (← evalSteps rest)

/-- What an expression for a path comes to. -/
def evalPath : PathExpr → Act Operand
  | .simple steps => do
      let operands ← evalSteps steps
      newPath (.simple (← operands.mapM step?))
  | .register name => register name
  | .union delegates => do newPath (.union ((← evalPaths delegates).map Operand.part))
  | .exclusion base excluded => do
      let base ← evalPath base
      newPath (.exclusion base.part ((← evalPaths excluded).map Operand.part))
  | .chain links => do newPath (.chain ((← evalPaths links).map Operand.part))
  | .or first others => do evalEach "or_" unite (← evalPath first) others
  | .exclude first others => do evalEach "exclude" exclude (← evalPath first) others
  | .append first others => do
      evalEach "append" (fun path other => appendOperands path [other]) (← evalPath first) others
  | .appendSteps first steps => do
      let first ← evalPath first
      let steps ← evalSteps steps
      return .object (.path (← appendOperands (← pathFor "append" first) steps))
  | .trace path name => do
      let path ← pathFor "trace" (← evalPath path)
      modify fun session => { session with paths := session.paths.trace path name }
      return .object (.path path)

/-- What several expressions come to, from left to right. -/
def evalPaths : List PathExpr → Act (List Operand)
  | [] => pure []
  | expression :: rest => do
      let path ← evalPath expression
      return path :: (← evalPaths rest)

/-- Composes a path with others one after the other, evaluating each just before its turn. -/
def evalEach (wanted : String) (compose : Nat → Operand → Act Nat) (receiver : Operand) :
    List PathExpr → Act Operand
  | [] => pure receiver
  | expression :: rest => do
      let path ← pathFor wanted receiver
      let other ← evalPath expression
      evalEach wanted compose (.object (.path (← compose path other))) rest

end

/-- What an expression for a sink comes to. -/
def evalSink : SinkExpr → Act SinkField
  | .absent | .value .null => pure .absent
  | .recorder => .sink <$> addKeeper {}
  | .refusing number => .sink <$> addKeeper { refusedNumber? := some number }
  | .value value => pure (.value value)

/-- A new adapter. -/
def newAdapter (adapter : Adapter) : Act Operand := do
  return .object (.adapter (← freshIdentity) adapter)

/-- What an expression for an adapter comes to. -/
def evalAdapter : AdapterExpr → Act Operand
  | .absent | .value .null => pure .absent
  | .register name => register name
  | .attributes children parent =>
      newAdapter (.attributes (children.getD "children") (parent.getD "parent"))
  | .table children parents => do
      let children ← children.mapM fun (tag, entries) => do
        let entries ← entries.mapM fun entry => match entry with
          | .inl number => pure (.failing number)
          | .inr child => .node <$> node child
        return (← node (some tag), entries)
      let parents ← parents.mapM fun (tag, parent) => do
        return (← node (some tag), ← node parent)
      newAdapter (.table children parents)
  | .limited methods => newAdapter (.limited "Duck" methods)
  | .value value => do return .object (.value (← newObject value))

def withSink (config : Config Operand) (sink : SinkField) : Act (Config Operand) := do
  match config.trace with
  | .options options => pure { config with trace := .options { options with sink } }
  | .value value => fail (.noAttribute ((← get).world.typeName value) "logger_name")

/-- The configuration that has the fields given, and defaults elsewhere. -/
def evalFields (fields : ConfigFields) : Act (Config Operand) := do
  let sink ← evalSink fields.sink
  let adapter? ← match ← evalAdapter fields.adapter with
    | .absent => pure none
    | adapter => pure (some adapter)
  let standard : TraceOptions := {}
  let trace : TraceField := match fields.trace? with
    | some value => .value value
    | none => .options
        { loggerName := fields.loggerName?.getD standard.loggerName
          level := fields.level?.getD standard.level
          sink }
  let config : Config Operand := { trace, adapter? }
  let config ← match fields.withSink? with
    | some sink => do withSink config (← evalSink sink)
    | none => pure config
  if fields.withRecorder then do withSink config (← evalSink .recorder) else pure config

/-- The configuration that an operand is. Nothing stands for the default one, and anything else
lacks the attribute that was wanted of it. -/
def configFor (wanted : String) : Operand → Act (Config Operand)
  | .absent => pure {}
  | .object (.config index) => do return (← get).configs[index]?.getD {}
  | operand => lacks operand wanted

/-- Evaluates an expression for a configuration, of which an attribute is wanted. -/
def evalConfig (wanted : String) : ConfigExpr → Act (Config Operand)
  | .absent => pure {}
  | .register name => do configFor wanted (← register name)
  | .fields fields => evalFields fields

/-- A new configuration. -/
def newConfig (config : Config Operand) : Act Operand := do
  let session ← get
  set { session with configs := session.configs.push config }
  return .object (.config session.configs.size)

/-- What an operand hands out as an argument, if it is not nothing. -/
def sourceOf : Operand → Act (Option (NodeSource Value))
  | .absent => pure none
  | .object (.collection index) => pure (some (.collection index))
  | operand => do
      let items? := match operand with
        | .object (.value value) => value.items?
        | _ => none
      match items? with
      | some items => pure (some (.list items))
      | none => fail (.notIterable ((← get).typeName operand))

/-- Evaluates an expression for the nodes of an argument, if there is one. -/
def evalSource : NodesExpr → Act (Option (NodeSource Value))
  | .absent => pure none
  | .tags tags => do return some (.list (← tags.mapM node))
  | .register name => do sourceOf (← register name)

/-- The nodes of an argument that has to be there. -/
def requiredSource (nodes : NodesExpr) : Act (NodeSource Value) := do
  match ← evalSource nodes with
  | some source => pure source
  | none => fail (.notIterable "NoneType")

/-- The nodes of an argument, of which there are none without an argument. -/
def optionalSource (nodes : NodesExpr) : Act (NodeSource Value) := do
  return (← evalSource nodes).getD (.list [])

/-- The nodes of an argument at present. -/
def evalNodes (nodes : NodesExpr) : Act (List Value) := do
  let source ← optionalSource nodes
  return (← get).collections.listed source

end Session

end TreeQuery
