import TreeQuery.LeafTest

/-! # Expressions of a session

Predicates, paths, adapters and configurations are given to a session by expressions, which name
nodes by their tags and other things by their registers.
-/

namespace TreeQuery

/-- A host function that names nodes by tags. -/
abbrev FunctionExpr := HostFunction (Option String)

mutual

/-- An expression for a predicate, or for anything that may stand in its place. -/
inductive StepExpr where
  | absent
  | any
  | all (axis : Axis)
  | attributeIs (name : String) (values : List Value)
  | syntaxNameIs (values : List Value)
  | nameMatches (text : String)
  | classIs (names : List String)
  | test (host : FunctionExpr) (label? : Option String)
  | function (host : FunctionExpr)
  | custom (host : FunctionExpr)
  | counting (inner : StepExpr) (title? : Option String)
  | traversal (axis : Axis) (inner : StepExpr)
  | on (axis : Axis) (inner : StepExpr)
  | withInner (outer inner : StepExpr)
  | not (inner : StepExpr)
  | and (left right : StepExpr)
  | or (left right : StepExpr)
  | asPredicate (inner : StepExpr)
  | value (value : Value)
  | path (path : PathExpr)
  | register (name : String)

/-- An expression for a path. -/
inductive PathExpr where
  | simple (steps : List StepExpr)
  | register (name : String)
  | union (delegates : List PathExpr)
  | exclusion (base : PathExpr) (excluded : List PathExpr)
  | chain (links : List PathExpr)
  | or (first : PathExpr) (others : List PathExpr)
  | exclude (first : PathExpr) (others : List PathExpr)
  | append (first : PathExpr) (others : List PathExpr)
  | appendSteps (first : PathExpr) (steps : List StepExpr)
  | trace (path : PathExpr) (name : Value)

end

/-- An expression for a sink, which may be none or a value that is no sink. -/
inductive SinkExpr where
  | absent
  | recorder
  | refusing (number : Int)
  | value (value : Value)

/-- An expression for an adapter. In a table, children and parents go by tags. -/
inductive AdapterExpr where
  | absent
  | register (name : String)
  | attributes (children parent : Option String)
  | table (children : List (String × List (Int ⊕ Option String)))
      (parents : List (String × Option String))
  | limited (methods : List String)
  | value (value : Value)

/-- The fields of a configuration, as far as they are given. -/
structure ConfigFields where
  loggerName? : Option Value := none
  level? : Option Value := none
  sink : SinkExpr := .absent
  adapter : AdapterExpr := .absent
  trace? : Option Value := none
  withSink? : Option SinkExpr := none
  withRecorder : Bool := false

/-- An expression for a configuration. -/
inductive ConfigExpr where
  | absent
  | register (name : String)
  | fields (fields : ConfigFields)

/-- Where the nodes of an argument come from: nowhere, a list of tags, or a collection. -/
inductive NodesExpr where
  | absent
  | tags (tags : List (Option String))
  | register (name : String)

/-- Where a navigation starts: at a single node, or at the nodes of an argument. -/
inductive StartExpr where
  | node (tag? : Option String)
  | nodes (nodes : NodesExpr)

/-- The nodes that a navigation starts from. -/
def StartExpr.source : StartExpr → NodesExpr
  | node tag? => .tags [tag?]
  | nodes argument => argument

/-- The name of the attribute through which a path is navigated from a start. -/
def StartExpr.method : StartExpr → String
  | node _ => "navigate"
  | nodes _ => "navigate_all"

end TreeQuery
