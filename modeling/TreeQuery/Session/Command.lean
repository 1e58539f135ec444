import TreeQuery.Session.Expression

/-! # Commands of a session

A session is driven by commands. They make host objects, predicates, paths, collections, adapters,
configurations and contexts, ask about them and navigate.
-/

namespace TreeQuery

/-- A tree of members to be planted, children before their parents. -/
inductive TreeExpr where
  | node (tag : String) (name kind : Value) (children : List TreeExpr)

/-- What the field of a syntax node holds. A node may have a tag by which it is shown and shared. -/
inductive SyntaxExpr where
  | null
  | text (text : String)
  | literal (written : String)
  | reference (tag : String)
  | list (items : List SyntaxExpr)
  | node (tag? : Option String) (className : String) (fields : List (String × SyntaxExpr))

/-- What an attribute of a host object is set to. -/
inductive AttributeExpr where
  | node (tag? : Option String)
  | nodes (tags : List (Option String))
  | tuple (tags : List (Option String))
  | value (value : Value)

/-- What can be done to a collection and asked about it. -/
inductive CollectionCommand where
  | add (node : Option String)
  | addAll (nodes : NodesExpr)
  | removeAll (nodes : NodesExpr)
  | filter (predicate : StepExpr) (as? : Option String)
  | union (nodes : NodesExpr) (as? : Option String)
  | difference (nodes : NodesExpr) (as? : Option String)
  | contains (node : Option String)
  | equals (other? : Option String)
  | hash
  | first
  | toList
  | written
  | state

/-- The name of the attribute through which a command is given. -/
def CollectionCommand.method : CollectionCommand → String
  | .add _ => "add"
  | .addAll _ => "add_all"
  | .removeAll _ => "remove_all"
  | .filter _ _ => "filter"
  | .union _ _ => "union"
  | .difference _ _ => "difference"
  | .contains _ => "contains"
  | .equals _ => "eq"
  | .hash => "hash"
  | .first => "first"
  | .toList => "to_list"
  | .written => "repr"
  | .state => "size"

/-- What a navigation tells about the nodes found: all of them, put under a name if one is given,
the first of them or their number. -/
inductive ResultView where
  | collection (as? : Option String)
  | first
  | count

/-- A command other than a traced section. -/
inductive Instruction where
  | plant (as : String) (name kind : Value) (identifier? : Option String)
      (children : List (Option String)) (attributes : List (String × Value))
  | tree (tree : TreeExpr)
  | chain (as : String) (length : Nat) (kind : Value)
  | wide (as : String) (fanout depth : Nat)
  | box (as : String)
  | bare (as identifier : String) (customKey? : Option Value)
  | set (node : Option String) (attributes : List (String × AttributeExpr))
  | info (node : Option String)
  | addChild (node child : Option String)
  | walk (node : Option String)
  | find (node : Option String) (name : Value)
  | compare (left right : Option String)
  | parse (as : String) (tree : SyntaxExpr) (fromSource : Bool)
  | syntaxName (node : Option String)
  | predicate (as : String) (expression : StepExpr)
  | test (predicate : StepExpr) (nodes : NodesExpr) (asFunction : Bool)
  | samePredicate (left right : StepExpr)
  | counter (name : String) (reset : Bool)
  | traverse (predicate : StepExpr) (nodes : NodesExpr) (adapter : AdapterExpr)
  | adapter (as : String) (expression : AdapterExpr)
  | ask (relation : Relation) (node : Option String) (adapter : AdapterExpr)
  | collect (as : String) (nodes : NodesExpr)
  | collection (name : String) (command : CollectionCommand)
  | path (as : String) (expression : PathExpr)
  | describe (path : String)
  | navigate (path : PathExpr) (start : StartExpr) (view : ResultView) (adapter : AdapterExpr)
      (config : ConfigExpr)
  | config (as : String) (expression : ConfigExpr)
  | defaultConfig
  | log (config : ConfigExpr) (line : String)
  | context (as : String) (active : Bool) (sink : SinkExpr)
  | message (context template : String) (arguments : List Value)
  | step (context : String) (label count : Value)

/-- A command: an instruction, or commands that run in a traced section of a context, after which a
failure may be brought up. -/
inductive Command where
  | instruction (instruction : Instruction)
  | tracing (context : String) (name : Value) (body : List Command) (raise? : Option HostFailure)

end TreeQuery
