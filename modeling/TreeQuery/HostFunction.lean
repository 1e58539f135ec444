import TreeQuery.Failure
import TreeQuery.World

/-! # Host functions

A host brings functions of one node. What such a function returns depends on what the attributes of
the node hold when it is called, and it may fail with a failure of its own.
-/

namespace TreeQuery

/-- A function of the host, over references to nodes. -/
inductive HostFunction (Node : Type) where
  | nameEquals (value : Value)
  | leaf
  | constant (value : Value)
  | oneOf (nodes : List Node)
  | raise (kind : HostFailure) (message : String) (nodes? : Option (List Node))
  | anonymous (function : HostFunction Node)
  | nameless (function : HostFunction Node) (form : String)
  deriving Repr

namespace HostFunction

/-- The name of a function, if it has one. -/
def name? {Node : Type} : HostFunction Node → Option String
  | nameEquals _ => some "name_eq"
  | leaf => some "leaf"
  | constant _ => some "const"
  | oneOf _ => some "in"
  | raise _ _ _ => some "raise"
  | anonymous _ => some "<lambda>"
  | nameless _ _ => none

/-- The label of a test by a function: its name, or its written form when it has none. -/
def label {Node : Type} : HostFunction Node → String
  | nameless _ form => form
  | function => function.name?.getD ""

/-- The written form of a function, which shows its name. -/
def written {Node : Type} : HostFunction Node → String
  | nameless _ form => form
  | function => "<function " ++ function.name?.getD "" ++ ">"

/-- What a function returns about a node, or the failure with which it ends. -/
def call (world : World) : HostFunction Value → Value → Except Failure Value
  | nameEquals value, node => .ok (.bool ((world.attributeOf node "name").equals value))
  | leaf, node => .ok (.bool !(world.attributeOf node "children").truthy)
  | constant value, _ => .ok value
  | oneOf nodes, node => .ok (.bool (nodes.any (World.same node)))
  | raise kind message nodes?, node =>
      if nodes?.all fun nodes => nodes.any (World.same node) then .error (.host kind message)
      else .ok (.bool true)
  | anonymous function, node => function.call world node
  | nameless function _, node => function.call world node

/-- The same function over other references, unless one of them is not to be had. -/
def resolve {Node Node' : Type} {m : Type → Type} [Monad m] (find : Node → m Node') :
    HostFunction Node → m (HostFunction Node')
  | nameEquals value => pure (nameEquals value)
  | leaf => pure leaf
  | constant value => pure (constant value)
  | oneOf nodes => oneOf <$> nodes.mapM find
  | raise kind message none => pure (raise kind message none)
  | raise kind message (some nodes) => do
      return raise kind message (some (← nodes.mapM find))
  | anonymous function => anonymous <$> function.resolve find
  | nameless function form => do
      return nameless (← function.resolve find) form

end HostFunction

end TreeQuery
