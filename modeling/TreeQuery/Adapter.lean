import TreeQuery.Failure
import TreeQuery.World

/-! # Adapters

An adapter makes a host out of the objects of a world. It reads children and parents off attributes
or out of a table, or it follows the fields of syntax nodes and an index of their parents. An object
of any type that offers only some of the methods of an adapter, or none, may stand in the place of
one too; it fails when it is asked for what it does not offer.
-/

namespace TreeQuery

/-- An entry in a table of children: a node, or a number at which the listing fails. -/
inductive TableEntry where
  | node (node : Value)
  | failing (number : Int)
  deriving Repr

inductive Adapter where
  | attributes (children parent : String)
  | table (children : List (Value × List TableEntry)) (parents : List (Value × Value))
  | parsedTree (owners : List (Value × Value))
  | limited (typeName : String) (methods : List String)
  deriving Repr

/-- The nodes of table entries up to the first failing one. -/
def TableEntry.listing : List TableEntry → Listing Value Failure
  | [] => .empty
  | .node child :: rest => .cons child (listing rest)
  | .failing number :: _ => .failed (.raised (.hostChild number))

/-- The parent that a value stands for, where nothing stands for none. -/
def Value.parent? (value : Value) : Option Value :=
  if value.isNull then none else some value

def Adapter.lacks (typeName method : String) : Fault Failure :=
  .raised (.noAttribute typeName method)

namespace World

def parsedClass? (world : World) (value : Value) : Option SyntaxClass :=
  match value.place? with
  | some (.object index) => match world.things[index]?.map Thing.sort with
      | some (.parsed kind) => some kind
      | _ => none
  | _ => none

def isParsed (world : World) (value : Value) : Bool :=
  (world.parsedClass? value).isSome

/-- The syntax nodes that the field of a syntax node holds: the node that it is, or the nodes among
the items of the list that it is. -/
def fieldNodes (world : World) (value : Value) : List Value :=
  match value.content with
  | .list items => items.filter world.isParsed
  | _ => if world.isParsed value then [value] else []

/-- The syntax nodes of a world with the nodes in their fields. -/
def syntaxGraph (world : World) : SyntaxGraph Value where
  fields node := match node.place? with
    | some (.object index) =>
        ((world.things[index]?.map Thing.attributes).getD []).flatMap fun field =>
          world.fieldNodes field.2
    | _ => []
  isShared node := (world.parsedClass? node).any SyntaxClass.isSharedLeaf

/-- The adapter of the parsed program under a root. -/
def parsedTree (world : World) (root : Value) : Adapter :=
  .parsedTree (world.syntaxGraph.ownership (world.things.size + 1) root)

/-- The nodes that a value of an attribute lists as children. Whatever is false lists none. -/
def listChildren (world : World) (value : Value) : Listing Value Failure :=
  if !value.truthy then .empty
  else match value.items? with
    | some items => ⟨items, none⟩
    | none => .failed (.raised (.notIterable (world.typeName value)))

/-- The tree that an adapter shows. A search for descendants is given up when its patience is
spent. -/
def host (world : World) (patience : Nat) : Adapter → Host Value Failure
  | .attributes children parent =>
      .ofLinks patience (fun node => world.listChildren (world.attributeOf node children))
        fun node => .ok (world.attributeOf node parent).parent?
  | .table children parents =>
      .ofLinks patience
        (fun node => TableEntry.listing
          (((children.find? fun entry => same node entry.1).map Prod.snd).getD []))
        fun node => .ok
          ((parents.find? fun entry => same node entry.1).bind fun entry => entry.2.parent?)
  | .parsedTree owners =>
      let foreign? (node : Value) : Option (Fault Failure) :=
        if world.isParsed node then none
        else some (Adapter.lacks (world.typeName node) "_fields")
      world.syntaxGraph.host patience foreign? owners
  | .limited typeName methods =>
      let lacks := Adapter.lacks typeName
      let listing (method : String) : Listing Value Failure :=
        if methods.contains method then .empty else .failed (lacks method)
      { children := fun _ => listing "get_children"
        descendants := fun _ => listing "get_descendants"
        siblings := fun _ => listing "get_siblings"
        parent := fun _ =>
          if methods.contains "get_parent" then .ok none else .error (lacks "get_parent") }

end World

namespace Adapter

/-- The adapter that is used when none is given. -/
def standard : Adapter := .attributes "children" "parent"

/-- Whether something in the place of an adapter has a capability. -/
def provides : Adapter → Capability → Bool
  | .limited _ methods, .children => methods.contains "get_children"
  | .limited _ methods, .parent => methods.contains "get_parent"
  | _, _ => true

end Adapter

end TreeQuery
