import TreeQuery.Forest
import TreeQuery.Frontier
import TreeQuery.SyntaxTree

/-! # Host objects

The world of a session holds the members of its forest and three other sorts of objects: boxes,
which hold any attributes and are told apart by identity; bare nodes, which have an identifier and
perhaps a key of their own; and the nodes of parsed programs, whose fields are their attributes.
What an attribute of an object holds is asked of the world.

An object can be attached to a member as its child when it has an attribute for its parent that
holds nothing; from then on that attribute holds the member. Planting a member attaches its children
one after the other; when one of them cannot be attached, what was done before stays done.
-/

namespace TreeQuery

instance : Keyed Value where
  Key := Key
  key := Value.key

/-- The sorts of objects outside the forest. -/
inductive ThingSort where
  | box (tag : String)
  | bare (identifier : String) (customKey? : Option Value)
  | parsed (kind : SyntaxClass)
  deriving Repr

/-- An object outside the forest. -/
structure Thing where
  sort : ThingSort
  attributes : List (String × Value) := []
  deriving Repr

/-- All host objects, each at the place given by its position. -/
structure World where
  forest : Forest := {}
  things : Array Thing := #[]
  deriving Inhabited, Repr

/-- Why a child could not be attached: it has a parent already, or it has no attribute for one. -/
inductive AttachError where
  | attached (child parent : Value)
  | parentless (child : Value)
  deriving Repr

/-- Replaces the value under a key, or adds the key at the end. -/
def setEntry {κ α : Type} [DecidableEq κ] (key : κ) (value : α) :
    List (κ × α) → List (κ × α)
  | [] => [(key, value)]
  | (other, old) :: rest =>
      if other = key then (key, value) :: rest else (other, old) :: setEntry key value rest

/-- An entry that is set is found. -/
@[simp] theorem lookup_setEntry_self {κ α : Type} [DecidableEq κ] (key : κ) (value : α)
    (entries : List (κ × α)) : (setEntry key value entries).lookup key = some value := by
  induction entries with
  | nil => simp [setEntry]
  | cons entry rest ih =>
      rcases entry with ⟨other, old⟩
      rw [setEntry]
      split
      · simp
      · next apart => simpa [List.lookup_cons, beq_eq_false_iff_ne.mpr (Ne.symm apart)] using ih

/-- The other entries are as they were. -/
theorem lookup_setEntry_of_ne {κ α : Type} [DecidableEq κ] {key wanted : κ} (value : α)
    (entries : List (κ × α)) (apart : wanted ≠ key) :
    (setEntry key value entries).lookup wanted = entries.lookup wanted := by
  induction entries with
  | nil => simp [setEntry, List.lookup_cons, beq_eq_false_iff_ne.mpr apart]
  | cons entry rest ih =>
      rcases entry with ⟨other, old⟩
      rw [setEntry]
      split
      · next same =>
        subst same
        simp [List.lookup_cons, beq_eq_false_iff_ne.mpr apart]
      · simp [List.lookup_cons, ih]

namespace World

/-- A member as a value. Members are told apart by their identifiers. -/
def member (world : World) (index : Nat) : Value :=
  .node (.member index)
    (.identifier ((world.forest.members[index]?.map Member.identifier).getD ""))

/-- The key of the object at a position outside the forest. -/
def thingKey (index : Nat) : ThingSort → Key
  | .bare _ (some key) => .custom key.keyForm
  | .bare identifier none => .identifier identifier
  | _ => .identity (.object index)

/-- An object beside the forest, as a value. -/
def thing (world : World) (index : Nat) : Value :=
  .node (.object index) (match world.things[index]? with
    | some thing => thingKey index thing.sort
    | none => .identity (.object index))

/-- What is at a place, as a value. -/
def value (world : World) : Place → Value
  | .member index => world.member index
  | .object index => world.thing index

/-- The world with a further object beside the forest. -/
def addThing (world : World) (thing : Thing) : World × Value :=
  ({ world with things := world.things.push thing },
    .node (.object world.things.size) (thingKey world.things.size thing.sort))

/-- The first syntax node of a class, if there is one. -/
def firstParsed? (world : World) (kind : SyntaxClass) : Option Value :=
  (world.things.findIdx? fun thing => match thing.sort with
    | .parsed other => other == kind
    | _ => false).map world.thing

/-- Sets an attribute of an object beside the forest. -/
def setAttribute (world : World) (index : Nat) (name : String) (value : Value) : World :=
  { world with things := world.things.modify index fun thing =>
      { thing with attributes := setEntry name value thing.attributes } }

/-- The attribute of the member at a position with a given name. Its children and its attributes are
kept in objects of their own. -/
def memberAttribute? (world : World) (index : Nat) (member : Member) : String → Option Value
  | "name" => some member.name
  | "kind" => some member.kind
  | "parent" => some ((member.parent?.map world.member).getD .null)
  | "children" =>
      some (.own (.held (.member index) "children") (.list (member.children.map world.value)))
  | "attributes" => some (.own (.held (.member index) "attributes") (.dict member.attributes))
  | _ => none

/-- The attribute of a value with a given name, if it has one. A bare node has a name and a kind,
both of which are nothing. -/
def attributeOf? (world : World) (value : Value) (name : String) : Option Value :=
  match value.place? with
  | some (.member index) =>
      world.forest.members[index]?.bind fun member => world.memberAttribute? index member name
  | some (.object index) => world.things[index]?.bind fun thing =>
      match thing.sort with
      | .bare _ _ =>
          if name = "name" ∨ name = "kind" then some .null else thing.attributes.lookup name
      | _ => thing.attributes.lookup name
  | none => none

/-- The attribute of a value with a given name, or nothing. -/
def attributeOf (world : World) (value : Value) (name : String) : Value :=
  (world.attributeOf? value name).getD .null

/-- Links a child under a member, as its last child. -/
def link (world : World) (parent : Nat) : Place → World
  | .member child => { world with forest := world.forest.link parent child }
  | .object child =>
      let world := world.setAttribute child "parent" (world.member parent)
      { world with forest := world.forest.adopt parent (.object child) }

/-- Attaches a child that has no parent yet as the last child of a member. -/
def attach (world : World) (parent : Nat) (child : Value) : Except AttachError World :=
  match child.place?, world.attributeOf? child "parent" with
  | some place, some above =>
      if above.isNull then .ok (world.link parent place) else .error (.attached child above)
  | _, _ => .error (.parentless child)

/-- Attaches several children in order, up to the first that cannot be attached. -/
def attachAll (world : World) (parent : Nat) : List Value → World × Except AttachError Unit
  | [] => (world, .ok ())
  | child :: rest => match world.attach parent child with
      | .ok grown => grown.attachAll parent rest
      | .error refused => (world, .error refused)

/-- Plants a member and attaches children to it. The position of the new member comes out when all
children could be attached. -/
def plant (world : World) (name kind : Value) (identifier? : Option String)
    (attributes : List (String × Value)) (children : List Value) :
    World × Except AttachError Nat :=
  let index := world.forest.members.size
  let forest := world.forest.sprout name kind identifier? attributes
  let (grown, outcome) := { world with forest }.attachAll index children
  (grown, outcome.map fun _ => index)

/-- The name of the class of what is at a place. -/
def objectType (world : World) : Place → String
  | .member _ => "MemoryNode"
  | .object index => match world.things[index]?.map Thing.sort with
      | some (.box _) => "Box"
      | some (.bare _ none) => "BareNode"
      | some (.bare _ (some _)) => "KeyedNode"
      | some (.parsed kind) => kind.name
      | none => "object"

/-- The name of the class of a value. -/
def typeName (world : World) (value : Value) : String :=
  value.typeName world.objectType

/-- The identifier of what is at a place, if it has one. -/
def identifier? (world : World) : Place → Option String
  | .member index => world.forest.members[index]?.map Member.identifier
  | .object index => match world.things[index]?.map Thing.sort with
      | some (.bare identifier _) => some identifier
      | _ => none

/-- The written form of a member: its name, with its kind in front if it has one. -/
def writtenMember (member : Member) : String :=
  let name := member.name.plain
  if member.kind.truthy then
    "MemoryNode(" ++ member.kind.shown (fun _ => "object") ++ ":" ++ name ++ ")"
  else "MemoryNode(" ++ name ++ ")"

/-- The written form of what is at a place. -/
def writtenObject (world : World) : Place → String
  | .member index => (world.forest.members[index]?.map writtenMember).getD ""
  | .object index => match world.things[index]?.map Thing.sort with
      | some (.box tag) => "Box(" ++ tag ++ ")"
      | some (.bare identifier none) => "BareNode(id=" ++ Text.quoted identifier ++ ")"
      | some (.bare identifier (some _)) => "KeyedNode(id=" ++ Text.quoted identifier ++ ")"
      | some (.parsed kind) => "<ast." ++ kind.name ++ " object>"
      | none => ""

/-- The written form of a value. -/
def written (world : World) (value : Value) : String :=
  value.written world.writtenObject

/-- A value as part of a message. An object with an identifier shows it. -/
def shown (world : World) (value : Value) : String :=
  (value.place?.bind world.identifier?).getD (value.shown world.writtenObject)

def customKey? (world : World) (value : Value) : Option Value :=
  match value.place? with
  | some (.object index) => match world.things[index]?.map Thing.sort with
      | some (.bare _ customKey?) => customKey?
      | _ => none
  | _ => none

/-- The type name of what makes the key of a value unhashable, if it is. -/
def unhashableKey? (world : World) (value : Value) : Option String :=
  (world.customKey? value).bind Value.unhashable?

/-- Whether two values are one object, or one value where they are no objects. -/
def same (left right : Value) : Bool :=
  match left.place?, right.place? with
  | some left, some right => left == right
  | none, none => left.key == right.key
  | _, _ => false

/-- Equality of two nodes: objects with identifiers are equal when these are, whatever they are
otherwise, and any other two only when they are one object. -/
def equalNodes (world : World) (left right : Value) : Bool :=
  match left.place?.bind world.identifier?, right.place?.bind world.identifier? with
  | some left, some right => left == right
  | _, _ => same left right

end World

end TreeQuery
