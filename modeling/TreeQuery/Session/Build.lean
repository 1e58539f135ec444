import TreeQuery.Session.Answer
import TreeQuery.Session.Command

/-! # Building host objects

The commands that make host objects: members of the forest one by one, as trees, as chains and as
wide trees of equal levels, objects outside the forest, and the nodes of parsed programs with the
adapter that follows them.
-/

namespace TreeQuery.Session

def setWorld (world : World) : Act Unit :=
  modify fun session => { session with world }

/-- The position of a member. Anything else lacks the attribute that was wanted of it. -/
def memberFor (wanted : String) (node : Value) : Act Nat :=
  match node.place? with
  | some (.member index) => pure index
  | _ => do fail (.noAttribute ((← get).world.typeName node) wanted)

/-- The failure of attaching a child. Objects are shown as they are by then. -/
def refuseChild {α : Type} (refused : AttachError) : Act α := do
  let world := (← get).world
  match refused with
  | .attached child parent =>
      fail (.alreadyAttached (world.written child) (world.written parent))
  | .parentless child => fail (.noAttribute (world.typeName child) "parent")

/-- Plants a member under a tag and attaches children to it. Its name and its kind are objects. -/
def plantMember (tag : String) (name kind : Value) (identifier? : Option String)
    (attributes : List (String × Value)) (children : List Value) : Act Nat := do
  let (world, outcome) := (← get).world.plant name kind identifier? attributes children
  setWorld world
  match outcome with
  | .ok index =>
      bindTag tag (world.member index)
      return index
  | .error refused => refuseChild refused

def attachChild (parent : Nat) (child : Value) : Act Unit := do
  match (← get).world.attach parent child with
  | .ok world => setWorld world
  | .error refused => refuseChild refused

/-- Plants a member without children, and attaches it to another. -/
def growMember (tag : String) (name kind : Value) (parent : Nat) : Act Nat := do
  let child ← plantMember tag name kind none [] []
  attachChild parent ((← get).world.member child)
  return child

mutual

/-- Plants a tree of members, the children of each before itself. -/
def plantTree : TreeExpr → Act Value
  | .node tag name kind children => do
      let children ← plantTrees children
      let index ← plantMember tag (← newObject name) (← newObject kind) none [] children
      return (← get).world.member index

def plantTrees : List TreeExpr → Act (List Value)
  | [] => pure []
  | tree :: rest => do
      let root ← plantTree tree
      return root :: (← plantTrees rest)

end

def identifierOf (node : Value) : Act String := do
  return (node.place?.bind (← get).world.identifier?).getD ""

/-- Plants members of which each is the child of the one before. All are of one kind. -/
def plantChain (as : String) (length : Nat) (kind : Value) : Act Value := do
  let kind ← newObject kind
  let named (index : Nat) : Act Value := newObject (.text ("n" ++ toString index))
  let first ← plantMember (as ++ "0") (← named 0) kind none [] []
  let last ← (List.range (length - 1)).foldlM (fun parent index => do
    growMember (as ++ toString (index + 1)) (← named (index + 1)) kind parent) first
  return (← get).world.member last

/-- Plants a root and under it level after level of members, each with equally many children. The
tags count all members on the way. -/
def plantLevels (as : String) (fanout depth : Nat) : Act Value := do
  let root ← plantMember (as ++ "0") (← newObject (.text "root")) .null none [] []
  let (_, _, last) ← (List.range depth).foldlM (fun (above, count, last) level => do
    let (grown, count, last) ← above.foldlM (fun (grown, count, last) parent =>
      (List.range fanout).foldlM (fun (grown, count, _) index => do
        let name ← newObject (.text ("d" ++ toString (level + 1) ++ "-" ++ toString index))
        let child ← growMember (as ++ toString count) name .null parent
        return (child :: grown, count + 1, child)) (grown, count, last))
      (([] : List Nat), count, last)
    return (grown.reverse, count, last)) ([root], 1, root)
  return (← get).world.member last

/-- Puts an object outside the forest under a tag. -/
def putThing (tag : String) (thing : Thing) : Act Value := do
  let (world, node) := (← get).world.addThing thing
  setWorld world
  bindTag tag node
  return node

/-- The fields of syntax nodes whose texts are no names. -/
def plainTextFields : List String := ["value", "type_comment"]

/-- Puts a new syntax node into the world, and under a tag if it has one. -/
def putParsed (tag? : Option String) (kind : SyntaxClass) (attributes : List (String × Value)) :
    Act Value := do
  let (world, node) := (← get).world.addThing ⟨.parsed kind, attributes⟩
  setWorld world
  match tag? with
  | some tag => bindTag tag node
  | none => pure ()
  return node

mutual

/-- Builds what a field of a syntax node holds, and all nodes in it. In a program that is read from
its source, all occurrences of a name are one object, and so are all shared leaves of one class. -/
def buildField (fromSource isName : Bool) : SyntaxExpr → Act Value
  | .null => pure .null
  | .text text => if isName then pure (.interned text) else newObject (.text text)
  | .literal written => newObject (.ofWritten written)
  | .reference tag => node (some tag)
  | .list items => do newObject (.list (← buildFields fromSource isName items))
  | .node tag? className fields => do
      let attributes ← buildEntries fromSource fields
      let kind := SyntaxClass.standard className
      let isShared := fromSource && tag?.isNone && kind.isSharedLeaf
      match isShared, (← get).world.firstParsed? kind with
      | true, some leaf => return leaf
      | _, _ => putParsed tag? kind attributes

def buildFields (fromSource isName : Bool) : List SyntaxExpr → Act (List Value)
  | [] => pure []
  | item :: rest => do
      let value ← buildField fromSource isName item
      return value :: (← buildFields fromSource isName rest)

def buildEntries (fromSource : Bool) : List (String × SyntaxExpr) → Act (List (String × Value))
  | [] => pure []
  | (name, field) :: rest => do
      let isName := fromSource && !plainTextFields.contains name
      let value ← buildField fromSource isName field
      return (name, value) :: (← buildEntries fromSource rest)

end

/-- What an attribute is set to. Whatever is no node is a new object. -/
def evalAttribute : AttributeExpr → Act Value
  | .node tag? => node tag?
  | .nodes tags => do newObject (.list (← tags.mapM node))
  | .tuple tags => do newObject (.tuple (← tags.mapM node))
  | .value value => newObject value

/-- Sets attributes of an object outside the forest, one after the other. -/
def setAttributes (node : Value) (attributes : List (String × AttributeExpr)) : Act Unit :=
  attributes.forM fun (name, expression) => do
    let value ← evalAttribute expression
    match node.place? with
    | some (.object index) => setWorld ((← get).world.setAttribute index name value)
    | _ => fail (.noAttribute ((← get).world.typeName node) name)

end TreeQuery.Session
