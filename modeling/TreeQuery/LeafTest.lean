import TreeQuery.Foreign
import TreeQuery.Pattern.Parser

/-! # Leaf tests

The tests at the leaves of the predicates of a session: functions that the host brings, tests of
the name and the kind of a node, and tests of the class and the name of a syntax node. What a leaf
answers depends on what the attributes of the node hold when it is asked. A foreign object in the
place of a leaf has no answer.
-/

namespace TreeQuery

/-- A test at the leaf of a predicate. -/
inductive LeafTest where
  | function (host : HostFunction Value)
  | attributeIn (name : String) (wanted : List String)
  | nameMatches (pattern : Pattern)
  | classIn (names : List String)
  | syntaxNameIn (wanted : List String)
  | foreign (object : Foreign)
  deriving Repr

/-- The attributes that may hold the name of a syntax node, in the order in which they count. -/
def syntaxNameFields : List String := ["name", "id", "arg", "attr", "module"]

/-- The name of a syntax node: the first text among the attributes that may hold it. -/
def World.syntaxName? (world : World) (node : Value) : Option String :=
  syntaxNameFields.findSome? fun field => (world.attributeOf node field).text?

/-- What a leaf answers about a node. An attribute that cannot be hashed cannot be looked up, and a
foreign object is told by its type name. -/
def LeafTest.answer (world : World) (foreignType : Foreign → String) :
    LeafTest → Value → Except Failure Value
  | function host, node => host.call world node
  | attributeIn name wanted, node =>
      let value := world.attributeOf node name
      match value.unhashable? with
      | some typeName => .error (.unhashable typeName)
      | none => .ok (.bool (value.text?.any wanted.contains))
  | nameMatches pattern, node =>
      .ok (.bool ((world.attributeOf node "name").text?.any pattern.occursIn))
  | classIn names, node => .ok (.bool (names.contains (world.typeName node)))
  | syntaxNameIn wanted, node => .ok (.bool ((world.syntaxName? node).any wanted.contains))
  | foreign object, _ => .error (.noAttribute (foreignType object) "test")

def LeafTest.foreign? : LeafTest → Option Foreign
  | foreign object => some object
  | _ => none

def LeafTest.foreignRules : ForeignRules LeafTest where
  test? leaf := match leaf with
    | foreign (.function _ host) => some (function host, host.label)
    | _ => none
  negation? leaf := leaf.foreign?.bind fun object => foreign <$> object.complement?
  join? connective left right := do
    return foreign (← Foreign.join? connective (← left.foreign?) (← right.foreign?))

namespace Predicate

/-- The texts of a list of values joined by bars. All values have to be hashed first; then each has
to be a text. -/
def joinTexts (values : List Value) : Except Failure (List String × String) :=
  match Value.unhashableItem? values with
  | some typeName => .error (.unhashable typeName)
  | none =>
      match values.zipIdx.find? fun entry => entry.1.text?.isNone with
      | some (value, index) => .error (.notText index (value.typeName fun _ => "object"))
      | none =>
          let texts := values.filterMap Value.text?
          .ok (texts, "|".intercalate texts)

def attributeIs (name : String) (values : List Value) : Except Failure (Predicate LeafTest) := do
  let (wanted, joined) ← joinTexts values
  return .function (.attributeIn name wanted) (name ++ "=" ++ joined)

def syntaxNameIs (values : List Value) : Except Failure (Predicate LeafTest) := do
  let (wanted, joined) ← joinTexts values
  return .function (.syntaxNameIn wanted) ("name=" ++ joined)

def nameMatches (text : String) : Except Failure (Predicate LeafTest) :=
  match Pattern.parse? text with
  | some pattern => .ok (.function (.nameMatches pattern) ("name~/" ++ text ++ "/"))
  | none => .error .invalidPattern

/-- The test whether the class of a node has one of the given names. The label lists each name
once, in the order of code points. -/
def classIs (names : List String) : Predicate LeafTest :=
  let sorted := names.eraseDups.mergeSort fun left right => decide (left ≤ right)
  .function (.classIn names) ("kind=" ++ "|".intercalate sorted)

/-- The test by a function of the host, under a label of its own if that is not empty. -/
def ofFunction (function : HostFunction Value) (label? : Option String) : Predicate LeafTest :=
  .function (.function function) ((label?.filter (!·.isEmpty)).getD function.label)

end Predicate

end TreeQuery
