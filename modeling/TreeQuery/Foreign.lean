import TreeQuery.Adapter
import TreeQuery.HostFunction

/-! # Foreign objects

Where a test, a step or a path is wanted, a caller may put anything: a function, a path where no
path belongs, a collection, an adapter, a configuration, a context or a value. Such objects are kept
as they are and fail when they are used. The operators know some of them: a function becomes a test,
whole numbers are joined bit by bit, and mappings are merged.
-/

namespace TreeQuery

/-- An object that is no predicate. Paths, collections, configurations and contexts are known by
their positions; functions and adapters have identities, and a value brings its own. -/
inductive Foreign where
  | function (identity : Nat) (host : HostFunction Value)
  | path (index : Nat)
  | collection (index : Nat)
  | adapter (identity : Nat) (adapter : Adapter)
  | config (index : Nat)
  | context (index : Nat)
  | value (value : Value)
  deriving Repr

def Adapter.typeName : Adapter → String
  | attributes _ _ => "AttributeTreeAdapter"
  | table _ _ => "MapAdapter"
  | parsedTree _ => "AstTreeAdapter"
  | limited typeName _ => typeName

namespace Foreign

def same : Foreign → Foreign → Bool
  | function left _, function right _ | adapter left _, adapter right _ => left == right
  | path left, path right | collection left, collection right => left == right
  | config left, config right | context left, context right => left == right
  | value left, value right => World.same left right
  | _, _ => false

/-- The join of two whole numbers bit by bit. The bits of a number below zero are those of its
complement, turned over. -/
def joinBits (connective : Connective) : Int → Int → Int
  | .ofNat left, .ofNat right => match connective with
      | .and => .ofNat (left &&& right)
      | .or => .ofNat (left ||| right)
  | .ofNat left, .negSucc right => match connective with
      | .and => .ofNat (left - (left &&& right))
      | .or => .negSucc (right - (right &&& left))
  | .negSucc left, .ofNat right => match connective with
      | .and => .ofNat (right - (right &&& left))
      | .or => .negSucc (left - (left &&& right))
  | .negSucc left, .negSucc right => match connective with
      | .and => .negSucc (left ||| right)
      | .or => .negSucc (left &&& right)

/-- The join of two values. Truth values make a truth value, whole numbers a whole number, and of
two mappings the right one is written over the left one. -/
def joinValues (connective : Connective) (left right : Value) : Option Value :=
  match connective, left.content, right.content with
  | .and, .bool left, .bool right => some (.bool (left && right))
  | .or, .bool left, .bool right => some (.bool (left || right))
  | .or, .dict left, .dict right =>
      some (.dict (right.foldl (fun entries entry => setEntry entry.1 entry.2 entries) left))
  | _, _, _ => match left.int?, right.int? with
      | some left, some right => some (.int (joinBits connective left right))
      | _, _ => none

/-- The complement of a whole number, as which a truth value counts too. -/
def complement? : Foreign → Option Foreign
  | value number => number.int?.map fun whole => value (.int (-whole - 1))
  | _ => none

/-- The join of two foreign objects, of which only values have one. -/
def join? (connective : Connective) : Foreign → Foreign → Option Foreign
  | value left, value right => value <$> joinValues connective left right
  | _, _ => none

end Foreign

end TreeQuery
