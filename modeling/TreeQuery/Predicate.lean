/-! # Predicates and traversals

A predicate is a test of one node, built from leaf tests of the caller. A traversal is a predicate
with an axis: used as a step of a path it first moves the frontier along the axis and then tests
the nodes it arrived at. Negation, conjunction and disjunction of a traversal act on its test and
keep its axis, so that two traversals combine only when they share one.

A traversal takes whatever it is given as its test. What is no predicate is kept as a foreign
object, without a label and without an answer, and only the host knows what the operators make of
it.
-/

namespace TreeQuery

/-- The ways in which a traversal moves a frontier. -/
inductive Axis where
  | children
  | descendants
  | allDescendants
  | parent
  | siblings
  | ancestors
  | neighbours
  deriving DecidableEq, Repr

namespace Axis

/-- The name of an axis in labels. Neighbours go by the name of traversals in general. -/
def name : Axis → String
  | children => "children"
  | descendants => "descendants"
  | allDescendants => "all-descendants"
  | parent => "parent"
  | siblings => "siblings"
  | ancestors => "ancestors"
  | neighbours => "traverse"

def method : Axis → String
  | children => "on_children"
  | descendants => "on_descendants"
  | allDescendants => "on_all_descendants"
  | parent => "on_parent"
  | siblings => "on_siblings"
  | ancestors => "on_ancestors"
  | neighbours => "on_neighbours"

def className : Axis → String
  | children => "ChildrenTraversal"
  | descendants => "DescendantsTraversal"
  | allDescendants => "AllDescendantsTraversal"
  | parent => "ParentTraversal"
  | siblings => "SiblingsTraversal"
  | ancestors => "AncestorsTraversal"
  | neighbours => "NeighboursTraversal"

/-- Whether a traversal moves on from where it arrived as long as its test accepts nothing. -/
def deepens : Axis → Bool
  | descendants | ancestors => true
  | _ => false

end Axis

/-- A test of one node. Leaves are the tests that callers bring: a function counts by the truth of
what it returns, a custom test hands on what it returns as it is. A counting test notes each node
it is asked about and passes the question on. A foreign object is no test; it stands where a caller
put it in the place of the test of a traversal, and fails there when it is asked. -/
inductive Predicate (Leaf : Type) where
  | any
  | function (leaf : Leaf) (label : String)
  | custom (leaf : Leaf) (className : String)
  | counting (counter : Nat) (inner : Predicate Leaf) (title? : Option String)
  | negation (inner : Predicate Leaf)
  | conjunction (left right : Predicate Leaf)
  | disjunction (left right : Predicate Leaf)
  | traversal (axis : Axis) (inner : Predicate Leaf)
  | foreign (object : Leaf)
  deriving DecidableEq, Repr

inductive Connective where
  | and
  | or
  deriving DecidableEq, Repr

def Connective.sign : Connective → String
  | and => "&"
  | or => "|"

/-- What a host lays down about its objects that are no tests: which test is made of one that can
be called, with its label, and what negation and the connectives make of such objects. -/
structure ForeignRules (Leaf : Type) where
  test? : Leaf → Option (Leaf × String)
  negation? : Leaf → Option Leaf
  join? : Connective → Leaf → Leaf → Option Leaf

/-- Why an operator could not be applied: two traversals share no axis, an object has no label where
one is wanted, an object knows no negation or nothing to join it with, or it is no step. -/
inductive OperatorError (Leaf : Type) where
  | axisMismatch (left right : String)
  | unlabelled (object : Leaf)
  | noNegation (object : Leaf)
  | noOperator (connective : Connective) (object : Leaf) (other : Predicate Leaf)
  | noStep (object : Leaf)
  deriving Repr

namespace Predicate

variable {Leaf : Type}

/-- The label under which a predicate appears in traces. A foreign object has none, so whatever
quotes the label of one has none either. -/
def label : Predicate Leaf → Except Leaf String
  | any => .ok "*"
  | function _ label => .ok label
  | custom _ className => .ok className
  | counting _ inner title? => match title? with
      | some title => .ok title
      | none => do return "count(" ++ (← inner.label) ++ ")"
  | negation inner => do return "!" ++ (← inner.label)
  | conjunction left right => do return "(" ++ (← left.label) ++ " & " ++ (← right.label) ++ ")"
  | disjunction left right => do return "(" ++ (← left.label) ++ " | " ++ (← right.label) ++ ")"
  | traversal axis inner => do return axis.name ++ ":" ++ (← inner.label)
  | foreign object => .error object

def className : Predicate Leaf → String
  | any => "_AnyPredicate"
  | function _ _ | negation _ | conjunction _ _ | disjunction _ _ => "FunctionPredicate"
  | custom _ className => className
  | counting _ _ _ => "CountingPredicate"
  | traversal axis _ => axis.className
  | foreign _ => "object"

/-- The written form of a predicate: its class name and its label. -/
def written (predicate : Predicate Leaf) : Except Leaf String := do
  return "<" ++ predicate.className ++ " " ++ (← predicate.label) ++ ">"

def axis? : Predicate Leaf → Option Axis
  | traversal axis _ => some axis
  | _ => none

/-- The test of a traversal; any other predicate is its own. -/
def inner : Predicate Leaf → Predicate Leaf
  | traversal _ inner => inner
  | predicate => predicate

def withInner : Predicate Leaf → Predicate Leaf → Predicate Leaf
  | traversal axis _, inner => traversal axis inner
  | predicate, _ => predicate

/-- A predicate that is made together with its label, and not made at all without one. -/
def labelled (predicate : Predicate Leaf) : Except (OperatorError Leaf) (Predicate Leaf) :=
  match predicate.label with
  | .ok _ => .ok predicate
  | .error object => .error (.unlabelled object)

/-- The negation of a predicate, inside its axes if it has some. -/
def not? (rules : ForeignRules Leaf) :
    Predicate Leaf → Except (OperatorError Leaf) (Predicate Leaf)
  | traversal axis inner => traversal axis <$> inner.not? rules
  | foreign object => match rules.negation? object with
      | some negated => .ok (foreign negated)
      | none => .error (.noNegation object)
  | predicate => labelled (negation predicate)

def joined : Connective → Predicate Leaf → Predicate Leaf → Predicate Leaf
  | .and => conjunction
  | .or => disjunction

/-- Joins the innermost test of a predicate with a test on its right. -/
def joinInner (connective : Connective) :
    Predicate Leaf → Predicate Leaf → Except (OperatorError Leaf) (Predicate Leaf)
  | traversal axis inner, other => traversal axis <$> inner.joinInner connective other
  | foreign object, other => .error (.noOperator connective object other)
  | predicate, other => labelled (joined connective predicate other)

/-- The failure of joining two traversals that share no axis, which names them by their labels. -/
def mismatch (left right : Predicate Leaf) : OperatorError Leaf :=
  match left.label, right.label with
  | .ok left, .ok right => .axisMismatch left right
  | .error object, _ | .ok _, .error object => .unlabelled object

/-- The test that a foreign object on the right of a connective is good for. -/
def foreignTest (rules : ForeignRules Leaf) (object : Leaf) :
    Except (OperatorError Leaf) (Predicate Leaf) :=
  match rules.test? object with
  | some (leaf, label) => .ok (function leaf label)
  | none => .error (.noStep object)

/-- Joins two predicates. Traversals of one axis become one traversal of their joined tests, and a
traversal takes another predicate in on the right of its test, on whichever side it stood. -/
def join (rules : ForeignRules Leaf) (connective : Connective) :
    Predicate Leaf → Predicate Leaf → Except (OperatorError Leaf) (Predicate Leaf)
  | traversal axis inner, traversal axis' inner' =>
      if axis = axis' then traversal axis <$> inner.join rules connective inner'
      else .error (mismatch (traversal axis inner) (traversal axis' inner'))
  | traversal axis inner, foreign object => do
      let test ← foreignTest rules object
      traversal axis <$> inner.joinInner connective test
  | traversal axis inner, other => traversal axis <$> inner.joinInner connective other
  | foreign object, foreign other => match rules.join? connective object other with
      | some result => .ok (foreign result)
      | none => .error (.noOperator connective object (foreign other))
  | foreign object, other => .error (.noOperator connective object other)
  | other, traversal axis inner => traversal axis <$> inner.joinInner connective other
  | left, foreign object => do labelled (joined connective left (← foreignTest rules object))
  | left, right => labelled (joined connective left right)

end Predicate

def axisMismatchMessage (left right : String) : String :=
  "cannot combine " ++ left ++ " with " ++ right ++ ": traversals must share an axis"

end TreeQuery
