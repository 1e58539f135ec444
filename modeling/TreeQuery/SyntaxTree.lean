import TreeQuery.Host

/-! # Syntax trees

The nodes of a parsed program know the nodes in their fields and nothing above them. Leaves that
stand for an operator or a context are one object each, whatever the number of their owners, so
they belong to nobody and do not count as children. They are told by their class, or by a class
that theirs is derived from. Parents are indexed once: a breadth-first walk over all nodes, shared
leaves included, records each node as the parent of its children. A node with several owners is
walked at each place, and the owner walked last is its parent.
-/

namespace TreeQuery

/-- A class of syntax nodes. Its lineage is made of the classes of the grammar that its instances
belong to: itself, if it is one of them, and those that it is derived from. -/
structure SyntaxClass where
  name : String
  lineage : List String
  deriving DecidableEq, Repr

namespace SyntaxClass

/-- The classes of contexts and operators, with the classes that the grammar derives from each. -/
def families : List (String × List String) :=
  [("expr_context", ["Load", "Store", "Del", "AugLoad", "AugStore", "Param"]),
   ("boolop", ["And", "Or"]),
   ("operator", ["Add", "Sub", "Mult", "MatMult", "Div", "Mod", "Pow", "LShift", "RShift", "BitOr",
     "BitXor", "BitAnd", "FloorDiv"]),
   ("unaryop", ["Invert", "Not", "UAdd", "USub"]),
   ("cmpop", ["Eq", "NotEq", "Lt", "LtE", "Gt", "GtE", "Is", "IsNot", "In", "NotIn"])]

/-- A class of the grammar. Other families are left out of its lineage, since nobody asks for
them. -/
def standard (name : String) : SyntaxClass where
  name := name
  lineage := name :: (families.filter fun family => family.2.contains name).map Prod.fst

/-- A class from outside the grammar that is derived from others. -/
def derived (name : String) (bases : List SyntaxClass) : SyntaxClass where
  name := name
  lineage := bases.flatMap lineage

/-- The classes of the grammar whose instances are shared by all who use them. -/
def sharedLeafTypes : List String := ["expr_context", "boolop", "operator", "unaryop", "cmpop"]

/-- Whether the instances of a class stand for a context or an operator. -/
def isSharedLeaf (kind : SyntaxClass) : Bool :=
  kind.lineage.any sharedLeafTypes.contains

/-- A class stands for contexts or operators as soon as one does that it is derived from, whatever
its name. -/
theorem isSharedLeaf_derived (name : String) (bases : List SyntaxClass) :
    (derived name bases).isSharedLeaf = bases.any isSharedLeaf := by
  rw [isSharedLeaf, derived, List.any_flatMap]
  rfl

end SyntaxClass

/-- Syntax nodes by what their fields hold: all nodes of the fields in order, and which nodes are
shared leaves. -/
structure SyntaxGraph (Node : Type) where
  fields : Node → List Node
  isShared : Node → Bool

namespace SyntaxGraph

variable {Node : Type}

def children (graph : SyntaxGraph Node) (node : Node) : List Node :=
  (graph.fields node).filter fun child => !graph.isShared child

/-- The nodes of a generation and of those below it, generation by generation, down to a depth. -/
def generations (graph : SyntaxGraph Node) : Nat → List Node → List Node
  | 0, _ => []
  | _ + 1, [] => []
  | depth + 1, node :: rest =>
      (node :: rest) ++ graph.generations depth ((node :: rest).flatMap graph.fields)

/-- The breadth-first walk from a root, down to a depth. A node is met once for each way that leads
to it. -/
def walk (graph : SyntaxGraph Node) (depth : Nat) (root : Node) : List Node :=
  graph.generations depth [root]

/-- All pairs of a child and its owner, in the order in which a walk from the root meets them. -/
def ownership (graph : SyntaxGraph Node) (depth : Nat) (root : Node) : List (Node × Node) :=
  (graph.walk depth root).flatMap fun owner =>
    (graph.children owner).map fun child => (child, owner)

variable [Keyed Node] {Failure : Type}

/-- The owner paired last with a node, if there is one. -/
def lastOwner? (pairs : List (Node × Node)) (node : Node) : Option Node :=
  (pairs.reverse.find? fun pair => Keyed.key pair.1 = Keyed.key node).map Prod.snd

/-- The tree of syntax nodes with the parents that an index names. A node that is not part of any
program fails to list its fields. -/
def host (graph : SyntaxGraph Node) (patience : Nat) (foreign? : Node → Option (Fault Failure))
    (pairs : List (Node × Node)) : Host Node Failure :=
  .ofLinks patience
    (fun node => match foreign? node with
      | some fault => .failed fault
      | none => ⟨graph.children node, none⟩)
    fun node => .ok (lastOwner? pairs node)

end SyntaxGraph

end TreeQuery
