import TreeQuery.Frontier

/-! # Collections

Collections are frontiers that live as objects and may change. One of them is the empty collection
that every operation without a result hands out: it never gains a node. Adding to it is refused,
while taking nodes out of it is harmless. Taking the nodes of a collection out of the collection
itself fails as soon as the first one is gone, because the listing of its nodes notices the change.
-/

namespace TreeQuery

variable {Node : Type} [Keyed Node]

/-- All collections, each known by its position. The first is the shared empty one. -/
structure Collections (Node : Type) [Keyed Node] where
  frontiers : Array (Frontier Node) := #[∅]

/-- Why a collection did not do what it was asked to. -/
inductive CollectionError where
  | immutable
  | changedWhileListed
  deriving DecidableEq, Repr

/-- The message of what can go wrong with a collection. -/
def CollectionError.message : CollectionError → String
  | .immutable => "EMPTY node collection is immutable"
  | .changedWhileListed => "dictionary changed size during iteration"

/-- Where the nodes of an argument come from: a list, or a collection that is listed on the way. -/
inductive NodeSource (Node : Type) where
  | list (nodes : List Node)
  | collection (index : Nat)
  deriving Repr

namespace Collections

/-- The position of the shared empty collection. -/
def shared : Nat := 0

/-- The nodes of a collection. -/
def get (collections : Collections Node) (index : Nat) : Frontier Node :=
  collections.frontiers[index]?.getD ∅

/-- Replaces the nodes of a collection. -/
def put (collections : Collections Node) (index : Nat) (frontier : Frontier Node) :
    Collections Node :=
  { frontiers := collections.frontiers.setIfInBounds index frontier }

/-- Makes a further collection. -/
def create (collections : Collections Node) (frontier : Frontier Node) :
    Collections Node × Nat :=
  ({ frontiers := collections.frontiers.push frontier }, collections.frontiers.size)

/-- Hands out a result: the shared empty collection for no nodes and a new one for some. -/
def result (collections : Collections Node) (frontier : Frontier Node) :
    Collections Node × Nat :=
  if frontier.isEmpty then (collections, shared) else collections.create frontier

/-- The nodes that an argument lists. -/
def listed (collections : Collections Node) : NodeSource Node → List Node
  | .list nodes => nodes
  | .collection index => (collections.get index).nodes

/-- Adds a node and tells whether it was new. -/
def add (collections : Collections Node) (index : Nat) (node : Node) :
    Except CollectionError (Collections Node × Bool) :=
  if index = shared then .error .immutable
  else
    let frontier := collections.get index
    .ok (collections.put index (frontier.insert node), !frontier.contains node)

/-- Adds nodes and tells whether one was new. -/
def addAll (collections : Collections Node) (index : Nat) (source : NodeSource Node) :
    Except CollectionError (Collections Node × Bool) :=
  let nodes := collections.listed source
  if index = shared then
    if nodes.isEmpty then .ok (collections, false) else .error .immutable
  else
    let frontier := collections.get index
    let grown := frontier.insertAll nodes
    .ok (collections.put index grown, grown.size != frontier.size)

/-- Takes nodes out and tells whether one was there. The collections come out in any case, since a
collection that is its own argument loses its first node before the failure. -/
def removeAll (collections : Collections Node) (index : Nat) (source : NodeSource Node) :
    Collections Node × Except CollectionError Bool :=
  let frontier := collections.get index
  let remove (nodes : List Node) : Collections Node × Bool :=
    let rest := frontier.removeAll nodes
    (collections.put index rest, rest.size != frontier.size)
  match source with
  | .list nodes =>
      let (changed, removed) := remove nodes
      (changed, .ok removed)
  | .collection argument =>
      if argument = index then
        match frontier.first? with
        | some first => ((remove [first]).1, .error .changedWhileListed)
        | none => (collections, .ok false)
      else
        let (changed, removed) := remove (collections.get argument).nodes
        (changed, .ok removed)

/-- A new collection with the nodes of a collection and those of an argument behind them. -/
def union (collections : Collections Node) (index : Nat) (source : NodeSource Node) :
    Collections Node × Nat :=
  collections.create ((collections.get index).insertAll (collections.listed source))

/-- A new collection with the nodes of one that are not among those of an argument. -/
def difference (collections : Collections Node) (index : Nat) (source : NodeSource Node) :
    Collections Node × Nat :=
  collections.create ((collections.get index).removeAll (collections.listed source))

/-- A collection has the nodes put into it. -/
theorem get_put_self (collections : Collections Node) {index : Nat} (frontier : Frontier Node)
    (present : index < collections.frontiers.size) :
    (collections.put index frontier).get index = frontier := by
  simp [get, put, present]

/-- Nodes that are put into a collection change no other one. -/
theorem get_put_of_ne (collections : Collections Node) {index other : Nat}
    (frontier : Frontier Node) (apart : index ≠ other) :
    (collections.put index frontier).get other = collections.get other := by
  simp [get, put, apart]

/-- A new collection has the nodes it was made with. -/
@[simp] theorem get_create_self (collections : Collections Node) (frontier : Frontier Node) :
    (collections.create frontier).1.get (collections.create frontier).2 = frontier := by
  simp [get, create]

/-- A new collection leaves the old ones their nodes. -/
theorem get_create_of_lt (collections : Collections Node) {index : Nat}
    (frontier : Frontier Node) (present : index < collections.frontiers.size) :
    (collections.create frontier).1.get index = collections.get index := by
  simp [get, create, Array.getElem?_push_lt, present]

end Collections

end TreeQuery
