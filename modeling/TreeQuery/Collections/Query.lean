import TreeQuery.Collections
import TreeQuery.Navigation

/-! # Queries on collections

A query reads collections and hands out its result as a collection: the shared empty one when
nothing was found, and a new one otherwise. It changes no collection that was there before.
-/

namespace TreeQuery.Collections

variable {Node Leaf Failure : Type} [Keyed Node]

/-- The nodes of a collection that pass a test. The shared empty collection is its own result. -/
def filterRun (accepts : Node → Run Node Leaf Failure Bool) (collections : Collections Node)
    (index : Nat) : Run Node Leaf Failure (Collections Node × Nat) := do
  if index = shared then return (collections, shared)
  else
    let found ← (collections.get index).filterRun accepts
    return collections.result found

/-- What a program finds from the nodes of an argument. -/
def navigate (program : Program Node Leaf Failure) (collections : Collections Node)
    (source : NodeSource Node) : Run Node Leaf Failure (Collections Node × Nat) := do
  let found ← program (Frontier.ofList (collections.listed source))
  return collections.result found

end TreeQuery.Collections
