import TreeQuery.Index

/-! # Frontiers

A frontier is the working set of a navigation: nodes in the order in which they were found, no two
of them with one key. A node that arrives later with a key that is there already is dropped, so the
first node of each key stands for all of them.
-/

namespace TreeQuery

/-- Nodes that are told apart by a key. -/
class Keyed (Node : Type) where
  Key : Type
  [decidableKey : DecidableEq Key]
  [codedKey : Coded Key]
  key : Node → Key

instance Keyed.decidableEqKey (Node : Type) [Keyed Node] : DecidableEq (Keyed.Key Node) :=
  Keyed.decidableKey

instance Keyed.coded (Node : Type) [Keyed Node] : Coded (Keyed.Key Node) :=
  Keyed.codedKey

/-- Nodes in the order of their discovery, told apart by their keys. -/
structure Frontier (Node : Type) [Keyed Node] where
  nodes : List Node
  distinct : (nodes.map Keyed.key).Nodup

namespace Frontier

variable {Node : Type} [Keyed Node]

/-- The nodes of a list whose keys have not been seen, for each key the first node only. -/
def fresh (seen : List (Keyed.Key Node)) : List Node → List Node
  | [] => []
  | node :: rest =>
      if Keyed.key node ∈ seen then fresh seen rest
      else node :: fresh (Keyed.key node :: seen) rest

/-- Fresh nodes come from the list. -/
theorem mem_of_mem_fresh {seen : List (Keyed.Key Node)} {nodes : List Node} {node : Node}
    (member : node ∈ fresh seen nodes) : node ∈ nodes := by
  induction nodes generalizing seen with
  | nil => exact member
  | cons first rest ih =>
      rw [fresh] at member
      split at member
      · exact List.mem_cons_of_mem _ (ih member)
      · rcases List.mem_cons.mp member with same | later
        · exact same ▸ List.mem_cons_self
        · exact List.mem_cons_of_mem _ (ih later)

/-- A fresh node has a key that was not seen before. -/
theorem key_notMem_of_mem_fresh {seen : List (Keyed.Key Node)} {nodes : List Node} {node : Node}
    (member : node ∈ fresh seen nodes) : Keyed.key node ∉ seen := by
  induction nodes generalizing seen with
  | nil => simp [fresh] at member
  | cons first rest ih =>
      rw [fresh] at member
      split at member
      · exact ih member
      · next unseen =>
        rcases List.mem_cons.mp member with same | later
        · exact same ▸ unseen
        · exact fun old => ih later (List.mem_cons_of_mem _ old)

/-- No two fresh nodes share a key. -/
theorem nodup_fresh (seen : List (Keyed.Key Node)) (nodes : List Node) :
    ((fresh seen nodes).map Keyed.key).Nodup := by
  induction nodes generalizing seen with
  | nil => simp [fresh]
  | cons first rest ih =>
      rw [fresh]
      split
      · exact ih seen
      · rw [List.map_cons, List.nodup_cons]
        refine ⟨fun repeated => ?_, ih _⟩
        obtain ⟨node, member, same⟩ := List.mem_map.mp repeated
        exact key_notMem_of_mem_fresh member (same ▸ List.mem_cons_self)

/-- The fresh nodes of a list, where the keys seen are looked up in an index. -/
def freshIn (seen : Index (Keyed.Key Node) Unit) : List Node → List Node
  | [] => []
  | node :: rest =>
      if seen.contains (Keyed.key node) then freshIn seen rest
      else node :: freshIn (seen.insert (Keyed.key node) ()) rest

/-- An index of the keys seen finds the fresh nodes. -/
theorem freshIn_eq_fresh {index : Index (Keyed.Key Node) Unit} {seen : List (Keyed.Key Node)}
    (indexed : ∀ key, index.contains key = decide (key ∈ seen)) (nodes : List Node) :
    freshIn index nodes = fresh seen nodes := by
  induction nodes generalizing index seen with
  | nil => rfl
  | cons node rest ih =>
      rw [freshIn, fresh, indexed]
      by_cases member : Keyed.key node ∈ seen
      · simp only [member, decide_true, ↓reduceIte, ih indexed]
      · have grown : ∀ key, (index.insert (Keyed.key node) ()).contains key =
            decide (key ∈ Keyed.key node :: seen) := fun key => by
          rw [Index.contains_insert, indexed, ← Bool.decide_or]
          exact decide_eq_decide.mpr List.mem_cons.symm
        simp only [member, decide_false, Bool.false_eq_true, ↓reduceIte, ih grown]

/-- A frontier is nothing more than its nodes. -/
@[ext] theorem ext_nodes {left right : Frontier Node} (same : left.nodes = right.nodes) :
    left = right := by
  cases left
  cases right
  cases same
  rfl

/-- The frontier without a node. -/
def empty : Frontier Node := ⟨[], by simp⟩

instance : EmptyCollection (Frontier Node) := ⟨empty⟩

instance : Inhabited (Frontier Node) := ⟨empty⟩

/-- The keys of the nodes, in the order of the nodes. -/
def keys (frontier : Frontier Node) : List (Keyed.Key Node) := frontier.nodes.map Keyed.key

/-- Whether there is no node. -/
def isEmpty (frontier : Frontier Node) : Bool := frontier.nodes.isEmpty

/-- The number of nodes, which is that of their keys. -/
def size (frontier : Frontier Node) : Nat := frontier.nodes.length

/-- The node found first, if there is one. -/
def first? (frontier : Frontier Node) : Option Node := frontier.nodes.head?

/-- Whether the key of a node is there, be it the key of another node. -/
def contains (frontier : Frontier Node) (node : Node) : Bool :=
  frontier.keys.contains (Keyed.key node)

/-- Adds the nodes of a list in order, each unless its key is there already. -/
def insertAll (frontier : Frontier Node) (nodes : List Node) : Frontier Node where
  nodes := frontier.nodes ++
    freshIn (.ofKeys (frontier.size + nodes.length) frontier.keys) nodes
  distinct := by
    rw [freshIn_eq_fresh (Index.contains_ofKeys _ _), List.map_append, List.nodup_append]
    refine ⟨frontier.distinct, nodup_fresh _ _, ?_⟩
    rintro key old _ recent rfl
    obtain ⟨node, member, same⟩ := List.mem_map.mp recent
    exact key_notMem_of_mem_fresh member (same ▸ old)

/-- Adds one node unless its key is there already. -/
def insert (frontier : Frontier Node) (node : Node) : Frontier Node :=
  frontier.insertAll [node]

/-- The frontier of the nodes of a list, for each key the first of its nodes. -/
def ofList (nodes : List Node) : Frontier Node := empty.insertAll nodes

/-- The nodes of a frontier that pass a test, in order. -/
def filter (frontier : Frontier Node) (accepts : Node → Bool) : Frontier Node where
  nodes := frontier.nodes.filter accepts
  distinct := frontier.distinct.sublist (List.filter_sublist.map _)

/-- Takes the nodes out whose keys occur in a list of nodes. -/
def removeAll (frontier : Frontier Node) (nodes : List Node) : Frontier Node :=
  let gone := Index.ofKeys nodes.length (nodes.map Keyed.key)
  frontier.filter fun node => !gone.contains (Keyed.key node)

/-- The elements of a list at the positions of the true verdicts. -/
def accepted {α : Type} : List α → List Bool → List α
  | element :: rest, verdict :: verdicts =>
      if verdict then element :: accepted rest verdicts else accepted rest verdicts
  | _, _ => []

/-- Choosing by verdicts keeps the order, also if there are too few verdicts. -/
theorem accepted_sublist {α : Type} (elements : List α) (verdicts : List Bool) :
    (accepted elements verdicts).Sublist elements := by
  induction elements generalizing verdicts with
  | nil => cases verdicts <;> exact List.Sublist.refl _
  | cons element rest ih =>
      cases verdicts with
      | nil => exact List.nil_sublist _
      | cons verdict verdicts =>
          rw [accepted]
          split
          · exact (ih verdicts).cons_cons element
          · exact (ih verdicts).cons element

/-- Choosing by the verdicts of a test on each element is filtering. -/
theorem accepted_map {α : Type} (elements : List α) (accepts : α → Bool) :
    accepted elements (elements.map accepts) = elements.filter accepts := by
  induction elements with
  | nil => rfl
  | cons element rest ih =>
      rw [List.map_cons, accepted, List.filter_cons, ih]

/-- The nodes of a frontier at the positions of the true verdicts. -/
def select (frontier : Frontier Node) (verdicts : List Bool) : Frontier Node where
  nodes := accepted frontier.nodes verdicts
  distinct := frontier.distinct.sublist ((accepted_sublist _ _).map _)

@[simp] theorem nodes_empty : (∅ : Frontier Node).nodes = [] := rfl

/-- Nodes are added behind those that are there. -/
@[simp] theorem nodes_insertAll (frontier : Frontier Node) (nodes : List Node) :
    (frontier.insertAll nodes).nodes = frontier.nodes ++ fresh frontier.keys nodes :=
  congrArg (frontier.nodes ++ ·) (freshIn_eq_fresh (Index.contains_ofKeys _ _) nodes)

@[simp] theorem nodes_ofList (nodes : List Node) : (ofList nodes).nodes = fresh [] nodes :=
  nodes_insertAll empty nodes

@[simp] theorem nodes_filter (frontier : Frontier Node) (accepts : Node → Bool) :
    (frontier.filter accepts).nodes = frontier.nodes.filter accepts := rfl

/-- Whether a node is taken out depends on its key alone. -/
@[simp] theorem nodes_removeAll (frontier : Frontier Node) (nodes : List Node) :
    (frontier.removeAll nodes).nodes =
      frontier.nodes.filter fun node => !(nodes.map Keyed.key).contains (Keyed.key node) := by
  simp only [removeAll, nodes_filter, Index.contains_ofKeys, List.contains_eq_mem]

@[simp] theorem nodes_select (frontier : Frontier Node) (verdicts : List Bool) :
    (frontier.select verdicts).nodes = accepted frontier.nodes verdicts := rfl

/-- Only the empty frontier has no node. -/
theorem isEmpty_iff {frontier : Frontier Node} :
    frontier.isEmpty = true ↔ frontier = ∅ := by
  rw [isEmpty, List.isEmpty_iff]
  exact ⟨fun none => ext_nodes none, fun same => same ▸ rfl⟩

end Frontier

end TreeQuery
