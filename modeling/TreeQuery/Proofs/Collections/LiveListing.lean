import TreeQuery.Proofs.Collections.KeyedSet

/-! # Collections as their own arguments

The nodes of an argument are taken one by one while the collection changes, and a collection that is
its own argument is listed while it changes. A loop over nodes that are looked up when they are due
breaks off as soon as their number is another than at the start. Operations come out as these loops
do, whatever their arguments (`TreeQuery.Collections.addAll_loops`,
`TreeQuery.Collections.removeAll_loops`). With itself as its argument a collection does as with a
list of its nodes, except that a collection with a node cannot be taken out of itself
(`TreeQuery.Collections.WellFormed.own_arguments`).
-/

namespace TreeQuery

namespace Frontier

variable {Node : Type} [Keyed Node]

/-- Nodes are added one after the other. -/
theorem foldl_insert (frontier : Frontier Node) (nodes : List Node) :
    nodes.foldl insert frontier = frontier.insertAll nodes := by
  induction nodes generalizing frontier with
  | nil => exact (insertAll_nil frontier).symm
  | cons node rest ih =>
      rw [List.foldl_cons, ih, insert, insertAll_insertAll, List.singleton_append]

/-- Takes out the node that has the key of the given one. -/
def remove (frontier : Frontier Node) (node : Node) : Frontier Node :=
  frontier.removeAll [node]

/-- Nodes are taken out one after the other. -/
theorem foldl_remove (frontier : Frontier Node) (nodes : List Node) :
    nodes.foldl remove frontier = frontier.removeAll nodes := by
  induction nodes generalizing frontier with
  | nil => exact (removeAll_nil frontier).symm
  | cons node rest ih =>
      rw [List.foldl_cons, ih, remove, removeAll_removeAll, List.singleton_append]

theorem nodes_remove_first {frontier : Frontier Node} {first : Node} {rest : List Node}
    (whole : frontier.nodes = first :: rest) : (frontier.remove first).nodes = rest := by
  have distinct := frontier.distinct
  rw [whole, List.map_cons, List.nodup_cons] at distinct
  rw [remove, nodes_removeAll_eq_without, whole, List.map_singleton,
    without_cons_of_mem _ List.mem_cons_self]
  apply List.filter_eq_self.mpr
  intro node member
  have other : Keyed.key node ≠ Keyed.key first := fun same =>
    distinct.1 (same ▸ List.mem_map_of_mem member)
  simpa using other

end Frontier

namespace Collections

variable {Node : Type} [Keyed Node]

theorem put_get (collections : Collections Node) {index : Nat}
    (present : index < collections.frontiers.size) :
    collections.put index (collections.get index) = collections := by
  rcases collections with ⟨frontiers⟩
  have entry : frontiers[index]?.getD ∅ = frontiers[index] := by
    rw [Array.getElem?_eq_getElem present]
    rfl
  rw [put, get, mk.injEq, Array.setIfInBounds, dif_pos present, entry, Array.set_getElem_self]

theorem put_put (collections : Collections Node) (index : Nat) (first second : Frontier Node) :
    (collections.put index first).put index second = collections.put index second := by
  rw [put, put, put, Array.setIfInBounds_setIfInBounds]

/-- A loop that changes the collection at a position by the nodes of an argument, from one of them
on. Each node is looked up when it is due, and the loop breaks off where there are not as many nodes
as there were at the start. -/
inductive Loops (change : Frontier Node → Node → Frontier Node) (index : Nat)
    (source : NodeSource Node) (size : Nat) :
    Nat → Collections Node → Collections Node × Except CollectionError Unit → Prop where
  | breaks {position : Nat} {collections : Collections Node} :
      (collections.listed source).length ≠ size →
        Loops change index source size position collections
          (collections, .error .changedWhileListed)
  | ends {collections : Collections Node} :
      (collections.listed source).length = size →
        Loops change index source size size collections (collections, .ok ())
  | next {position : Nat} {collections : Collections Node} {node : Node}
      {result : Collections Node × Except CollectionError Unit} :
      (collections.listed source).length = size →
        (collections.listed source)[position]? = some node →
        Loops change index source size (position + 1)
          (collections.put index (change (collections.get index) node)) result →
        Loops change index source size position collections result

namespace Loops

variable {change : Frontier Node → Node → Frontier Node} {index size position : Nat}
  {source : NodeSource Node} {collections : Collections Node}
  {result : Collections Node × Except CollectionError Unit}

/-- A loop has one result. -/
theorem eq_of_loops (loops : Loops change index source size position collections result)
    {other : Collections Node × Except CollectionError Unit}
    (again : Loops change index source size position collections other) : result = other := by
  induction loops with
  | breaks changed =>
      cases again with
      | breaks => rfl
      | ends same | next same => exact absurd same changed
  | ends same =>
      cases again with
      | breaks changed => exact absurd same changed
      | ends => rfl
      | next _ due => exact absurd (List.getElem?_eq_some_iff.mp due).1 (by omega)
  | next same due _ ih =>
      cases again with
      | breaks changed => exact absurd same changed
      | ends => exact absurd (List.getElem?_eq_some_iff.mp due).1 (by omega)
      | next _ dueAgain later =>
          cases due.symm.trans dueAgain
          exact ih later

theorem iff_eq (loops : Loops change index source size position collections result)
    {other : Collections Node × Except CollectionError Unit} :
    Loops change index source size position collections other ↔ other = result :=
  ⟨fun again => (loops.eq_of_loops again).symm, fun same => same ▸ loops⟩

/-- Where the nodes of the argument stay the same on the way, a loop goes through all of them. -/
theorem of_steady (present : index < collections.frontiers.size)
    (steady : ∀ front rest, collections.listed source = front ++ rest →
      (collections.put index (front.foldl change (collections.get index))).listed source =
        collections.listed source) :
    Loops change index source (collections.listed source).length 0 collections
      (collections.put index ((collections.listed source).foldl change (collections.get index)),
        .ok ()) := by
  generalize collections.listed source = nodes at steady
  have onward : ∀ rest front, nodes = front ++ rest →
      Loops change index source nodes.length front.length
        (collections.put index (front.foldl change (collections.get index)))
        (collections.put index (nodes.foldl change (collections.get index)), .ok ()) := by
    intro rest
    induction rest with
    | nil =>
        intro front whole
        rw [List.append_nil] at whole
        subst whole
        exact .ends (congrArg List.length (steady nodes [] (List.append_nil nodes).symm))
    | cons node rest ih =>
        intro front whole
        have listed := steady front (node :: rest) whole
        have later := ih (front ++ [node]) (by rw [whole, List.append_assoc, List.singleton_append])
        apply Loops.next
        · rw [listed]
        · rw [listed, whole, List.getElem?_append_right (Nat.le_refl _), Nat.sub_self]
          rfl
        · rw [get_put_self collections _ present, put_put]
          rwa [List.length_append, List.foldl_append] at later
  have start := onward nodes [] rfl
  rwa [List.foldl_nil, put_get collections present] at start

end Loops

section Operations

variable {collections : Collections Node} {index : Nat}

/-- What another argument hands out does not change with a collection. -/
theorem listed_put_of_ne {source : NodeSource Node} (apart : source ≠ .collection index)
    (frontier : Frontier Node) :
    (collections.put index frontier).listed source = collections.listed source := by
  cases source with
  | list nodes => rfl
  | collection argument =>
      have other : index ≠ argument := fun same => apart (same ▸ rfl)
      exact congrArg Frontier.nodes (get_put_of_ne collections frontier other)

/-- Adding nodes comes out as the loop over them does, also over the nodes of the collection that
gets them. -/
theorem addAll_loops (apart : index ≠ shared) (present : index < collections.frontiers.size)
    (source : NodeSource Node) :
    ∃ changed, collections.addAll index source = .ok changed ∧ ∀ result,
      Loops Frontier.insert index source (collections.listed source).length 0 collections result ↔
        result = (changed.1, .ok ()) := by
  rw [addAll, if_neg apart]
  refine ⟨_, rfl, fun result => ?_⟩
  dsimp only
  rw [← Frontier.foldl_insert]
  apply (Loops.of_steady present _).iff_eq
  intro front rest whole
  rw [Frontier.foldl_insert]
  by_cases own : source = .collection index
  · -- The nodes so far are there already, so the collection is as it was.
    subst own
    have known : ∀ node ∈ front, Keyed.key node ∈ (collections.get index).keys := by
      intro node member
      have listed : node ∈ (collections.get index).nodes := by
        change (collections.get index).nodes = front ++ rest at whole
        rw [whole]
        exact List.mem_append_left _ member
      exact List.mem_map_of_mem listed
    rw [Frontier.insertAll_eq_self known, put_get collections present]
  · exact listed_put_of_ne own _

/-- A collection without nodes can be taken out of itself. -/
theorem removeAll_own_of_nil (none : (collections.get index).nodes = []) :
    collections.removeAll index (.collection index) = (collections, .ok false) := by
  have first : (collections.get index).first? = Option.none := by rw [Frontier.first?, none]; rfl
  rw [removeAll.eq_def]
  dsimp only
  rw [if_pos rfl, first]

/-- A collection with a node that is taken out of itself loses its first node only. -/
theorem removeAll_own_of_cons {node : Node} {rest : List Node}
    (whole : (collections.get index).nodes = node :: rest) :
    collections.removeAll index (.collection index) =
      (collections.put index ((collections.get index).remove node),
        .error .changedWhileListed) := by
  have first : (collections.get index).first? = some node := by rw [Frontier.first?, whole]; rfl
  rw [removeAll.eq_def]
  dsimp only
  rw [if_pos rfl, first]
  rfl

/-- Taking nodes out comes out as the loop over them does, also over the nodes of the collection
that loses them. -/
theorem removeAll_loops (present : index < collections.frontiers.size)
    (source : NodeSource Node) (result : Collections Node × Except CollectionError Unit) :
    Loops Frontier.remove index source (collections.listed source).length 0 collections result ↔
      result = ((collections.removeAll index source).1,
        (collections.removeAll index source).2.map fun _ => ()) := by
  apply Loops.iff_eq
  by_cases own : source = .collection index
  · subst own
    cases whole : (collections.get index).nodes with
    | nil =>
        have size : (collections.listed (.collection index)).length = 0 := by
          rw [listed, whole]
          rfl
        rw [removeAll_own_of_nil whole, size]
        exact .ends size
    | cons node rest =>
        have nodes : collections.listed (.collection index) = node :: rest := whole
        rw [removeAll_own_of_cons whole]
        apply Loops.next rfl
        · rw [nodes]
          rfl
        · -- One node fewer is listed than when the loop began.
          apply Loops.breaks
          rw [listed, get_put_self collections _ present, Frontier.nodes_remove_first whole, nodes]
          exact Nat.ne_of_lt (Nat.lt_succ_self _)
  · rw [removeAll_of_ne collections own]
    dsimp only
    rw [← Frontier.foldl_remove]
    exact Loops.of_steady present fun front rest _ => listed_put_of_ne own _

/-- **A collection as its own argument.** Whatever its size, a collection does with itself as its
argument what it does with a list of its nodes: nothing is added to it, a union with it has its
nodes and a difference from it has none, and it stays as it is. Only taking it out of itself breaks
off after its first node, unless it has no node, while taking out a list of its nodes leaves none
and tells whether there was one. -/
theorem WellFormed.own_arguments (formed : collections.WellFormed)
    (present : index < collections.frontiers.size) :
    let frontier := collections.get index
    let own : NodeSource Node := .collection index
    let copied : NodeSource Node := .list frontier.nodes
    (collections.addAll index own = .ok (collections, false) ∧
      collections.addAll index copied = .ok (collections, false)) ∧
    (collections.union index own = collections.union index copied ∧
      collections.Hands frontier (collections.union index own)) ∧
    (collections.difference index own = collections.difference index copied ∧
      collections.Hands ∅ (collections.difference index own)) ∧
    collections.removeAll index copied = (collections.put index ∅, .ok (!frontier.isEmpty)) ∧
    (collections.removeAll index own = collections.removeAll index copied ↔ frontier = ∅) ∧
    ∀ first rest, frontier.nodes = first :: rest → ∃ left,
      collections.removeAll index own =
        (collections.put index left, .error .changedWhileListed) ∧ left.nodes = rest := by
  intro frontier own copied
  have same : frontier.insertAll frontier.nodes = frontier :=
    Frontier.insertAll_eq_self fun _ member => List.mem_map_of_mem member
  have added : collections.addAll index copied = .ok (collections, false) := by
    by_cases apart : index = shared
    · have none : collections.listed copied = [] := by
        change (collections.get index).nodes = []
        rw [apart, formed.nothing]
        rfl
      rw [Collections.addAll, none, if_pos apart]
      rfl
    · rw [Collections.addAll, if_neg apart]
      dsimp only
      rw [listed, same, put_get collections present, bne_self_eq_false]
  have joined : collections.union index own = collections.create frontier := by
    rw [union, listed, same]
  have parted : collections.difference index own = collections.create ∅ := by
    rw [difference, listed, Frontier.removeAll_self]
  have removed : collections.removeAll index copied =
      (collections.put index ∅, .ok (!frontier.isEmpty)) := by
    have told : ((∅ : Frontier Node).size != frontier.size) = !frontier.isEmpty := by
      rcases frontier with ⟨_ | ⟨first, rest⟩, distinct⟩ <;> rfl
    have apart : NodeSource.list frontier.nodes ≠ .collection index := fun same => by cases same
    have left := removeAll_of_ne collections apart
    rw [listed, Frontier.removeAll_self] at left
    rw [left, ← told]
  refine ⟨⟨added, added⟩, ⟨rfl, ?_⟩, ⟨rfl, ?_⟩, removed, ⟨?_, ?_⟩, ?_⟩
  · rw [joined]
    exact create_hands collections frontier
  · rw [parted]
    exact create_hands collections ∅
  · intro alike
    cases whole : frontier.nodes with
    | nil => exact Frontier.ext_nodes whole
    | cons node rest =>
        rw [removed, removeAll_own_of_cons whole] at alike
        cases congrArg Prod.snd alike
  · intro none
    rw [removed, removeAll_own_of_nil (congrArg Frontier.nodes none), none, ← none,
      put_get collections present, none]
    rfl
  · intro first rest whole
    exact ⟨_, removeAll_own_of_cons whole, Frontier.nodes_remove_first whole⟩

end Operations

section Shelves

/-- A shelf with two nodes as its own argument: only taking it out of itself breaks off, after the
first node. -/
theorem shelf_own_arguments :
    1 < shelf.frontiers.size ∧ shelf.WellFormed ∧ (shelf.get 1).nodes = [copy 1, original] ∧
      shelf.addAll 1 (.collection 1) = .ok (shelf, false) ∧
      shelf.Hands (shelf.get 1) (shelf.union 1 (.collection 1)) ∧
      shelf.Hands ∅ (shelf.difference 1 (.collection 1)) ∧
      shelf.removeAll 1 (.list [copy 1, original]) = (shelf.put 1 ∅, .ok true) ∧
      ∃ left, shelf.removeAll 1 (.collection 1) =
        (shelf.put 1 left, .error .changedWhileListed) ∧ left.nodes = [original] := by
  have present : 1 < shelf.frontiers.size := by decide
  have formed : shelf.WellFormed := ⟨by decide, rfl⟩
  have nodes : (shelf.get 1).nodes = [copy 1, original] := rfl
  obtain ⟨⟨added, -⟩, ⟨-, joined⟩, ⟨-, parted⟩, removed, -, broken⟩ := formed.own_arguments present
  exact ⟨present, formed, nodes, added, joined, parted, removed, broken _ _ nodes⟩

/-- Taken out of itself the shelf keeps a node and the call fails, while taking out a list of its
nodes leaves none and tells that there was one. -/
theorem shelf_keeps_a_node :
    let taken := shelf.removeAll 1 (.collection 1)
    let listed := shelf.removeAll 1 (.list (shelf.get 1).nodes)
    taken.2 = .error .changedWhileListed ∧ (taken.1.get 1).nodes = [original] ∧
      listed.2 = .ok true ∧ (listed.1.get 1).nodes = [] :=
  ⟨rfl, rfl, rfl, rfl⟩

end Shelves

end Collections

end TreeQuery
