import TreeQuery.Proofs.Navigation.Footprint
import TreeQuery.Proofs.SyntaxTree.Ownership

/-! # Navigation within a program

Shared leaves are left out where children are listed, while parents are named by an index that is
made on a walk over all nodes, shared leaves included. A shared leaf owns nothing, so the index
names none as a parent, and whatever a navigation asks about or finds belongs to the tree of the
program and is no shared leaf (`TreeQuery.World.parsedTree_confines`).
-/

namespace TreeQuery

namespace SyntaxGraph

variable {Node : Type} {graph : SyntaxGraph Node} {root : Node}

/-- A walk by generations comes to none but nodes that are reached from where it starts. -/
theorem reached_of_mem_generations {depth : Nat} {level : List Node} {node : Node}
    (walked : node ∈ graph.generations depth level) :
    ∃ start ∈ level, Relation.ReflTransGen graph.Refers start node := by
  induction depth generalizing level with
  | zero => exact absurd walked List.not_mem_nil
  | succ depth ih =>
      cases level with
      | nil => exact absurd walked List.not_mem_nil
      | cons first rest =>
          rcases List.mem_append.mp walked with here | later
          · exact ⟨node, here, .refl⟩
          · obtain ⟨middle, below, reached⟩ := ih later
            obtain ⟨start, among, refers⟩ := List.mem_flatMap.mp below
            exact ⟨start, among, .head refers reached⟩

theorem isShared_of_mem_children {owner child : Node} (listed : child ∈ graph.children owner) :
    graph.isShared child = false := by
  have single := (List.mem_filter.mp listed).2
  rwa [Bool.not_eq_true'] at single

/-- A node that an index of owners names is reached and has a child. -/
theorem reached_of_lastOwner? [Keyed Node] {depth : Nat} {node owner : Node}
    (named : lastOwner? (graph.ownership depth root) node = some owner) :
    Relation.ReflTransGen graph.Refers root owner ∧ graph.children owner ≠ [] := by
  obtain ⟨⟨child, _⟩, found, rfl⟩ := Option.map_eq_some_iff.mp named
  have recorded := List.mem_reverse.mp (List.mem_of_find?_eq_some found)
  obtain ⟨above, walked, paired⟩ := List.mem_flatMap.mp recorded
  obtain ⟨_, listed, same⟩ := List.mem_map.mp paired
  cases same
  obtain ⟨start, among, reached⟩ := reached_of_mem_generations walked
  rw [List.mem_singleton.mp among] at reached
  exact ⟨reached, List.ne_nil_of_mem listed⟩

end SyntaxGraph

namespace World

variable {world : World} {root : Value}

/-- Fields hold syntax nodes only. -/
theorem isParsed_of_refers {owner node : Value} (refers : world.syntaxGraph.Refers owner node) :
    world.isParsed node = true := by
  have held : ∀ value, node ∈ world.fieldNodes value → world.isParsed node = true := by
    intro value among
    rw [fieldNodes] at among
    split at among
    · exact (List.mem_filter.mp among).2
    · split at among
      · next parsed => exact List.mem_singleton.mp among ▸ parsed
      · exact absurd among List.not_mem_nil
  rw [SyntaxGraph.Refers, syntaxGraph] at refers
  dsimp only at refers
  split at refers
  · obtain ⟨field, _, among⟩ := List.mem_flatMap.mp refers
    exact held field.2 among
  · exact absurd refers List.not_mem_nil

theorem isParsed_of_reached (parsed : world.isParsed root = true) {node : Value}
    (reached : Relation.ReflTransGen world.syntaxGraph.Refers root node) :
    world.isParsed node = true := by
  rcases reached.cases_tail with same | ⟨_, _, refers⟩
  · rwa [same]
  · exact isParsed_of_refers refers

/-- What the adapter of a program lists below a node is no shared leaf. -/
theorem mem_children_parsedTree {patience : Nat} {owners : List (Value × Value)}
    {owner node : Value}
    (listed : node ∈ ((world.host patience (.parsedTree owners)).children owner).nodes) :
    node ∈ world.syntaxGraph.children owner := by
  simp only [host, SyntaxGraph.host, Host.ofLinks] at listed
  split at listed
  · exact absurd listed List.not_mem_nil
  · exact listed

section Confinement

variable (parsed : world.isParsed root = true)
  (leaves : ∀ node, Relation.ReflTransGen world.syntaxGraph.Refers root node →
    world.syntaxGraph.isShared node = true → world.syntaxGraph.fields node = [])

include parsed leaves

/-- What is reached from the root by way of fields, if it is no shared leaf, is reached by way of
the children that are listed, since the way leads through no shared leaf. -/
theorem reached_by_children {patience : Nat} {owners : List (Value × Value)} {node : Value}
    (reached : Relation.ReflTransGen world.syntaxGraph.Refers root node)
    (single : world.syntaxGraph.isShared node = false) :
    Relation.ReflTransGen (Tree.IsAbove (world.host patience (.parsedTree owners)).children) root
      node := by
  induction reached with
  | refl => exact .refl
  | @tail owner node above refers ih =>
      have apart : world.syntaxGraph.isShared owner = false := by
        rw [Bool.eq_false_iff]
        exact fun shared => List.ne_nil_of_mem refers (leaves owner above shared)
      refine (ih apart).tail ?_
      rw [Tree.IsAbove, children_parsedTree (isParsed_of_reached parsed above)]
      exact List.mem_filter.mpr ⟨refers, by rw [single]; rfl⟩

/-- The host of a program does not lead out of its tree, upwards or downwards, nor to shared
leaves. -/
theorem staysIn_parsedTree (patience : Nat) :
    let host := world.host patience (world.parsedTree root)
    host.StaysIn {node | Relation.ReflTransGen (Tree.IsAbove host.children) root node ∧
      world.syntaxGraph.isShared node = false} := by
  intro host
  apply Host.staysIn_ofLinks
  · rintro owner ⟨reached, -⟩ node listed
    have below : node ∈ (host.children owner).nodes := listed
    exact ⟨reached.tail below, SyntaxGraph.isShared_of_mem_children (mem_children_parsedTree below)⟩
  · intro node inside owner named
    -- The index names an owner that has a child, which a shared leaf has not.
    obtain ⟨reached, some⟩ := SyntaxGraph.reached_of_lastOwner? (Except.ok.inj named)
    have single : world.syntaxGraph.isShared owner = false := by
      rw [Bool.eq_false_iff]
      intro shared
      rw [SyntaxGraph.children, leaves owner reached shared, List.filter_nil] at some
      exact some rfl
    exact ⟨reached_by_children parsed leaves reached single, single⟩

/-- **Navigation stays within a program.** Take the adapter of a program of which no shared leaf
holds a node. A navigation that starts at nodes of the program other than shared leaves asks about
none but nodes that are reached from the root by way of the children that the adapter lists and are
no shared leaves, and finds none but those. That holds for every path, whatever leaves answer or
fail to answer, whatever the sink refuses and however the navigation ends, and no circle has to be
excluded for it. -/
theorem parsedTree_confines {Leaf : Type} {setting : Setting Value Leaf Failure} {patience : Nat}
    (hosted : setting.host = world.host patience (world.parsedTree root)) (path : Path Leaf)
    {start : List Value}
    (within : ∀ node ∈ start, Relation.ReflTransGen world.syntaxGraph.Refers root node ∧
      world.syntaxGraph.isShared node = false) :
    let tree := {node | Relation.ReflTransGen (Tree.IsAbove setting.host.children) root node ∧
      world.syntaxGraph.isShared node = false}
    (path.navigate setting start).KeepsTo tree (Frontier.Inside tree) := by
  intro tree
  have closed : setting.host.StaysIn tree := by
    have stays := staysIn_parsedTree parsed leaves patience
    rw [← hosted] at stays
    exact stays
  apply Path.run_keepsTo closed
  intro node member
  obtain ⟨reached, single⟩ := within node (Frontier.mem_of_mem_ofList member)
  refine ⟨?_, single⟩
  rw [hosted]
  exact reached_by_children parsed leaves reached single

end Confinement

section Total

/-- The program of one sum of two names, which share the leaf of their context. The class of the
operator is derived from one of the grammar. -/
def total : World where
  things := #[⟨.parsed (.standard "Expression"), [("body", syntaxNode 1)]⟩,
    ⟨.parsed (.standard "BinOp"),
      [("left", syntaxNode 2), ("op", syntaxNode 3), ("right", syntaxNode 4)]⟩,
    ⟨.parsed (.standard "Name"), [("id", .text "x"), ("ctx", syntaxNode 5)]⟩,
    ⟨.parsed (.derived "Plus" [.standard "Add"]), []⟩,
    ⟨.parsed (.standard "Name"), [("id", .text "y"), ("ctx", syntaxNode 5)]⟩,
    ⟨.parsed (.standard "Param"), []⟩]

theorem total_leaves (node : Value) (shared : total.syntaxGraph.isShared node = true) :
    total.syntaxGraph.fields node = [] := by
  cases place : node.place? with
  | none => simp only [syntaxGraph, place]
  | some spot =>
      cases spot with
      | member index => simp only [syntaxGraph, place]
      | object index =>
          simp only [syntaxGraph, parsedClass?, place] at shared ⊢
          -- Of the six objects four hold nodes, and these are not shared.
          rcases index with _ | _ | _ | _ | _ | _ | index <;>
            first | rfl | exact absurd shared (by decide)

/-- Leaves answer yes about every node, except for one that fails. -/
def totalSetting : Setting Value String Failure where
  host := total.host 99 (total.parsedTree (syntaxNode 0))
  answer leaf _ :=
    if leaf = "broken" then .error (.raised .sinkRefused) else .ok (.bool true)
  unlabelled _ := .sinkRefused
  noPath _ := .sinkRefused
  sink := .accepting
  patience := 99

/-- A path down to all descendants, up to their parents and then down to a test that fails. -/
def upAndDown : Path String :=
  .simple [some (.traversal .allDescendants (.function "any" "any")),
    some (.traversal .parent .any), some (.traversal .children (.custom "broken" "Broken"))]

/-- Until it fails, the path asks about the two names, their owner and the root, but about no shared
leaf, although the walk that made the index of parents came to each of them. -/
theorem total_confines :
    let run := (upAndDown.navigate totalSetting [syntaxNode 0]).perform {}
    total.isParsed (syntaxNode 0) = true ∧
    (∀ node, Relation.ReflTransGen total.syntaxGraph.Refers (syntaxNode 0) node →
      total.syntaxGraph.isShared node = true → total.syntaxGraph.fields node = []) ∧
    total.syntaxGraph.walk 7 (syntaxNode 0) = [0, 1, 2, 3, 4, 5, 5].map syntaxNode ∧
    run.1 = .error (.raised .sinkRefused) ∧
    run.2.calls.map Call.about = [1, 1, 0, 4, 2, 1, 4, 2, 1, 0].map syntaxNode ∧
    ∀ call ∈ run.2.calls, Relation.ReflTransGen (Tree.IsAbove totalSetting.host.children)
      (syntaxNode 0) call.about ∧ total.syntaxGraph.isShared call.about = false := by
  have leaves : ∀ node, Relation.ReflTransGen total.syntaxGraph.Refers (syntaxNode 0) node →
      total.syntaxGraph.isShared node = true → total.syntaxGraph.fields node = [] :=
    fun node _ => total_leaves node
  have hosted : totalSetting.host = total.host 99 (total.parsedTree (syntaxNode 0)) := rfl
  have keeps := parsedTree_confines rfl leaves hosted upAndDown
    (List.forall_mem_singleton.mpr ⟨.refl, rfl⟩)
  obtain ⟨⟨calls, made, inside⟩, -⟩ := keeps {}
  refine ⟨rfl, leaves, rfl, rfl, rfl, ?_⟩
  rw [made, List.append_nil]
  exact inside

end Total

end World

end TreeQuery
