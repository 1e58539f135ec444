import Mathlib.Order.Interval.Set.Nat
import TreeQuery.Adapter
import TreeQuery.Proofs.Tree.Grounded

/-! # Owners of syntax nodes

The parents of syntax nodes are indexed by a breadth-first walk. It takes nodes off the front of a
queue and puts the nodes of their fields at its end, and it does not keep track of where it has
been, so that a shared node is walked at each place. Without circles it comes to an end and walks
exactly the nodes that are reached from the root. The index then agrees with the children that are
listed: a node that is listed has one of the owners that list it for its parent, namely the one that
is walked last (`TreeQuery.World.parsedTree_indexes_owners`).
-/

namespace TreeQuery

namespace SyntaxGraph

variable {Node : Type} (graph : SyntaxGraph Node)

/-- A syntax node holds another one in its fields. -/
def Refers (owner node : Node) : Prop :=
  node ∈ graph.fields owner

/-- A walk takes the first node of a queue and appends the nodes of its fields to the queue, until
the queue is empty. -/
inductive Walks : List Node → List Node → Prop where
  | done : Walks [] []
  | next {node : Node} {queue walked : List Node} :
      Walks (queue ++ graph.fields node) walked → Walks (node :: queue) (node :: walked)

variable {graph} in
theorem refers_of_mem_children {owner child : Node} (listed : child ∈ graph.children owner) :
    graph.Refers owner child :=
  (List.mem_filter.mp listed).1

/-- The nodes in the fields of a node, as a listing. -/
def held (node : Node) : Listing Node Empty :=
  ⟨graph.fields node, none⟩

namespace Walks

variable {graph} {queue walked : List Node}

theorem unique {other : List Node} (walks : graph.Walks queue walked)
    (also : graph.Walks queue other) : other = walked := by
  induction walks generalizing other with
  | done =>
      cases also
      rfl
  | next _ ih =>
      cases also with
      | next later => rw [ih later]

/-- A walk comes to the nodes that are reached from the queue. -/
theorem mem_iff (walks : graph.Walks queue walked) {node : Node} :
    node ∈ walked ↔ ∃ start ∈ queue, Relation.ReflTransGen graph.Refers start node := by
  induction walks with
  | done => simp
  | @next first queue walked _ ih =>
      rw [List.mem_cons, ih]
      constructor
      · rintro (rfl | ⟨start, member, reached⟩)
        · exact ⟨node, List.mem_cons_self, .refl⟩
        · rcases List.mem_append.mp member with queued | below
          · exact ⟨start, List.mem_cons_of_mem _ queued, reached⟩
          · exact ⟨first, List.mem_cons_self, .head below reached⟩
      · rintro ⟨start, member, reached⟩
        rcases List.mem_cons.mp member with rfl | queued
        · rcases reached.cases_head with rfl | ⟨below, refers, later⟩
          · exact .inl rfl
          · exact .inr ⟨below, List.mem_append_right _ refers, later⟩
        · exact .inr ⟨start, List.mem_append_left _ queued, reached⟩

/-- Nodes in front of the queue are walked first, and leave the nodes of their fields behind. -/
theorem append (front : List Node) {tail : List Node}
    (walks : graph.Walks (tail ++ front.flatMap graph.fields) walked) :
    graph.Walks (front ++ tail) (front ++ walked) := by
  induction front generalizing tail with
  | nil => simpa using walks
  | cons node rest ih =>
      rw [List.cons_append, List.cons_append]
      apply Walks.next
      rw [List.append_assoc]
      apply ih
      rwa [List.append_assoc, ← List.flatMap_cons]

/-- Generation by generation is the order of the queue, as long as no way down is longer than the
depth. -/
theorem generations {depth : Nat} {level : List Node}
    (shallow : ∀ start ∈ level, ∀ count below, Tree.Descends graph.held start count below →
      count < depth) : graph.Walks level (graph.generations depth level) := by
  induction depth generalizing level with
  | zero =>
      cases level with
      | nil => exact .done
      | cons node rest =>
          exact absurd (shallow node List.mem_cons_self 0 node .here) (Nat.not_lt_zero 0)
  | succ depth ih =>
      cases level with
      | nil => exact .done
      | cons node rest =>
          have later : graph.Walks ((node :: rest).flatMap graph.fields)
              (graph.generations depth ((node :: rest).flatMap graph.fields)) := by
            apply ih
            intro start member count below descends
            obtain ⟨above, listed, refers⟩ := List.mem_flatMap.mp member
            have deeper := descends.of_child refers
            exact Nat.lt_of_succ_lt_succ (shallow above listed _ below deeper)
          have whole : graph.Walks ((node :: rest) ++ []) _ := .append (node :: rest) later
          rwa [List.append_nil] at whole

end Walks

section Owners

/-- All pairs of a child and its owner, for owners in the order of a walk. -/
def pairs (walked : List Node) : List (Node × Node) :=
  walked.flatMap fun owner => (graph.children owner).map fun child => (child, owner)

variable [Keyed Node]

/-- Of the pairs of one owner the first with the key of a node tells whether the owner has it. -/
theorem find?_pairs (owner node : Node) :
    ((((graph.children owner).map fun child => (child, owner)).reverse.find? fun pair =>
      decide (Keyed.key pair.1 = Keyed.key node)).map Prod.snd) =
      if (graph.children owner).any fun child => decide (Keyed.key child = Keyed.key node) then
        some owner else none := by
  cases found : ((graph.children owner).map fun child => (child, owner)).reverse.find? fun pair =>
      decide (Keyed.key pair.1 = Keyed.key node) with
  | none =>
      rw [List.find?_eq_none] at found
      rw [if_neg]
      · rfl
      · simpa using found
  | some pair =>
      have member := List.mem_of_find?_eq_some found
      have same := List.find?_some found
      rw [List.mem_reverse, List.mem_map] at member
      obtain ⟨child, listed, rfl⟩ := member
      rw [if_pos (List.any_eq_true.mpr ⟨child, listed, same⟩)]
      rfl

/-- The owner paired last with a node is the last in the order of the walk that has a child with the
key of the node. -/
theorem lastOwner?_pairs (walked : List Node) (node : Node) :
    lastOwner? (graph.pairs walked) node =
      walked.reverse.find? fun owner =>
        (graph.children owner).any fun child => decide (Keyed.key child = Keyed.key node) := by
  rw [lastOwner?, pairs, List.reverse_flatMap, List.find?_flatMap]
  induction walked.reverse with
  | nil => rfl
  | cons owner rest ih =>
      have here := graph.find?_pairs owner node
      rw [List.findSome?_cons, List.find?_cons, ← ih, Function.comp_apply]
      cases has : (graph.children owner).any fun child =>
          decide (Keyed.key child = Keyed.key node) with
      | true =>
          rw [has, if_pos rfl, Option.map_eq_some_iff] at here
          obtain ⟨pair, found, whose⟩ := here
          rw [found, Option.map_some, whose]
      | false =>
          rw [has, if_neg Bool.false_ne_true, Option.map_eq_none_iff] at here
          rw [here]

/-- Where nodes have keys of their own, a node is paired last with the owner of it that is walked
last, if there is one. -/
theorem lastOwner?_cases {nodes : Set Node} (unique : Set.InjOn Keyed.key nodes)
    {walked : List Node} (inside : ∀ owner ∈ walked, ∀ child ∈ graph.children owner, child ∈ nodes)
    {node : Node} (known : node ∈ nodes) :
    (lastOwner? (graph.pairs walked) node = none ∧
        ∀ owner ∈ walked, node ∉ graph.children owner) ∨
      ∃ before last after, walked = before ++ last :: after ∧ node ∈ graph.children last ∧
        (∀ other ∈ after, node ∉ graph.children other) ∧
          lastOwner? (graph.pairs walked) node = some last := by
  have has : ∀ owner ∈ walked,
      ((graph.children owner).any fun child => decide (Keyed.key child = Keyed.key node)) = true ↔
        node ∈ graph.children owner := by
    intro owner member
    rw [List.any_eq_true]
    constructor
    · rintro ⟨child, listed, same⟩
      exact unique (inside owner member child listed) known (of_decide_eq_true same) ▸ listed
    · exact fun listed => ⟨node, listed, decide_eq_true rfl⟩
  rw [lastOwner?_pairs]
  cases found : walked.reverse.find? fun owner =>
      (graph.children owner).any fun child => decide (Keyed.key child = Keyed.key node) with
  | none =>
      rw [List.find?_eq_none] at found
      refine .inl ⟨rfl, fun owner member listed => ?_⟩
      exact found owner (List.mem_reverse.mpr member) ((has owner member).mpr listed)
  | some last =>
      obtain ⟨listed, after, before, split, later⟩ := List.find?_eq_some_iff_append.mp found
      have order : walked = before.reverse ++ last :: after.reverse := by
        rw [← List.reverse_reverse walked, split]
        simp
      refine .inr ⟨before.reverse, last, after.reverse, order, ?_, ?_, rfl⟩
      · exact (has last (by simp [order])).mp listed
      · intro other behind listed
        have member : other ∈ walked := by
          rw [order]
          exact List.mem_append_right _ (List.mem_cons_of_mem _ behind)
        have absent := later other (List.mem_reverse.mp behind)
        rw [(has other member).mpr listed] at absent
        exact absurd absent (by decide)

end Owners

end SyntaxGraph

namespace World

variable {world : World} {root : Value}

/-- A value is a syntax node of a world, under the key of that node. -/
def IsSyntaxNode (world : World) (node : Value) : Prop :=
  world.isParsed node = true ∧ ∃ index < world.things.size, node = world.thing index

/-- Syntax nodes are told apart by their identity. -/
theorem IsSyntaxNode.key_injOn : Set.InjOn Keyed.key {node | world.IsSyntaxNode node} := by
  have identity : ∀ index, world.isParsed (world.thing index) = true →
      (world.thing index).key = .identity (.object index) := by
    intro index parsed
    simp only [isParsed, parsedClass?, thing, Value.place?, Value.key] at parsed ⊢
    split at parsed
    · next className found =>
        obtain ⟨thing, placed, sort⟩ := Option.map_eq_some_iff.mp found
        simp only [placed, sort, thingKey]
    · cases parsed
  rintro _ ⟨parsed, index, -, rfl⟩ _ ⟨also, other, -, rfl⟩ same
  have keys : (world.thing index).key = (world.thing other).key := same
  rw [identity index parsed, identity other also] at keys
  cases keys
  rfl

/-- What is reached from the root of a program without circles is a grounded region with no more
nodes than there are objects. -/
theorem grounded_syntax
    (nodes : ∀ node, Relation.ReflTransGen world.syntaxGraph.Refers root node →
      world.IsSyntaxNode node)
    (acyclic : ∀ node, Relation.ReflTransGen world.syntaxGraph.Refers root node →
      ¬ Relation.TransGen world.syntaxGraph.Refers node node) :
    let region := {node | Relation.ReflTransGen world.syntaxGraph.Refers root node}
    Tree.Grounded world.syntaxGraph.held region ∧ region.ncard ≤ world.things.size := by
  intro region
  have within : region ⊆ world.thing '' Set.Iio world.things.size := by
    intro node reached
    obtain ⟨-, index, less, same⟩ := nodes node reached
    exact ⟨index, less, same.symm⟩
  have finite : (world.thing '' Set.Iio world.things.size).Finite :=
    (Set.finite_Iio _).image _
  refine ⟨⟨finite.subset within, ?_, acyclic⟩, ?_⟩
  · intro node reached
    exact ⟨rfl, fun below refers => Relation.ReflTransGen.tail reached refers⟩
  · calc region.ncard
        ≤ (world.thing '' Set.Iio world.things.size).ncard := Set.ncard_le_ncard within finite
      _ ≤ (Set.Iio world.things.size).ncard := Set.ncard_image_le (Set.finite_Iio _)
      _ = world.things.size := Set.ncard_Iio_nat _

/-- A syntax node lists the nodes of its fields, except for shared leaves. -/
theorem children_parsedTree {node : Value} (parsed : world.isParsed node = true) (patience : Nat)
    (owners : List (Value × Value)) :
    (world.host patience (.parsedTree owners)).children node =
      ⟨world.syntaxGraph.children node, none⟩ := by
  simp only [host, SyntaxGraph.host, Host.ofLinks, parsed, if_true]

section Indexing

variable (patience : Nat)
  (nodes : ∀ node, Relation.ReflTransGen world.syntaxGraph.Refers root node →
    world.IsSyntaxNode node)
  (acyclic : ∀ node, Relation.ReflTransGen world.syntaxGraph.Refers root node →
    ¬ Relation.TransGen world.syntaxGraph.Refers node node)

include nodes acyclic

/-- A walk from the root of a program comes to an end, after the nodes that are reached, and the
index of parents is made of what it comes to. -/
theorem exists_walked :
    ∃ walked, world.syntaxGraph.Walks [root] walked ∧
      (∀ node, node ∈ walked ↔ Relation.ReflTransGen world.syntaxGraph.Refers root node) ∧
      ∀ node, (world.host patience (world.parsedTree root)).parent node =
        .ok (SyntaxGraph.lastOwner? (world.syntaxGraph.pairs walked) node) := by
  obtain ⟨grounded, size⟩ := grounded_syntax nodes acyclic
  have walks : world.syntaxGraph.Walks [root]
      (world.syntaxGraph.walk (world.things.size + 1) root) := by
    apply SyntaxGraph.Walks.generations
    intro start member count below descends
    obtain rfl := List.mem_singleton.mp member
    have shallow := grounded.enclosed.depth_lt_ncard Relation.ReflTransGen.refl descends
    omega
  refine ⟨_, walks, fun node => ?_, fun _ => rfl⟩
  rw [walks.mem_iff]
  simp

/-- A node that nobody lists has no parent, and any other has the last of its owners. -/
theorem exists_walked_cases :
    let host := world.host patience (world.parsedTree root)
    let lists owner node := node ∈ (host.children owner).nodes
    ∃ walked, world.syntaxGraph.Walks [root] walked ∧
      (∀ node, node ∈ walked ↔ Relation.ReflTransGen world.syntaxGraph.Refers root node) ∧
      (∀ owner ∈ walked, host.children owner = ⟨world.syntaxGraph.children owner, none⟩) ∧
      ∀ node, world.IsSyntaxNode node →
        (host.parent node = .ok none ∧ ∀ owner ∈ walked, ¬ lists owner node) ∨
          ∃ before last after, walked = before ++ last :: after ∧ lists last node ∧
            (∀ other ∈ after, ¬ lists other node) ∧ host.parent node = .ok (some last) := by
  intro host lists
  obtain ⟨walked, walks, reached, owners⟩ := exists_walked patience nodes acyclic
  have children : ∀ owner ∈ walked,
      host.children owner = ⟨world.syntaxGraph.children owner, none⟩ :=
    fun owner member => children_parsedTree (nodes owner ((reached owner).mp member)).1 _ _
  have listed : ∀ owner ∈ walked, ∀ node,
      lists owner node ↔ node ∈ world.syntaxGraph.children owner := by
    intro owner member node
    simp only [lists, children owner member]
  have inside : ∀ owner ∈ walked, ∀ child ∈ world.syntaxGraph.children owner,
      child ∈ {node | world.IsSyntaxNode node} := by
    intro owner member child below
    exact nodes child (((reached owner).mp member).tail (SyntaxGraph.refers_of_mem_children below))
  refine ⟨walked, walks, reached, children, fun node known => ?_⟩
  rw [owners]
  rcases world.syntaxGraph.lastOwner?_cases IsSyntaxNode.key_injOn inside known with
    ⟨none, nobody⟩ | ⟨before, last, after, order, below, later, named⟩
  · refine .inl ⟨congrArg _ none, fun owner member => ?_⟩
    rw [listed owner member]
    exact nobody owner member
  · have members : ∀ other ∈ last :: after, other ∈ walked := by
      intro other among
      rw [order]
      exact List.mem_append_right _ among
    refine .inr ⟨before, last, after, order, ?_, fun other behind => ?_, congrArg _ named⟩
    · exact (listed last (members last List.mem_cons_self) node).mpr below
    · rw [listed other (members other (List.mem_cons_of_mem _ behind))]
      exact later other behind

/-- **The index of parents agrees with the children.** Take the adapter of a program without circles
in which nodes may be shared. A walk with a queue from the root comes to an end, in one way, and
walks exactly the nodes that are reached from the root. The root has no parent. A parent of a node
was walked and lists the node. A node that some nodes walked list has the last of them, in the order
of the walk, for its parent, and so the only one if there is only one. A node that none of them
lists has no parent. -/
theorem parsedTree_indexes_owners :
    let host := world.host patience (world.parsedTree root)
    let lists owner node := node ∈ (host.children owner).nodes
    ∃ walked, (∀ other, world.syntaxGraph.Walks [root] other ↔ other = walked) ∧
      (∀ node, node ∈ walked ↔ Relation.ReflTransGen world.syntaxGraph.Refers root node) ∧
      (∀ owner ∈ walked, (host.children owner).fault? = none) ∧
      host.parent root = .ok none ∧
      ∀ node, world.IsSyntaxNode node →
        (∀ owner, host.parent node = .ok (some owner) → owner ∈ walked ∧ lists owner node) ∧
        (∀ owner ∈ walked, lists owner node →
          (∃ before last after, walked = before ++ last :: after ∧ lists last node ∧
            (∀ other ∈ after, ¬ lists other node) ∧ host.parent node = .ok (some last)) ∧
          ((∀ other ∈ walked, lists other node → other = owner) →
            host.parent node = .ok (some owner))) ∧
        ((∀ owner ∈ walked, ¬ lists owner node) → host.parent node = .ok none) := by
  intro host lists
  obtain ⟨walked, walks, reached, children, either⟩ := exists_walked_cases patience nodes acyclic
  refine ⟨walked, fun other => ⟨walks.unique, fun same => same ▸ walks⟩, reached, ?_, ?_, ?_⟩
  · intro owner member
    rw [children owner member]
  · rcases either root (nodes root .refl) with ⟨none, -⟩ | ⟨before, last, after, order, below, -⟩
    · exact none
    · -- The owner was reached from the root, which would be below itself.
      have member : last ∈ walked := by simp [order]
      rw [children last member] at below
      have back := SyntaxGraph.refers_of_mem_children below
      exact absurd (Relation.TransGen.tail' ((reached last).mp member) back) (acyclic root .refl)
  · intro node known
    rcases either node known with ⟨none, nobody⟩ | ⟨before, last, after, order, below, later, named⟩
    · refine ⟨fun owner some => ?_, fun owner member below => ?_, fun _ => none⟩
      · rw [none] at some
        cases some
      · exact absurd below (nobody owner member)
    · have member : last ∈ walked := by simp [order]
      refine ⟨fun owner some => ?_, fun owner _ _ => ⟨?_, fun only => ?_⟩, fun nobody => ?_⟩
      · rw [named] at some
        cases some
        exact ⟨member, below⟩
      · exact ⟨before, last, after, order, below, later, named⟩
      · rw [named, only last member below]
      · exact absurd below (nobody last member)

end Indexing

section Snippet

/-- The syntax node at a position. -/
def syntaxNode (index : Nat) : Value :=
  .node (.object index) (.identity (.object index))

/-- A program of two statements that share a name, in a context of its own. -/
def snippet : World where
  things := #[⟨.parsed (.standard "Module"), [("body", .list [syntaxNode 1, syntaxNode 2])]⟩,
    ⟨.parsed (.standard "Expr"), [("value", syntaxNode 3)]⟩,
    ⟨.parsed (.standard "Expr"), [("value", syntaxNode 3)]⟩,
    ⟨.parsed (.standard "Name"), [("ctx", syntaxNode 4)]⟩,
    ⟨.parsed (.derived "Own" [.standard "expr_context"]), []⟩]

/-- The nodes of the program hold later ones only. -/
theorem snippet_refers {index : Nat} (present : index < 5) {below : Value}
    (refers : snippet.syntaxGraph.Refers (syntaxNode index) below) :
    ∃ later, index < later ∧ later < 5 ∧ below = syntaxNode later := by
  match index, present with
  | 0, _ =>
      have held : below ∈ [syntaxNode 1, syntaxNode 2] := refers
      rcases List.mem_cons.mp held with rfl | last
      · exact ⟨1, by decide, by decide, rfl⟩
      · exact ⟨2, by decide, by decide, List.mem_singleton.mp last⟩
  | 1, _ | 2, _ =>
      have held : below ∈ [syntaxNode 3] := refers
      exact ⟨3, by decide, by decide, List.mem_singleton.mp held⟩
  | 3, _ =>
      have held : below ∈ [syntaxNode 4] := refers
      exact ⟨4, by decide, by decide, List.mem_singleton.mp held⟩
  | 4, _ => exact absurd refers List.not_mem_nil

theorem snippet_reached {node : Value}
    (reached : Relation.ReflTransGen snippet.syntaxGraph.Refers (syntaxNode 0) node) :
    ∃ index < 5, node = syntaxNode index := by
  induction reached with
  | refl => exact ⟨0, by decide, rfl⟩
  | tail _ refers ih =>
      obtain ⟨index, present, rfl⟩ := ih
      obtain ⟨later, -, within, rfl⟩ := snippet_refers present refers
      exact ⟨later, within, rfl⟩

theorem snippet_below {index : Nat} (present : index < 5) {below : Value}
    (descends : Relation.TransGen snippet.syntaxGraph.Refers (syntaxNode index) below) :
    ∃ later, index < later ∧ later < 5 ∧ below = syntaxNode later := by
  induction descends with
  | single refers => exact snippet_refers present refers
  | tail _ refers ih =>
      obtain ⟨middle, lower, within, rfl⟩ := ih
      obtain ⟨later, last, least, rfl⟩ := snippet_refers within refers
      exact ⟨later, lower.trans last, least, rfl⟩

/-- In the program, where the name has the second statement for its parent, and the context has none
although the name holds it. -/
theorem snippet_indexes_owners :
    (∀ node, Relation.ReflTransGen snippet.syntaxGraph.Refers (syntaxNode 0) node →
      snippet.IsSyntaxNode node) ∧
    (∀ node, Relation.ReflTransGen snippet.syntaxGraph.Refers (syntaxNode 0) node →
      ¬ Relation.TransGen snippet.syntaxGraph.Refers node node) ∧
    let host := snippet.host 9 (snippet.parsedTree (syntaxNode 0))
    host.parent (syntaxNode 3) = .ok (some (syntaxNode 2)) ∧
    snippet.syntaxGraph.Refers (syntaxNode 3) (syntaxNode 4) ∧
    host.parent (syntaxNode 4) = .ok none ∧
    ∃ walked, (∀ other, snippet.syntaxGraph.Walks [syntaxNode 0] other ↔ other = walked) ∧
      ∃ before last after, walked = before ++ last :: after ∧
        syntaxNode 3 ∈ (host.children last).nodes ∧
        (∀ other ∈ after, syntaxNode 3 ∉ (host.children other).nodes) ∧
        host.parent (syntaxNode 3) = .ok (some last) := by
  have syntaxNodes : ∀ index < 5, snippet.IsSyntaxNode (syntaxNode index) := by
    intro index present
    match index, present with
    | 0, present => exact ⟨rfl, 0, present, rfl⟩
    | 1, present => exact ⟨rfl, 1, present, rfl⟩
    | 2, present => exact ⟨rfl, 2, present, rfl⟩
    | 3, present => exact ⟨rfl, 3, present, rfl⟩
    | 4, present => exact ⟨rfl, 4, present, rfl⟩
  have nodes : ∀ node, Relation.ReflTransGen snippet.syntaxGraph.Refers (syntaxNode 0) node →
      snippet.IsSyntaxNode node := by
    intro node reached
    obtain ⟨index, present, rfl⟩ := snippet_reached reached
    exact syntaxNodes index present
  have acyclic : ∀ node, Relation.ReflTransGen snippet.syntaxGraph.Refers (syntaxNode 0) node →
      ¬ Relation.TransGen snippet.syntaxGraph.Refers node node := by
    intro node reached circle
    obtain ⟨index, present, rfl⟩ := snippet_reached reached
    obtain ⟨later, less, -, same⟩ := snippet_below present circle
    cases same
    exact absurd less (Nat.lt_irrefl _)
  refine ⟨nodes, acyclic, rfl, List.mem_cons_self, rfl, ?_⟩
  obtain ⟨walked, walks, reached, -, -, owners⟩ := parsedTree_indexes_owners 9 nodes acyclic
  have statement : syntaxNode 2 ∈ walked :=
    (reached _).mpr (.single (List.mem_cons_of_mem _ List.mem_cons_self))
  have shared := (owners (syntaxNode 3) (syntaxNodes 3 (by decide))).2.1 _ statement
    List.mem_cons_self
  exact ⟨walked, walks, shared.1⟩

end Snippet

end World

end TreeQuery
