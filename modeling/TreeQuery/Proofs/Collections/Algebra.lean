import TreeQuery.Proofs.Collections.KeyedSet
import TreeQuery.Proofs.Navigation.Steps

/-! # Laws of collections

Unions, differences and filters of collections obey the laws of sets, although a collection is told
by the order of its nodes and by which of the nodes with one key it holds. Recipes are nested calls
of these operations; what they make is a frontier, and two recipes agree just if they make one
frontier (`TreeQuery.Collections.Recipe.agree_iff`). The laws are equations between such frontiers
(`TreeQuery.Collections.WellFormed.obeys_setLaws`).
-/

namespace TreeQuery

namespace Frontier

variable {Node : Type} [Keyed Node] (first second third : Frontier Node)

/-- Frontiers may be put together from the left or from the right. -/
theorem insertAll_assoc : (first.insertAll second.nodes).insertAll third.nodes =
    first.insertAll (second.insertAll third.nodes).nodes := by
  apply ext_nodes
  rw [insertAll_insertAll, nodes_insertAll_eq_keepFirst, nodes_insertAll_eq_keepFirst first,
    nodes_insertAll_eq_keepFirst second, keepFirst_append_keepFirst]

theorem nodes_insertAll_nodes : (first.insertAll second.nodes).nodes =
    first.nodes ++ without first.keys second.nodes := by
  rw [nodes_insertAll, fresh_eq_without, keepFirst_nodes]

theorem insertAll_self : first.insertAll first.nodes = first :=
  insertAll_eq_self fun _ member => List.mem_map_of_mem member

/-- Only what is not there yet is added. -/
theorem insertAll_removeAll_self : first.insertAll (second.removeAll first.nodes).nodes =
    first.insertAll second.nodes := by
  apply ext_nodes
  rw [nodes_insertAll_nodes, nodes_insertAll_nodes, nodes_removeAll_eq_without, ← keys]
  congr 1
  unfold without
  rw [List.filter_filter]
  simp only [Bool.and_self]

/-- Taking out what two frontiers hold together takes out what one holds and then what the other
does. -/
theorem removeAll_insertAll : first.removeAll (second.insertAll third.nodes).nodes =
    (first.removeAll second.nodes).removeAll third.nodes := by
  apply ext_nodes
  rw [removeAll_removeAll, nodes_removeAll_eq_without, nodes_removeAll_eq_without,
    nodes_insertAll_eq_keepFirst, without_congr fun _ => mem_keys_keepFirst]

theorem removeAll_comm : (first.removeAll second.nodes).removeAll third.nodes =
    (first.removeAll third.nodes).removeAll second.nodes := by
  apply ext_nodes
  simp only [nodes_removeAll_eq_without]
  exact List.filter_comm _ _ _

/-- What is taken out may be taken out of either frontier before they come together. -/
theorem insertAll_removeAll : (first.insertAll second.nodes).removeAll third.nodes =
    (first.removeAll third.nodes).insertAll (second.removeAll third.nodes).nodes := by
  apply ext_nodes
  simp only [nodes_removeAll_eq_without, nodes_insertAll_eq_keepFirst]
  rw [without_keepFirst, without, List.filter_append]
  rfl

/-- What is taken out may be taken out before or after a test. -/
theorem filter_removeAll (accepts : Node → Bool) :
    (first.removeAll second.nodes).filter accepts =
      (first.filter accepts).removeAll second.nodes := by
  apply ext_nodes
  simp only [nodes_filter, nodes_removeAll_eq_without]
  exact List.filter_comm _ _ _

variable {first second}

/-- A test may be made on each of two frontiers before they come together exactly if it accepts a
node of the first whenever it accepts one with its key of the second. -/
theorem filter_insertAll_iff {accepts : Node → Bool} :
    (first.insertAll second.nodes).filter accepts =
        (first.filter accepts).insertAll (second.filter accepts).nodes ↔
      ∀ one ∈ first.nodes, ∀ other ∈ second.nodes, Keyed.key one = Keyed.key other →
        accepts other = true → accepts one = true := by
  constructor
  · intro same one inFirst other inSecond key passes
    by_contra refused
    have unseen : Keyed.key other ∉ (first.filter accepts).keys := by
      rw [keys, List.mem_map]
      rintro ⟨node, found, equal⟩
      obtain ⟨member, accepted⟩ := List.mem_filter.mp found
      cases List.inj_on_of_nodup_map first.distinct member inFirst (equal.trans key.symm)
      exact refused accepted
    have added :
        other ∈ ((first.filter accepts).insertAll (second.filter accepts).nodes).nodes := by
      rw [nodes_insertAll_nodes, List.mem_append, mem_without]
      exact .inr ⟨List.mem_filter.mpr ⟨inSecond, passes⟩, unseen⟩
    rw [← same, nodes_filter, List.mem_filter, nodes_insertAll_nodes, List.mem_append,
      mem_without] at added
    rcases added.1 with old | new
    · cases List.inj_on_of_nodup_map first.distinct inFirst old key
      exact refused passes
    · exact new.2 (key ▸ List.mem_map_of_mem inFirst)
  · intro alike
    apply ext_nodes
    rw [nodes_filter, nodes_insertAll_nodes, nodes_insertAll_nodes, List.filter_append]
    congr 1
    simp only [without, nodes_filter, List.filter_filter]
    apply List.filter_congr
    intro other inSecond
    cases passes : accepts other with
    | false => simp
    | true =>
        have seen : Keyed.key other ∈ first.keys ↔
            Keyed.key other ∈ (first.filter accepts).keys := by
          constructor
          · intro known
            obtain ⟨one, inFirst, key⟩ := List.mem_map.mp known
            have accepted := alike one inFirst other inSecond key passes
            exact key ▸ List.mem_map_of_mem (List.mem_filter.mpr ⟨inFirst, accepted⟩)
          · intro known
            obtain ⟨one, found, key⟩ := List.mem_map.mp known
            exact key ▸ List.mem_map_of_mem (List.mem_filter.mp found).1
        simp [seen]

end Frontier

namespace Collections

/-- A test that ends with a verdict about every node, whatever was done before. -/
structure PureTest (Node Leaf Failure : Type) where
  question : Node → Run Node Leaf Failure Bool
  verdict : Node → Bool
  decides : ∀ node, (question node).Ends (.ok (verdict node))

/-- How a collection is made out of some that are there, by nested calls of operations that hand out
collections and change none. -/
inductive Recipe (Node Leaf Failure : Type) (count : Nat) where
  | held (index : Fin count)
  | union (first second : Recipe Node Leaf Failure count)
  | difference (first second : Recipe Node Leaf Failure count)
  | filter (base : Recipe Node Leaf Failure count) (test : PureTest Node Leaf Failure)

namespace Recipe

variable {Node Leaf Failure : Type} [Keyed Node] {count : Nat}

/-- Evaluates the receiver of a call and then its argument, and then makes the call. -/
def calling (call : Collections Node → Nat → NodeSource Node → Collections Node × Nat)
    (first second : Collections Node → Run Node Leaf Failure (Collections Node × Nat))
    (collections : Collections Node) : Run Node Leaf Failure (Collections Node × Nat) := do
  let (collections, receiver) ← first collections
  let (collections, argument) ← second collections
  return call collections receiver (.collection argument)

/-- Evaluates a recipe, from the inside to the outside and from left to right. -/
def make : Recipe Node Leaf Failure count → Collections Node →
    Run Node Leaf Failure (Collections Node × Nat)
  | held index => fun collections => pure (collections, index)
  | union first second => calling Collections.union first.make second.make
  | difference first second => calling Collections.difference first.make second.make
  | filter base test => fun collections => do
      let (collections, receiver) ← base.make collections
      collections.filterRun test.question receiver

/-- What a recipe makes of collections. -/
def frontier (collections : Collections Node) : Recipe Node Leaf Failure count → Frontier Node
  | held index => collections.get index
  | union first second =>
      (first.frontier collections).insertAll (second.frontier collections).nodes
  | difference first second =>
      (first.frontier collections).removeAll (second.frontier collections).nodes
  | filter base test => (base.frontier collections).filter test.verdict

variable {collections : Collections Node}

/-- A call that creates a collection of what its operands hold hands it out. -/
theorem calling_settles {call : Collections Node → Nat → NodeSource Node → Collections Node × Nat}
    {joined : Frontier Node → List Node → Frontier Node}
    (creates : ∀ collections index source, call collections index source =
      Collections.create collections (joined (collections.get index) (collections.listed source)))
    {first second : Collections Node → Run Node Leaf Failure (Collections Node × Nat)}
    {one other : Frontier Node} (firstSettles : (first collections).Settles (Hands collections one))
    (secondSettles : ∀ grown, collections.Extends grown →
      (second grown).Settles (Hands grown other)) :
    (calling call first second collections).Settles
      (Hands collections (joined one other.nodes)) := by
  apply firstSettles.bind
  rintro ⟨grown, receiver⟩ received
  apply (secondSettles grown received.old_extends).bind
  rintro ⟨later, argument⟩ given
  refine .pure ?_
  rw [creates]
  have kept : later.get receiver = one :=
    (given.old_extends.kept receiver received.present).trans received.nodes
  have made := create_hands later
    (joined (later.get receiver) (later.listed (.collection argument)))
  refine ⟨received.old_extends.trans (given.old_extends.trans made.old_extends), made.present, ?_⟩
  rw [made.nodes, kept, listed, given.nodes]

/-- A filter by a pure test hands out what passes it. -/
theorem filterRun_settles (formed : collections.WellFormed) (test : PureTest Node Leaf Failure)
    {index : Nat} (present : index < collections.frontiers.size) :
    (collections.filterRun test.question index).Settles
      (Hands collections ((collections.get index).filter test.verdict)) := by
  rw [filterRun]
  split
  · next same =>
    subst same
    refine .pure ⟨.refl _, present, ?_⟩
    rw [formed.nothing]
    rfl
  · have asked : ((collections.get index).filterRun test.question).Ends
        (.ok ((collections.get index).filter test.verdict)) :=
      Frontier.filterRun_ends fun node _ => test.decides node
    have adds : collections.Adds
        (collections.result ((collections.get index).filter test.verdict)) :=
      result_adds formed.present
    exact ⟨_, asked.bind_ok (.pure _), adds.old_extends, adds.present, get_result formed.nothing⟩

/-- Evaluating a recipe hands out what it makes. -/
theorem make_settles (formed : collections.WellFormed)
    (recipe : Recipe Node Leaf Failure collections.frontiers.size) {grown : Collections Node}
    (later : collections.Extends grown) :
    (recipe.make grown).Settles (Hands grown (recipe.frontier collections)) := by
  induction recipe generalizing grown with
  | held index =>
      refine .pure ⟨.refl _, Nat.lt_of_lt_of_le index.isLt later.grown, ?_⟩
      exact later.kept index index.isLt
  | union first second firstIH secondIH =>
      exact calling_settles (fun _ _ _ => rfl) (firstIH later)
        fun _ more => secondIH (later.trans more)
  | difference first second firstIH secondIH =>
      exact calling_settles (fun _ _ _ => rfl) (firstIH later)
        fun _ more => secondIH (later.trans more)
  | filter base test ih =>
      apply (ih later).bind
      rintro ⟨found, receiver⟩ received
      have whole := (formed.of_extends later).of_extends received.old_extends
      apply (filterRun_settles whole test received.present).mono
      intro handed hands
      refine ⟨received.old_extends.trans hands.old_extends, hands.present, ?_⟩
      rw [hands.nodes, received.nodes]
      rfl

/-- Evaluated among the same collections, two recipes come to collections of the same nodes in the
same order, and all collections that there were stay as they were. -/
def Agree (collections : Collections Node)
    (one other : Recipe Node Leaf Failure collections.frontiers.size) : Prop :=
  ∃ left right, (one.make collections).Ends (.ok left) ∧ (other.make collections).Ends (.ok right) ∧
    collections.Extends left.1 ∧ collections.Extends right.1 ∧
    (left.1.get left.2).nodes = (right.1.get right.2).nodes

/-- Recipes agree exactly if they make one frontier. -/
theorem agree_iff (formed : collections.WellFormed)
    {one other : Recipe Node Leaf Failure collections.frontiers.size} :
    Agree collections one other ↔ one.frontier collections = other.frontier collections := by
  obtain ⟨left, leftEnds, leftHands⟩ := make_settles formed one (.refl _)
  obtain ⟨right, rightEnds, rightHands⟩ := make_settles formed other (.refl _)
  constructor
  · rintro ⟨first, second, firstEnds, secondEnds, -, -, same⟩
    cases (leftEnds {}).symm.trans (firstEnds {})
    cases (rightEnds {}).symm.trans (secondEnds {})
    rw [leftHands.nodes, rightHands.nodes] at same
    exact Frontier.ext_nodes same
  · intro same
    refine ⟨left, right, leftEnds, rightEnds, leftHands.old_extends, rightHands.old_extends, ?_⟩
    rw [leftHands.nodes, rightHands.nodes, same]

end Recipe

section Laws

variable {Node Leaf Failure : Type} [Keyed Node] {collections : Collections Node}

open Recipe (Agree)

/-- The laws of sets for what three recipes make, with the order of nodes and the nodes that stand
for their keys. -/
structure SetLaws (collections : Collections Node)
    (a b c : Recipe Node Leaf Failure collections.frontiers.size) : Prop where
  union_assoc : Agree collections ((a.union b).union c) (a.union (b.union c))
  union_self : Agree collections (a.union a) a
  union_difference_self : Agree collections (a.union b) (a.union (b.difference a))
  difference_union : Agree collections (a.difference (b.union c)) ((a.difference b).difference c)
  difference_union_comm :
    Agree collections (a.difference (b.union c)) ((a.difference c).difference b)
  union_difference :
    Agree collections ((a.union b).difference c) ((a.difference c).union (b.difference c))
  difference_filter : ∀ test,
    Agree collections ((a.difference b).filter test) ((a.filter test).difference b)
  /-- A test may be made before a union if it does not tell nodes of one key apart. -/
  union_filter : ∀ test, (∀ one other : Node, Keyed.key one = Keyed.key other →
      test.verdict one = test.verdict other) →
    Agree collections ((a.union b).filter test) ((a.filter test).union (b.filter test))
  /-- It may be made before just if no node of the first operand is refused that keeps an accepted
  one of the second out. -/
  union_filter_iff : ∀ test,
    Agree collections ((a.union b).filter test) ((a.filter test).union (b.filter test)) ↔
      ∀ one ∈ (a.frontier collections).nodes, ∀ other ∈ (b.frontier collections).nodes,
        Keyed.key one = Keyed.key other → test.verdict other = true → test.verdict one = true

/-- **Collections obey the laws of sets.** Whatever the keys, unions, differences and filters by
pure tests that are nested in the two ways of a law come to the same nodes in the same order, for
each key by the same node, whatever the operands are, the shared empty collection among them. Only a
filter over a union needs that its test does not tell nodes of one key apart. -/
theorem WellFormed.obeys_setLaws (formed : collections.WellFormed)
    (a b c : Recipe Node Leaf Failure collections.frontiers.size) : SetLaws collections a b c := by
  have filtered : ∀ test : PureTest Node Leaf Failure,
      Agree collections ((a.union b).filter test) ((a.filter test).union (b.filter test)) ↔
        ∀ one ∈ (a.frontier collections).nodes, ∀ other ∈ (b.frontier collections).nodes,
          Keyed.key one = Keyed.key other → test.verdict other = true →
            test.verdict one = true := by
    intro test
    rw [Recipe.agree_iff formed]
    exact Frontier.filter_insertAll_iff
  exact
    { union_assoc := (Recipe.agree_iff formed).mpr (Frontier.insertAll_assoc _ _ _)
      union_self := (Recipe.agree_iff formed).mpr (Frontier.insertAll_self _)
      union_difference_self :=
        (Recipe.agree_iff formed).mpr (Frontier.insertAll_removeAll_self _ _).symm
      difference_union := (Recipe.agree_iff formed).mpr (Frontier.removeAll_insertAll _ _ _)
      difference_union_comm := by
        apply (Recipe.agree_iff formed).mpr
        exact (Frontier.removeAll_insertAll _ _ _).trans (Frontier.removeAll_comm _ _ _)
      union_difference := (Recipe.agree_iff formed).mpr (Frontier.insertAll_removeAll _ _ _)
      difference_filter := fun test =>
        (Recipe.agree_iff formed).mpr (Frontier.filter_removeAll _ _ _)
      union_filter := fun test alike => (filtered test).mpr fun one _ other _ same passes =>
        (alike one other same).trans passes
      union_filter_iff := filtered }

end Laws

section Shelves

/-- The shelf of one copy and the original beside a shelf of another copy. -/
def shelves : Collections Value := (shelf.create (.ofList [copy 2])).1

/-- The test for the second copy. -/
def isSecond : PureTest Value Unit Unit where
  question node := pure (node.place? == some (.member 2))
  verdict node := node.place? == some (.member 2)
  decides _ := .pure _

/-- The shelves and the shared empty collection obey the laws. The test for a copy that is kept out
of the union of the shelves by another copy is none that may be made before. -/
theorem shelves_obey_setLaws :
    let first : Recipe Value Unit Unit shelves.frontiers.size := .held ⟨1, by decide⟩
    let second : Recipe Value Unit Unit shelves.frontiers.size := .held ⟨2, by decide⟩
    let none : Recipe Value Unit Unit shelves.frontiers.size := .held ⟨shared, by decide⟩
    shelves.WellFormed ∧ SetLaws shelves first second none ∧
      (first.frontier shelves).nodes = [copy 1, original] ∧
      (second.frontier shelves).nodes = [copy 2] ∧ (none.frontier shelves).nodes = [] ∧
      ¬ Recipe.Agree shelves ((first.union second).filter isSecond)
        ((first.filter isSecond).union (second.filter isSecond)) := by
  intro first second none
  have formed : shelves.WellFormed := ⟨by decide, rfl⟩
  have laws := formed.obeys_setLaws first second none
  have nodes : (first.frontier shelves).nodes = [copy 1, original] := rfl
  have others : (second.frontier shelves).nodes = [copy 2] := rfl
  refine ⟨formed, laws, nodes, others, rfl, ?_⟩
  rw [laws.union_filter_iff, nodes, others]
  intro alike
  have accepted := alike (copy 1) List.mem_cons_self (copy 2) List.mem_cons_self rfl rfl
  exact absurd accepted (by decide)

end Shelves

end Collections

end TreeQuery
