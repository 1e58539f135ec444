import Mathlib.Logic.Function.Basic
import TreeQuery.Proofs.Collections.Growth
import TreeQuery.Proofs.Frontier.Chronicle
import TreeQuery.World

/-! # Collections as sets with an order

Every collection but the shared empty one is in step with what happened to it since it was made,
whichever operations were performed on it and on others (`TreeQuery.Collections.Recorded`). The
operations tell truly whether they changed something, union and difference leave their operands
alone, and a filter asks about every node once and keeps what was accepted
(`TreeQuery.Collections.act_as_keyed_sets`).
-/

namespace TreeQuery.Collections

variable {Node : Type} [Keyed Node]

/-- What happened to each collection. -/
abbrev Log (Node : Type) := Nat → List (Event Node)

/-- Collections that came about by operations on collections, and what happened to each of them.
What is handed out is made of the nodes of one collection, to which the nodes of an argument are
added or out of which they are taken. No collection is taken out of itself. -/
inductive Recorded : Collections Node → Log Node → Prop where
  | start : Recorded {} fun _ => []
  | construct {collections : Collections Node} {log : Log Node} (source : NodeSource Node)
      (recorded : Recorded collections log) :
      Recorded (collections.create (.ofList (collections.listed source))).1
        (Function.update log collections.frontiers.size
          ((collections.listed source).map .inserted))
  | add {collections : Collections Node} {log : Log Node} {index : Nat} {node : Node}
      {changed : Collections Node × Bool} (present : index < collections.frontiers.size)
      (done : collections.add index node = .ok changed) (recorded : Recorded collections log) :
      Recorded changed.1 (Function.update log index (log index ++ [.inserted node]))
  | addAll {collections : Collections Node} {log : Log Node} {index : Nat}
      {source : NodeSource Node} {changed : Collections Node × Bool}
      (present : index < collections.frontiers.size)
      (done : collections.addAll index source = .ok changed)
      (recorded : Recorded collections log) :
      Recorded changed.1
        (Function.update log index (log index ++ (collections.listed source).map .inserted))
  | removeAll {collections : Collections Node} {log : Log Node} {index : Nat}
      {source : NodeSource Node} (present : index < collections.frontiers.size)
      (apart : source ≠ .collection index) (recorded : Recorded collections log) :
      Recorded (collections.removeAll index source).1
        (Function.update log index (log index ++ (collections.listed source).map .removed))
  | union {collections : Collections Node} {log : Log Node} (index : Nat)
      (source : NodeSource Node) (recorded : Recorded collections log) :
      Recorded (collections.union index source).1
        (Function.update log collections.frontiers.size
          ((collections.get index).nodes.map .inserted ++
            (collections.listed source).map .inserted))
  | difference {collections : Collections Node} {log : Log Node} (index : Nat)
      (source : NodeSource Node) (recorded : Recorded collections log) :
      Recorded (collections.difference index source).1
        (Function.update log collections.frontiers.size
          ((collections.get index).nodes.map .inserted ++
            (collections.listed source).map .removed))
  | filter {collections : Collections Node} {log : Log Node} {Leaf Failure : Type}
      {accepts : Node → Run Node Leaf Failure Bool} {index : Nat} {verdicts : List Bool}
      {before after : Journal Node Leaf} {handed : Collections Node × Nat}
      (tested : ((collections.get index).nodes.mapM accepts).perform before = (.ok verdicts, after))
      (done : (collections.filterRun accepts index).perform before = (.ok handed, after))
      (recorded : Recorded collections log) :
      Recorded handed.1 (Function.update log handed.2
        ((Frontier.accepted (collections.get index).nodes verdicts).map .inserted))

/-- Collections each of which is in step with what happened to it. -/
structure InStep (collections : Collections Node) (log : Log Node) : Prop where
  formed : collections.WellFormed
  reflects : ∀ index < collections.frontiers.size, (collections.get index).Reflects (log index)

namespace InStep

variable {collections : Collections Node} {log : Log Node}

theorem start : InStep ({} : Collections Node) fun _ => [] where
  formed := ⟨Nat.zero_lt_one, rfl⟩
  reflects index present := by
    rw [Nat.lt_one_iff.mp present]
    exact .empty

/-- A new collection that is in step with what is recorded of it. -/
theorem create (inStep : InStep collections log) {frontier : Frontier Node}
    {events : List (Event Node)} (reflects : frontier.Reflects events) :
    InStep (collections.create frontier).1
      (Function.update log collections.frontiers.size events) where
  formed := inStep.formed.of_extends (create_adds collections frontier).old_extends
  reflects index present := by
    rw [size_create] at present
    rcases Nat.lt_succ_iff_lt_or_eq.mp present with old | rfl
    · rw [get_create_of_lt collections frontier old, Function.update_of_ne (Nat.ne_of_lt old)]
      exact inStep.reflects index old
    · rw [Function.update_self]
      exact (get_create_self collections frontier).symm ▸ reflects

/-- A collection that changes as is recorded of it. -/
theorem put (inStep : InStep collections log) {index : Nat} {frontier : Frontier Node}
    {events : List (Event Node)} (present : index < collections.frontiers.size)
    (harmless : index = shared → frontier = ∅) (reflects : frontier.Reflects events) :
    InStep (collections.put index frontier) (Function.update log index events) where
  formed := inStep.formed.put harmless
  reflects other known := by
    rw [size_put] at known
    by_cases same : other = index
    · subst same
      rwa [get_put_self collections frontier present, Function.update_self]
    · rw [get_put_of_ne collections frontier (Ne.symm same), Function.update_of_ne same]
      exact inStep.reflects other known

/-- Nothing happens to the shared collection. -/
theorem keep_shared (inStep : InStep collections log) :
    InStep collections (Function.update log shared []) where
  formed := inStep.formed
  reflects index present := by
    by_cases same : index = shared
    · rw [same, Function.update_self, inStep.formed.nothing]
      exact .empty
    · rw [Function.update_of_ne same]
      exact inStep.reflects index present

/-- A result is in step with the insertion of its nodes. -/
theorem result (inStep : InStep collections log) (frontier : Frontier Node) :
    InStep (collections.result frontier).1
      (Function.update log (collections.result frontier).2
        (frontier.nodes.map .inserted)) := by
  by_cases none : frontier.isEmpty = true
  · rw [result_of_isEmpty none, Frontier.isEmpty_eq_true_iff.mp none]
    exact inStep.keep_shared
  · rw [result_of_not_isEmpty none]
    exact inStep.create (.nodes frontier)

theorem add (inStep : InStep collections log) {index : Nat} {node : Node}
    {changed : Collections Node × Bool} (present : index < collections.frontiers.size)
    (done : collections.add index node = .ok changed) :
    InStep changed.1 (Function.update log index (log index ++ [.inserted node])) := by
  rw [Collections.add] at done
  split at done
  · cases done
  · next apart =>
    cases done
    exact inStep.put present (fun same => absurd same apart)
      ((inStep.reflects index present).insert node)

theorem addAll (inStep : InStep collections log) {index : Nat} {source : NodeSource Node}
    {changed : Collections Node × Bool} (present : index < collections.frontiers.size)
    (done : collections.addAll index source = .ok changed) :
    InStep changed.1
      (Function.update log index (log index ++ (collections.listed source).map .inserted)) := by
  rw [Collections.addAll] at done
  dsimp only at done
  split at done
  · split at done
    · next none =>
      cases done
      rw [List.isEmpty_iff.mp none, List.map_nil, List.append_nil, Function.update_eq_self]
      exact inStep
    · cases done
  · next apart =>
    cases done
    exact inStep.put present (fun same => absurd same apart)
      ((inStep.reflects index present).insertAll _)

end InStep

section Operations

variable {collections : Collections Node}

/-- What is left when the nodes of an argument are taken out of another collection, and whether
something was. -/
theorem removeAll_of_ne (collections : Collections Node) {index : Nat} {source : NodeSource Node}
    (apart : source ≠ .collection index) :
    let rest := (collections.get index).removeAll (collections.listed source)
    collections.removeAll index source =
      (collections.put index rest, .ok (rest.size != (collections.get index).size)) := by
  cases source with
  | list nodes => rfl
  | collection argument =>
      have other : argument ≠ index := fun same => apart (same ▸ rfl)
      rw [removeAll.eq_def]
      dsimp only
      rw [if_neg other]
      rfl

variable {Leaf Failure : Type} {accepts : Node → Run Node Leaf Failure Bool} {index : Nat}
  {before after : Journal Node Leaf}

/-- A filter goes by the verdicts on the nodes of its collection, one after the other. -/
theorem filterRun_of_verdicts (apart : index ≠ shared) {verdicts : List Bool}
    (tested : ((collections.get index).nodes.mapM accepts).perform before =
      (.ok verdicts, after)) :
    (collections.filterRun accepts index).perform before =
      (.ok (collections.result ((collections.get index).select verdicts)), after) := by
  rw [filterRun, if_neg apart, Frontier.filterRun, bind_assoc, Run.perform_bind, tested]
  rfl

/-- A filter fails with the first failure of its test. -/
theorem filterRun_of_fault (apart : index ≠ shared) {fault : Fault Failure}
    (tested : ((collections.get index).nodes.mapM accepts).perform before =
      (.error fault, after)) :
    (collections.filterRun accepts index).perform before = (.error fault, after) := by
  rw [filterRun, if_neg apart, Frontier.filterRun, bind_assoc, Run.perform_bind, tested]

end Operations

namespace InStep

variable {collections : Collections Node} {log : Log Node}

theorem removeAll (inStep : InStep collections log) {index : Nat} {source : NodeSource Node}
    (present : index < collections.frontiers.size) (apart : source ≠ .collection index) :
    InStep (collections.removeAll index source).1
      (Function.update log index (log index ++ (collections.listed source).map .removed)) := by
  rw [removeAll_of_ne collections apart]
  refine inStep.put present (fun same => ?_) ((inStep.reflects index present).removeAll _)
  rw [same, inStep.formed.nothing]
  rfl

/-- A filter tests the nodes of its collection, so what it hands out is in step with the insertion
of the accepted ones. -/
theorem filter (inStep : InStep collections log) {Leaf Failure : Type}
    {accepts : Node → Run Node Leaf Failure Bool} {index : Nat} {verdicts : List Bool}
    {before after : Journal Node Leaf} {handed : Collections Node × Nat}
    (tested : ((collections.get index).nodes.mapM accepts).perform before = (.ok verdicts, after))
    (done : (collections.filterRun accepts index).perform before = (.ok handed, after)) :
    InStep handed.1 (Function.update log handed.2
      ((Frontier.accepted (collections.get index).nodes verdicts).map .inserted)) := by
  by_cases same : index = shared
  · have none : Frontier.accepted (collections.get index).nodes verdicts = [] := by
      rw [same, inStep.formed.nothing]
      rfl
    rw [none]
    rw [filterRun, if_pos same] at done
    cases done
    exact inStep.keep_shared
  · rw [filterRun_of_verdicts same tested] at done
    cases done
    exact inStep.result _

end InStep

/-- Whatever operations are performed, collections stay in step with what happened to them. -/
theorem Recorded.inStep {collections : Collections Node} {log : Log Node}
    (recorded : Recorded collections log) : InStep collections log := by
  induction recorded with
  | start => exact .start
  | construct source _ ih => exact ih.create (.ofList _)
  | add present done _ ih => exact ih.add present done
  | addAll present done _ ih => exact ih.addAll present done
  | removeAll present apart _ ih => exact ih.removeAll present apart
  | union index source _ ih => exact ih.create ((Frontier.Reflects.nodes _).insertAll _)
  | difference index source _ ih => exact ih.create ((Frontier.Reflects.nodes _).removeAll _)
  | filter tested done _ ih => exact ih.filter tested done

section Telling

variable {collections : Collections Node} {index : Nat}

/-- One collection of many has changed at most, and it is told truly whether its keys have. -/
structure Alters (old : Collections Node) (index : Nat) (changed : Collections Node × Bool) :
    Prop where
  told : changed.2 = true ↔ (changed.1.get index).keys ≠ (old.get index).keys
  others : ∀ other, other ≠ index → changed.1.get other = old.get other

theorem put_alters (present : index < collections.frontiers.size) {frontier : Frontier Node}
    {flag : Bool} (told : flag = true ↔ frontier.keys ≠ (collections.get index).keys) :
    collections.Alters index (collections.put index frontier, flag) where
  told := by
    rw [get_put_self collections frontier present]
    exact told
  others _ apart := get_put_of_ne collections frontier (Ne.symm apart)

/-- Where no node is lost or none is gained, a change of the number of nodes is a change of the
keys. -/
theorem size_ne_iff_keys_ne {frontier other : Frontier Node}
    (comparable : frontier.nodes.Sublist other.nodes ∨ other.nodes.Sublist frontier.nodes) :
    (other.size != frontier.size) = true ↔ other.keys ≠ frontier.keys := by
  rw [bne_iff_ne]
  refine not_congr ⟨fun same => ?_, fun same => ?_⟩
  · have nodes : frontier.nodes = other.nodes := by
      rcases comparable with grown | shrunk
      · exact grown.eq_of_length same.symm
      · exact (shrunk.eq_of_length same).symm
    rw [Frontier.keys, Frontier.keys, nodes]
  · have lengths := congrArg List.length same
    rwa [Frontier.keys, Frontier.keys, List.length_map, List.length_map] at lengths

theorem add_alters (present : index < collections.frontiers.size) (apart : index ≠ shared)
    (node : Node) : ∃ changed, collections.add index node = .ok changed ∧
      collections.Alters index changed := by
  rw [add, if_neg apart]
  refine ⟨_, rfl, put_alters present ?_⟩
  have keys : ((collections.get index).insert node).keys =
      if Keyed.key node ∈ (collections.get index).keys then (collections.get index).keys
      else (collections.get index).keys ++ [Keyed.key node] := by
    rw [Frontier.keys, Frontier.insert, Frontier.nodes_insertAll, Frontier.fresh]
    split
    · rw [Frontier.fresh, List.append_nil, Frontier.keys]
    · rw [Frontier.fresh, List.map_append, List.map_singleton, Frontier.keys]
  rw [keys, Bool.not_eq_true', Bool.eq_false_iff, ne_eq, Frontier.contains, List.contains_iff_mem]
  split
  · next known => exact iff_of_false (fun unknown => unknown known) fun changed => changed rfl
  · next unknown =>
    refine iff_of_true unknown fun same => ?_
    exact List.cons_ne_nil _ _ (List.append_right_eq_self.mp same)

theorem addAll_alters (present : index < collections.frontiers.size) (apart : index ≠ shared)
    (source : NodeSource Node) : ∃ changed, collections.addAll index source = .ok changed ∧
      collections.Alters index changed := by
  rw [addAll]
  dsimp only
  rw [if_neg apart]
  refine ⟨_, rfl, put_alters present (size_ne_iff_keys_ne (.inl ?_))⟩
  rw [Frontier.nodes_insertAll]
  exact List.sublist_append_left _ _

theorem removeAll_alters (present : index < collections.frontiers.size) {source : NodeSource Node}
    (apart : source ≠ .collection index) : ∃ changed flag,
      collections.removeAll index source = (changed, .ok flag) ∧
        collections.Alters index (changed, flag) := by
  rw [removeAll_of_ne collections apart]
  refine ⟨_, _, rfl, put_alters present (size_ne_iff_keys_ne (.inr ?_))⟩
  rw [Frontier.nodes_removeAll]
  exact List.filter_sublist

end Telling

section Testing

variable {Leaf Failure : Type} (leaf : Leaf) {answer : Node → Except (Fault Failure) Bool}

/-- A test that asks a leaf about a node and goes by the answer. -/
def asking (answer : Node → Except (Fault Failure) Bool) (node : Node) :
    Run Node Leaf Failure Bool := do
  Run.note (.tested leaf node)
  answer node

/-- A journal with a question about each node of a list, in order. -/
def askedAbout (nodes : List Node) (before : Journal Node Leaf) : Journal Node Leaf :=
  { before with calls := (nodes.map (Call.tested leaf)).reverse ++ before.calls }

omit [Keyed Node] in
theorem perform_asking (node : Node) (before : Journal Node Leaf) :
    (asking leaf answer node).perform before = (answer node, askedAbout leaf [node] before) := by
  rw [asking, Run.perform_bind, Run.perform_note]
  exact Run.perform_liftExcept _ _

omit [Keyed Node] in
theorem askedAbout_cons (node : Node) (rest : List Node) (before : Journal Node Leaf) :
    askedAbout leaf rest (askedAbout leaf [node] before) =
      askedAbout leaf (node :: rest) before := by
  simp [askedAbout]

omit [Keyed Node] in
/-- Where all tests have a verdict, each node is asked about once. -/
theorem perform_mapM_asking {verdict : Node → Bool} {nodes : List Node}
    (answers : ∀ node ∈ nodes, answer node = .ok (verdict node)) (before : Journal Node Leaf) :
    (nodes.mapM (asking leaf answer)).perform before =
      (.ok (nodes.map verdict), askedAbout leaf nodes before) := by
  induction nodes generalizing before with
  | nil => rfl
  | cons node rest ih =>
      obtain ⟨here, others⟩ := List.forall_mem_cons.mp answers
      rw [List.mapM_cons, Run.perform_bind, perform_asking, here]
      dsimp only
      rw [Run.perform_bind, ih others, askedAbout_cons]
      rfl

omit [Keyed Node] in
/-- Where a test fails, no node is asked about after it. -/
theorem perform_mapM_asking_of_fault {front rest : List Node} {node : Node} {fault : Fault Failure}
    (answers : ∀ other ∈ front, ∃ verdict, answer other = .ok verdict)
    (fails : answer node = .error fault) (before : Journal Node Leaf) :
    ((front ++ node :: rest).mapM (asking leaf answer)).perform before =
      (.error fault, askedAbout leaf (front ++ [node]) before) := by
  induction front generalizing before with
  | nil =>
      rw [List.nil_append, List.mapM_cons, Run.perform_bind, perform_asking, fails]
      rfl
  | cons first front ih =>
      obtain ⟨⟨verdict, here⟩, others⟩ := List.forall_mem_cons.mp answers
      rw [List.cons_append, List.mapM_cons, Run.perform_bind, perform_asking, here]
      dsimp only
      rw [Run.perform_bind, ih others, askedAbout_cons]
      rfl

end Testing

/-- Collections that act as sets of keys, in the order in which these came. -/
structure ActAsKeyedSets (collections : Collections Node) (log : Log Node) : Prop where
  distinct : ∀ index, ((collections.get index).nodes.map Keyed.key).Nodup
  /-- A key is stored exactly if it was inserted after it was last removed, and the nodes stand in
  the order of the insertions that last made their keys come. -/
  reflects : ∀ index < collections.frontiers.size, (collections.get index).Reflects (log index)
  /-- Membership is that of the key. -/
  contains : ∀ index < collections.frontiers.size, ∀ node,
    (collections.get index).contains node = true ↔ Chronicle.Keeps (log index) (Keyed.key node)
  /-- The size is the number of the keys. -/
  size : ∀ index < collections.frontiers.size, ∀ keys : List (Keyed.Key Node), keys.Nodup →
    (∀ key, key ∈ keys ↔ Chronicle.Keeps (log index) key) →
      (collections.get index).size = keys.length
  /-- Adding a node works and tells whether the keys have changed. -/
  added : ∀ index < collections.frontiers.size, index ≠ shared → ∀ node,
    ∃ changed, collections.add index node = .ok changed ∧ collections.Alters index changed
  /-- Adding nodes works and tells whether the keys have changed. -/
  addedAll : ∀ index < collections.frontiers.size, index ≠ shared → ∀ source,
    ∃ changed, collections.addAll index source = .ok changed ∧ collections.Alters index changed
  /-- Taking nodes out works and tells whether the keys have changed, unless the nodes are those of
  the collection itself. -/
  removedAll : ∀ index < collections.frontiers.size, ∀ source, source ≠ .collection index →
    ∃ changed flag, collections.removeAll index source = (changed, .ok flag) ∧
      collections.Alters index (changed, flag)
  /-- A union is a new collection, of the nodes of the first operand and then, for each key that is
  not among theirs, of its first node in the second one. -/
  joined : ∀ index source, let handed := collections.union index source
    collections.Extends handed.1 ∧ handed.2 = collections.frontiers.size ∧
      (handed.1.get handed.2).nodes = (collections.get index).nodes ++
        Frontier.without (collections.get index).keys
          (Frontier.keepFirst (collections.listed source))
  /-- A difference is a new collection, of the nodes of the first operand whose keys are not among
  those of the second one. -/
  parted : ∀ index source, let handed := collections.difference index source
    collections.Extends handed.1 ∧ handed.2 = collections.frontiers.size ∧
      (handed.1.get handed.2).nodes =
        Frontier.without ((collections.listed source).map Keyed.key) (collections.get index).nodes
  /-- A filter asks about each node once, in order, and hands out those accepted, in order, or the
  shared collection if there are none. -/
  filtered : ∀ {Leaf Failure : Type} (leaf : Leaf) (answer : Node → Except (Fault Failure) Bool)
    (verdict : Node → Bool) (index : Nat), index ≠ shared →
      (∀ node ∈ (collections.get index).nodes, answer node = .ok (verdict node)) → ∀ before,
        ∃ handed, (collections.filterRun (asking leaf answer) index).perform before =
          (.ok handed, askedAbout leaf (collections.get index).nodes before) ∧
          collections.Extends handed.1 ∧
          (handed.1.get handed.2).nodes = (collections.get index).nodes.filter verdict ∧
          (handed.2 = shared ↔ ∀ node ∈ (collections.get index).nodes, verdict node = false)
  /-- A filter ends with the first failure of its test and asks about no node after that. -/
  refused : ∀ {Leaf Failure : Type} (leaf : Leaf) (answer : Node → Except (Fault Failure) Bool)
    (index : Nat) (front : List Node) (node : Node) (rest : List Node) (fault : Fault Failure),
      index ≠ shared → (collections.get index).nodes = front ++ node :: rest →
      (∀ other ∈ front, ∃ verdict, answer other = .ok verdict) → answer node = .error fault →
      ∀ before, (collections.filterRun (asking leaf answer) index).perform before =
        (.error fault, askedAbout leaf (front ++ [node]) before)

/-- **Collections are keyed sets with an order.** Whatever the keys and whatever operations were
performed, on whichever collections, every collection holds the keys that were inserted after they
were last removed, each by the node that made it come and in the order in which they came, and all
operations and questions go by that. -/
theorem act_as_keyed_sets {collections : Collections Node} {log : Log Node}
    (recorded : Recorded collections log) : collections.ActAsKeyedSets log := by
  have inStep := recorded.inStep
  exact
    { distinct := fun index => (collections.get index).distinct
      reflects := inStep.reflects
      contains := fun index present => (inStep.reflects index present).contains_iff
      size := fun index present keys => (inStep.reflects index present).size_eq
      added := fun index present apart => add_alters present apart
      addedAll := fun index present apart => addAll_alters present apart
      removedAll := fun index present source apart => removeAll_alters present apart
      joined := fun index source => by
        refine ⟨(union_adds collections index source).old_extends, rfl, ?_⟩
        rw [union, get_create_self, Frontier.nodes_insertAll, Frontier.fresh_eq_without]
      parted := fun index source => by
        refine ⟨(difference_adds collections index source).old_extends, rfl, ?_⟩
        rw [difference, get_create_self, Frontier.nodes_removeAll_eq_without]
      filtered := fun leaf answer verdict index apart answers before => by
        have tested := perform_mapM_asking leaf answers before
        refine ⟨_, filterRun_of_verdicts apart tested, ?_, ?_, ?_⟩
        · exact (result_adds inStep.formed.present).old_extends
        · rw [get_result inStep.formed.nothing, Frontier.nodes_select, Frontier.accepted_map]
        · rw [result_shared_iff inStep.formed.present, ← Frontier.isEmpty_iff,
            Frontier.isEmpty_eq_true_iff, Frontier.nodes_select, Frontier.accepted_map,
            List.filter_eq_nil_iff]
          simp only [Bool.not_eq_true]
      refused := fun leaf answer index front node rest fault apart whole answers fails before => by
        refine filterRun_of_fault apart ?_
        rw [whole]
        exact perform_mapM_asking_of_fault leaf answers fails before }

section Shelves

/-- One of the nodes that share a key. -/
def copy (number : Nat) : Value := .node (.member number) (.identifier "copy")

def original : Value := .node (.member 0) (.identifier "original")

/-- A collection of two copies and the original. -/
def shelf : Collections Value := (create {} (.ofList [copy 1, copy 2, original])).1

/-- Of two copies the first is stored; one that is put back after a third was taken out stands
last. -/
theorem shelf_acts_as_keyed_sets : ∃ changed log,
    (shelf.get 1).nodes = [copy 1, original] ∧
      (shelf.removeAll 1 (.list [copy 3])).1.add 1 (copy 4) = .ok changed ∧
      Recorded changed.1 log ∧ log 1 = [.inserted (copy 1), .inserted (copy 2),
        .inserted original, .removed (copy 3), .inserted (copy 4)] ∧
      changed.1.ActAsKeyedSets log ∧ changed.2 = true ∧
      (changed.1.get 1).nodes = [original, copy 4] := by
  have stocked : Recorded shelf _ := .construct (.list [copy 1, copy 2, original]) .start
  have lent : Recorded (shelf.removeAll 1 (.list [copy 3])).1 _ :=
    .removeAll (by decide) nofun stocked
  obtain ⟨changed, done, -⟩ :=
    (act_as_keyed_sets lent).added 1 (by decide) (by decide) (copy 4)
  have returned := Recorded.add (by decide) done lent
  cases done
  exact ⟨_, _, rfl, rfl, returned, rfl, act_as_keyed_sets returned, rfl, rfl⟩

end Shelves

end TreeQuery.Collections
