import Mathlib.Data.List.Forall2
import TreeQuery.Proofs.Frontier.KeepFirst

/-! # Chronicles of frontiers

What happened to a frontier is a list of insertions and removals. A key is there if it was inserted
after it was last removed, and its place in the frontier is that of the insertion that made it come
(back) to it: nodes inserted under a key that is there already leave no trace, and a key that comes
back comes last (`TreeQuery.Frontier.Reflects`). Each insertion and each removal keeps a frontier in
step with its chronicle.
-/

namespace TreeQuery

variable {Node : Type}

/-- Something that happened to a frontier: a node was added, or a node was taken out. -/
inductive Event (Node : Type) where
  | inserted (node : Node)
  | removed (node : Node)
  deriving Repr

variable [Keyed Node]

/-- An event by which a key is taken out. -/
def Event.Removes (key : Keyed.Key Node) : Event Node → Prop
  | inserted _ => False
  | removed node => Keyed.key node = key

namespace Chronicle

variable {events : List (Event Node)} {event : Event Node} {position : Nat} {node : Node}
  {key : Keyed.Key Node}

/-- A node that was inserted at a position, and whose key was not removed since. -/
def Stands (events : List (Event Node)) (position : Nat) (node : Node) : Prop :=
  events[position]? = some (.inserted node) ∧
    ∀ event ∈ events.drop (position + 1), ¬ event.Removes (Keyed.key node)

/-- A key that was inserted after it was last removed. -/
def Keeps (events : List (Event Node)) (key : Keyed.Key Node) : Prop :=
  ∃ position node, Stands events position node ∧ Keyed.key node = key

/-- The insertion that last made the key of a node come into the frontier. -/
def Establishes (events : List (Event Node)) (position : Nat) (node : Node) : Prop :=
  Stands events position node ∧ ¬ Keeps (events.take position) (Keyed.key node)

theorem Stands.lt_length (stands : Stands events position node) : position < events.length :=
  (List.getElem?_eq_some_iff.mp stands.1).1

/-- After one more event those nodes stand that stood before and were not removed, and the one that
was inserted. -/
theorem stands_append_singleton : Stands (events ++ [event]) position node ↔
    Stands events position node ∧ ¬ event.Removes (Keyed.key node) ∨
      position = events.length ∧ event = .inserted node := by
  rcases Nat.lt_trichotomy position events.length with before | rfl | behind
  · have apart : ¬ (position = events.length ∧ event = .inserted node) :=
      fun both => Nat.ne_of_lt before both.1
    rw [or_iff_left apart, Stands, Stands, List.getElem?_append_left before,
      List.drop_append_of_le_length before, List.forall_mem_append, List.forall_mem_singleton,
      and_assoc]
  · have none : ¬ Stands events events.length node :=
      fun stands => Nat.lt_irrefl _ stands.lt_length
    have last : (events ++ [event]).drop (events.length + 1) = [] := by
      rw [List.drop_eq_nil_iff, List.length_append]
      rfl
    rw [or_iff_right fun both => none both.1, Stands, List.getElem?_concat_length, last,
      and_iff_left (List.forall_mem_nil _), Option.some_inj, and_iff_right rfl]
  · constructor
    · intro stands
      have present := stands.lt_length
      rw [List.length_append, List.length_singleton] at present
      exact absurd present (Nat.not_lt_of_le behind)
    · rintro (⟨stands, _⟩ | ⟨same, _⟩)
      · exact absurd stands.lt_length (Nat.not_lt_of_lt behind)
      · exact absurd same (Nat.ne_of_gt behind)

theorem keeps_append_singleton : Keeps (events ++ [event]) key ↔
    Keeps events key ∧ ¬ event.Removes key ∨ ∃ node, event = .inserted node ∧
      Keyed.key node = key := by
  constructor
  · rintro ⟨position, node, stands, rfl⟩
    rcases stands_append_singleton.mp stands with ⟨stood, left⟩ | ⟨_, same⟩
    · exact .inl ⟨⟨position, node, stood, rfl⟩, left⟩
    · exact .inr ⟨node, same, rfl⟩
  · rintro (⟨⟨position, node, stood, rfl⟩, left⟩ | ⟨node, same, rfl⟩)
    · exact ⟨position, node, stands_append_singleton.mpr (.inl ⟨stood, left⟩), rfl⟩
    · exact ⟨_, node, stands_append_singleton.mpr (.inr ⟨rfl, same⟩), rfl⟩

/-- An insertion goes on to count as long as its key is not removed. -/
theorem Establishes.append_singleton (establishes : Establishes events position node)
    (left : ¬ event.Removes (Keyed.key node)) :
    Establishes (events ++ [event]) position node := by
  obtain ⟨stands, absent⟩ := establishes
  refine ⟨stands_append_singleton.mpr (.inl ⟨stands, left⟩), ?_⟩
  rwa [List.take_append_of_le_length (Nat.le_of_lt stands.lt_length)]

/-- An insertion counts if its key was not there. -/
theorem establishes_last (absent : ¬ Keeps events (Keyed.key node)) :
    Establishes (events ++ [.inserted node]) events.length node := by
  refine ⟨stands_append_singleton.mpr (.inr ⟨rfl, rfl⟩), ?_⟩
  rwa [List.take_append_of_le_length (Nat.le_refl _), List.take_length]

theorem lt_length_of_mem {positions : List Nat} {nodes : List Node}
    (establish : List.Forall₂ (Establishes events) positions nodes) :
    ∀ position ∈ positions, position < events.length := by
  induction establish with
  | nil => exact List.forall_mem_nil _
  | cons here _ ih => exact List.forall_mem_cons.mpr ⟨here.1.lt_length, ih⟩

end Chronicle

/-- What is related to the elements of a list that pass a test is a part of what is related to all
of them. -/
theorem exists_sublist_forall₂_filter {α β : Type} {relates : α → β → Prop} {firsts : List α}
    {seconds : List β} (related : List.Forall₂ relates firsts seconds) (passes : β → Bool) :
    ∃ part, part.Sublist firsts ∧
      List.Forall₂ (fun first second => relates first second ∧ passes second = true) part
        (seconds.filter passes) := by
  induction related with
  | nil => exact ⟨[], .slnil, .nil⟩
  | @cons first second firsts seconds here _ ih =>
      obtain ⟨part, sublist, later⟩ := ih
      cases passed : passes second with
      | true =>
          rw [List.filter_cons_of_pos passed]
          exact ⟨first :: part, sublist.cons_cons first, .cons ⟨here, passed⟩ later⟩
      | false =>
          rw [List.filter_cons_of_neg (Bool.eq_false_iff.mp passed)]
          exact ⟨part, sublist.cons first, later⟩

namespace Frontier

open Chronicle

/-- A frontier in step with its chronicle. -/
structure Reflects (frontier : Frontier Node) (events : List (Event Node)) : Prop where
  /-- A key is there exactly if it was inserted after it was last removed. -/
  stored : ∀ key, key ∈ frontier.keys ↔ Keeps events key
  /-- The nodes stand in the order of the insertions that last made their keys come, and each is the
  node of that insertion. -/
  ordered : ∃ positions : List Nat, positions.Pairwise (· < ·) ∧
    List.Forall₂ (Establishes events) positions frontier.nodes

namespace Reflects

variable {frontier : Frontier Node} {events : List (Event Node)}

theorem empty : Reflects (∅ : Frontier Node) [] where
  stored key := by
    refine iff_of_false List.not_mem_nil ?_
    rintro ⟨position, node, stands, _⟩
    exact absurd stands.lt_length (Nat.not_lt_zero position)
  ordered := ⟨[], .nil, .nil⟩

theorem insert (reflects : frontier.Reflects events) (node : Node) :
    (frontier.insert node).Reflects (events ++ [.inserted node]) := by
  obtain ⟨positions, ascending, establish⟩ := reflects.ordered
  have earlier : List.Forall₂ (Establishes (events ++ [.inserted node])) positions
      frontier.nodes := establish.imp fun _ _ established => established.append_singleton not_false
  have kept : ∀ key, Keeps (events ++ [.inserted node]) key ↔
      key ∈ frontier.keys ∨ Keyed.key node = key := by
    intro key
    rw [keeps_append_singleton, ← reflects.stored]
    apply or_congr
    · exact and_iff_left not_false
    · constructor
      · rintro ⟨_, ⟨⟩, same⟩
        exact same
      · exact fun same => ⟨node, rfl, same⟩
  by_cases known : Keyed.key node ∈ frontier.keys
  · have same : frontier.insert node = frontier := by
      apply ext_nodes
      rw [Frontier.insert, nodes_insertAll, fresh, if_pos known, fresh, List.append_nil]
    rw [same]
    refine ⟨fun key => ?_, positions, ascending, earlier⟩
    rw [kept]
    exact (or_iff_left_of_imp fun same => same ▸ known).symm
  · have grown : (frontier.insert node).nodes = frontier.nodes ++ [node] := by
      rw [Frontier.insert, nodes_insertAll, fresh, if_neg known, fresh]
    refine ⟨fun key => ?_, positions ++ [events.length], ?_, ?_⟩
    · rw [kept, keys, grown, List.map_append, List.mem_append, List.map_singleton,
        List.mem_singleton, eq_comm, keys]
    · rw [List.pairwise_append]
      refine ⟨ascending, List.pairwise_singleton _ _, fun position member last same => ?_⟩
      rw [List.mem_singleton.mp same]
      exact lt_length_of_mem establish position member
    · rw [grown]
      refine List.rel_append earlier (.cons (establishes_last ?_) .nil)
      rwa [← reflects.stored]

/-- Adding several nodes is as many insertions. -/
theorem insertAll (reflects : frontier.Reflects events) (nodes : List Node) :
    (frontier.insertAll nodes).Reflects (events ++ nodes.map .inserted) := by
  induction nodes generalizing frontier events with
  | nil =>
      rw [insertAll_nil, List.map_nil, List.append_nil]
      exact reflects
  | cons node rest ih =>
      have later := ih (reflects.insert node)
      rwa [Frontier.insert, insertAll_insertAll, List.append_assoc] at later

theorem remove (reflects : frontier.Reflects events) (node : Node) :
    (frontier.removeAll [node]).Reflects (events ++ [.removed node]) := by
  obtain ⟨positions, ascending, establish⟩ := reflects.ordered
  have rest : (frontier.removeAll [node]).nodes =
      frontier.nodes.filter fun other => decide (Keyed.key other ≠ Keyed.key node) := by
    rw [nodes_removeAll_eq_without, List.map_singleton, without_singleton]
  obtain ⟨part, sublist, left⟩ := exists_sublist_forall₂_filter establish
    fun other => decide (Keyed.key other ≠ Keyed.key node)
  refine ⟨fun key => ?_, part, ascending.sublist sublist, ?_⟩
  · have gone : ∀ other, Event.removed node ≠ .inserted other := fun _ same => by cases same
    rw [keeps_append_singleton, ← reflects.stored, or_iff_left fun ⟨_, same, _⟩ => gone _ same,
      keys, rest, keys, List.mem_map, List.mem_map]
    constructor
    · rintro ⟨other, member, rfl⟩
      obtain ⟨present, apart⟩ := List.mem_filter.mp member
      exact ⟨⟨other, present, rfl⟩, fun same => of_decide_eq_true apart same.symm⟩
    · rintro ⟨⟨other, present, rfl⟩, apart⟩
      exact ⟨other, List.mem_filter.mpr ⟨present, decide_eq_true fun same => apart same.symm⟩, rfl⟩
  · rw [rest]
    refine left.imp fun position other established => ?_
    exact established.1.append_singleton fun same => of_decide_eq_true established.2 same.symm

/-- Taking out several nodes is as many removals. -/
theorem removeAll (reflects : frontier.Reflects events) (nodes : List Node) :
    (frontier.removeAll nodes).Reflects (events ++ nodes.map .removed) := by
  induction nodes generalizing frontier events with
  | nil =>
      rw [removeAll_nil, List.map_nil, List.append_nil]
      exact reflects
  | cons node rest ih =>
      have later := ih (reflects.remove node)
      rwa [removeAll_removeAll, List.append_assoc] at later

theorem ofList (nodes : List Node) : (Frontier.ofList nodes).Reflects (nodes.map .inserted) :=
  empty.insertAll nodes

/-- A frontier is in step with the insertion of its own nodes. -/
theorem nodes (frontier : Frontier Node) : frontier.Reflects (frontier.nodes.map .inserted) := by
  have same : Frontier.ofList frontier.nodes = frontier := by
    apply ext_nodes
    rw [nodes_ofList_eq_keepFirst, keepFirst_nodes]
  have reflects := ofList frontier.nodes
  rwa [same] at reflects

/-- A frontier contains a node if its key was inserted after it was last removed. -/
theorem contains_iff (reflects : frontier.Reflects events) (node : Node) :
    frontier.contains node = true ↔ Keeps events (Keyed.key node) := by
  rw [contains, List.contains_iff_mem, reflects.stored]

/-- A frontier has as many nodes as there are keys that were inserted after they were last
removed. -/
theorem size_eq (reflects : frontier.Reflects events) {keys : List (Keyed.Key Node)}
    (distinct : keys.Nodup) (kept : ∀ key, key ∈ keys ↔ Keeps events key) :
    frontier.size = keys.length := by
  have same : frontier.keys.Perm keys :=
    (List.perm_ext_iff_of_nodup frontier.distinct distinct).mpr
      fun key => (reflects.stored key).trans (kept key).symm
  rw [← same.length_eq, Frontier.keys, List.length_map, size]

end Reflects

end Frontier

end TreeQuery
