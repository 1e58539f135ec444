import Mathlib.Data.List.Nodup
import Mathlib.Data.Set.Function
import TreeQuery.Frontier

/-! # Frontiers as lists without repeated keys

What a frontier is made of can be said of lists alone: it keeps the first node of each key. Building
a frontier from a list, adding a list to one and taking the nodes of a list out are read here as
operations on lists (`TreeQuery.Frontier.nodes_ofList_eq_keepFirst`,
`TreeQuery.Frontier.nodes_insertAll_eq_keepFirst`).
-/

namespace TreeQuery.Frontier

variable {Node : Type} [Keyed Node]

/-- The first node of each key, in order. -/
def keepFirst : List Node → List Node
  | [] => []
  | node :: rest =>
      node :: (keepFirst rest).filter fun other => decide (Keyed.key other ≠ Keyed.key node)

/-- The nodes of a list without those whose keys are gone. -/
def without (gone : List (Keyed.Key Node)) (nodes : List Node) : List Node :=
  nodes.filter fun node => !gone.contains (Keyed.key node)

@[simp] theorem without_nil (nodes : List Node) : without [] nodes = nodes := by
  simp [without]

/-- A node remains if its key is not gone. -/
@[simp] theorem mem_without {gone : List (Keyed.Key Node)} {nodes : List Node} {node : Node} :
    node ∈ without gone nodes ↔ node ∈ nodes ∧ Keyed.key node ∉ gone := by
  simp [without]

theorem without_cons_of_mem {gone : List (Keyed.Key Node)} {node : Node} (rest : List Node)
    (lost : Keyed.key node ∈ gone) : without gone (node :: rest) = without gone rest :=
  List.filter_cons_of_neg (by simpa using lost)

theorem without_cons_of_notMem {gone : List (Keyed.Key Node)} {node : Node} (rest : List Node)
    (kept : Keyed.key node ∉ gone) : without gone (node :: rest) = node :: without gone rest :=
  List.filter_cons_of_pos (by simpa using kept)

/-- Taking out some keys and then others takes out all of them. -/
theorem without_without (first second : List (Keyed.Key Node)) (nodes : List Node) :
    without second (without first nodes) = without (first ++ second) nodes := by
  unfold without
  rw [List.filter_filter]
  apply List.filter_congr
  intro node _
  rw [List.contains_append, Bool.not_or, Bool.and_comm]

/-- It only matters which keys are gone, and not how often. -/
theorem without_congr {gone lost : List (Keyed.Key Node)} (same : ∀ key, key ∈ gone ↔ key ∈ lost)
    (nodes : List Node) : without gone nodes = without lost nodes := by
  apply List.filter_congr
  intro node _
  rw [List.contains_eq_mem, List.contains_eq_mem, decide_eq_decide.mpr (same _)]

/-- A single key takes away the nodes that have it. -/
theorem without_singleton (key : Keyed.Key Node) (nodes : List Node) :
    without [key] nodes = nodes.filter fun node => decide (Keyed.key node ≠ key) := by
  apply List.filter_congr
  intro node _
  rw [List.contains_eq_mem, ← decide_not]
  exact decide_eq_decide.mpr (not_congr List.mem_singleton)

/-- The fresh nodes of a list are its first nodes of each key without those seen. -/
theorem fresh_eq_without (seen : List (Keyed.Key Node)) (nodes : List Node) :
    fresh seen nodes = without seen (keepFirst nodes) := by
  induction nodes generalizing seen with
  | nil => rfl
  | cons node rest ih =>
      rw [fresh, keepFirst]
      by_cases member : Keyed.key node ∈ seen
      · have known : ∀ key, key ∈ seen ↔ key ∈ [Keyed.key node] ++ seen := fun key => by
          rw [List.singleton_append, List.mem_cons]
          exact ⟨.inr, fun either => either.elim (· ▸ member) id⟩
        rw [if_pos member, ih, without_cons_of_mem _ member, ← without_singleton, without_without,
          without_congr known]
      · rw [if_neg member, ih, without_cons_of_notMem _ member, ← without_singleton,
          without_without, List.singleton_append]

/-- A frontier made of a list holds the first node of each key. -/
theorem nodes_ofList_eq_keepFirst (nodes : List Node) : (ofList nodes).nodes = keepFirst nodes := by
  rw [nodes_ofList, fresh_eq_without, without_nil]

theorem mem_of_mem_ofList {nodes : List Node} {node : Node} (member : node ∈ (ofList nodes).nodes) :
    node ∈ nodes := by
  rw [nodes_ofList] at member
  exact mem_of_mem_fresh member

/-- No node appears that was not in the list. -/
theorem mem_of_mem_keepFirst {nodes : List Node} {node : Node} (member : node ∈ keepFirst nodes) :
    node ∈ nodes := by
  rw [← nodes_ofList_eq_keepFirst] at member
  exact mem_of_mem_ofList member

/-- For every node of a list one with its key is kept. -/
theorem exists_mem_keepFirst {nodes : List Node} {node : Node} (member : node ∈ nodes) :
    ∃ first ∈ keepFirst nodes, Keyed.key first = Keyed.key node := by
  induction nodes with
  | nil => exact absurd member List.not_mem_nil
  | cons head rest ih =>
      rw [keepFirst]
      by_cases same : Keyed.key head = Keyed.key node
      · exact ⟨head, List.mem_cons_self, same⟩
      · rcases List.mem_cons.mp member with here | later
        · exact absurd (here ▸ rfl) same
        · obtain ⟨first, found, key⟩ := ih later
          refine ⟨first, List.mem_cons_of_mem _ (List.mem_filter.mpr ⟨found, ?_⟩), key⟩
          exact decide_eq_true fun again => same (again ▸ key)

/-- Where every key has one node only, no node of a list is lost. -/
theorem mem_keepFirst_iff {region : Set Node} (unique : Set.InjOn Keyed.key region)
    {nodes : List Node} (inside : ∀ node ∈ nodes, node ∈ region) {node : Node} :
    node ∈ keepFirst nodes ↔ node ∈ nodes := by
  constructor
  · exact mem_of_mem_keepFirst
  · intro member
    obtain ⟨first, found, key⟩ := exists_mem_keepFirst member
    have same := unique (inside first (mem_of_mem_keepFirst found)) (inside node member) key
    exact same ▸ found

/-- Without repetitions of keys every node is the first of its key. -/
theorem keepFirst_eq_self {nodes : List Node} (distinctKeys : (nodes.map Keyed.key).Nodup) :
    keepFirst nodes = nodes := by
  induction nodes with
  | nil => rfl
  | cons node rest ih =>
      rw [List.map_cons, List.nodup_cons] at distinctKeys
      rw [keepFirst, ih distinctKeys.2, List.filter_eq_self.mpr]
      intro other member
      exact decide_eq_true fun same =>
        distinctKeys.1 (same ▸ List.mem_map_of_mem member)

/-- Where every key has one node only, a list without repetitions is kept as it is. -/
theorem keepFirst_eq_self_of_nodup {region : Set Node} (unique : Set.InjOn Keyed.key region)
    {nodes : List Node} (inside : ∀ node ∈ nodes, node ∈ region) (nodup : nodes.Nodup) :
    keepFirst nodes = nodes := by
  apply keepFirst_eq_self
  apply List.Nodup.map_on _ nodup
  intro left leftMember right rightMember same
  exact unique (inside left leftMember) (inside right rightMember) same

/-- Of two lists all that is kept of the first is kept, and of the second what has new keys. -/
theorem keepFirst_append (first second : List Node) :
    keepFirst (first ++ second) =
      keepFirst first ++ without (first.map Keyed.key) (keepFirst second) := by
  induction first with
  | nil => exact (without_nil _).symm
  | cons node rest ih =>
      rw [List.cons_append, keepFirst, ih, List.filter_append, keepFirst, List.cons_append,
        List.map_cons, ← without_singleton _ (without _ _), without_without]
      have both : ∀ key, key ∈ rest.map Keyed.key ++ [Keyed.key node] ↔
          key ∈ Keyed.key node :: rest.map Keyed.key := fun key => by
        rw [List.mem_append, List.mem_singleton, List.mem_cons, or_comm]
      rw [without_congr both]

/-- No key is lost. -/
theorem mem_keys_keepFirst {nodes : List Node} {key : Keyed.Key Node} :
    key ∈ (keepFirst nodes).map Keyed.key ↔ key ∈ nodes.map Keyed.key := by
  constructor
  · intro member
    obtain ⟨node, found, rfl⟩ := List.mem_map.mp member
    exact List.mem_map_of_mem (mem_of_mem_keepFirst found)
  · intro member
    obtain ⟨node, found, rfl⟩ := List.mem_map.mp member
    obtain ⟨first, present, same⟩ := exists_mem_keepFirst found
    exact same ▸ List.mem_map_of_mem present

/-- A frontier has no repetitions. -/
theorem keepFirst_nodes (frontier : Frontier Node) : keepFirst frontier.nodes = frontier.nodes :=
  keepFirst_eq_self frontier.distinct

/-- Repetitions are gone after the first time. -/
theorem keepFirst_keepFirst (nodes : List Node) : keepFirst (keepFirst nodes) = keepFirst nodes := by
  rw [← nodes_ofList_eq_keepFirst nodes]
  exact keepFirst_nodes _

/-- Repeated keys may be dropped from a list before another follows. -/
theorem keepFirst_keepFirst_append (first second : List Node) :
    keepFirst (keepFirst first ++ second) = keepFirst (first ++ second) := by
  rw [keepFirst_append, keepFirst_append, keepFirst_keepFirst,
    without_congr fun _ => mem_keys_keepFirst]

/-- Repeated keys may be dropped from a list before it follows another. -/
theorem keepFirst_append_keepFirst (first second : List Node) :
    keepFirst (first ++ keepFirst second) = keepFirst (first ++ second) := by
  rw [keepFirst_append, keepFirst_append, keepFirst_keepFirst]

/-- A test that does not tell nodes of one key apart may be made before or after. -/
theorem filter_keepFirst {accepts : Node → Bool} {nodes : List Node}
    (alike : ∀ left ∈ nodes, ∀ right ∈ nodes, Keyed.key left = Keyed.key right →
      accepts left = accepts right) :
    (keepFirst nodes).filter accepts = keepFirst (nodes.filter accepts) := by
  induction nodes with
  | nil => rfl
  | cons node rest ih =>
      have inner := ih fun left first right second =>
        alike left (List.mem_cons_of_mem _ first) right (List.mem_cons_of_mem _ second)
      rw [keepFirst]
      cases passes : accepts node with
      | true =>
          rw [List.filter_cons_of_pos passes, List.filter_cons_of_pos passes, keepFirst, ← inner,
            List.filter_filter, List.filter_filter]
          simp only [Bool.and_comm]
      | false =>
          -- What had the key of the refused node would have been refused as well.
          have refused : ¬ accepts node = true := Bool.eq_false_iff.mp passes
          rw [List.filter_cons_of_neg refused, List.filter_cons_of_neg refused, ← inner,
            List.filter_filter]
          apply List.filter_congr
          intro other member
          cases accepted : accepts other with
          | false => rfl
          | true =>
              have present := List.mem_cons_of_mem node (mem_of_mem_keepFirst member)
              have different : Keyed.key other ≠ Keyed.key node := fun same => by
                rw [alike other present node List.mem_cons_self same, passes] at accepted
                cases accepted
              rw [decide_eq_true different, Bool.and_self]

/-- It makes no difference whether repetitions or lost keys are dropped first. -/
theorem without_keepFirst (gone : List (Keyed.Key Node)) (nodes : List Node) :
    without gone (keepFirst nodes) = keepFirst (without gone nodes) :=
  filter_keepFirst fun _ _ _ _ same => by rw [same]

omit [Keyed Node] in
/-- What leads nowhere may be left out. -/
theorem flatMap_filter_of_nil {kept : Node → Bool} {reached : Node → List Node} {nodes : List Node}
    (nowhere : ∀ node ∈ nodes, kept node = false → reached node = []) :
    (nodes.filter kept).flatMap reached = nodes.flatMap reached := by
  induction nodes with
  | nil => rfl
  | cons node rest ih =>
      have later := ih fun other member => nowhere other (List.mem_cons_of_mem _ member)
      cases stays : kept node with
      | true => rw [List.filter_cons_of_pos stays, List.flatMap_cons, List.flatMap_cons, later]
      | false =>
          rw [List.filter_cons_of_neg (Bool.eq_false_iff.mp stays), later, List.flatMap_cons,
            nowhere node List.mem_cons_self stays, List.nil_append]

/-- Where nodes of one key lead to the same nodes, repeated keys may be dropped beforehand. -/
theorem keepFirst_flatMap_keepFirst {reached : Node → List Node} {nodes : List Node}
    (alike : ∀ left ∈ nodes, ∀ right ∈ nodes, Keyed.key left = Keyed.key right →
      reached left = reached right) :
    keepFirst ((keepFirst nodes).flatMap reached) = keepFirst (nodes.flatMap reached) := by
  induction nodes with
  | nil => rfl
  | cons node rest ih =>
      have inner := ih fun left first right second =>
        alike left (List.mem_cons_of_mem _ first) right (List.mem_cons_of_mem _ second)
      -- Nodes with the key of the first lead to nothing that is not reached from there already.
      have idle : without ((reached node).map Keyed.key)
          (((keepFirst rest).filter fun other => decide (Keyed.key other ≠ Keyed.key node)).flatMap
            reached) =
          without ((reached node).map Keyed.key) ((keepFirst rest).flatMap reached) := by
        rw [without, without, List.filter_flatMap, List.filter_flatMap]
        apply flatMap_filter_of_nil
        intro other member same
        have present := List.mem_cons_of_mem node (mem_of_mem_keepFirst member)
        rw [decide_eq_false_iff_not, not_not] at same
        rw [alike other present node List.mem_cons_self same, List.filter_eq_nil_iff]
        intro found first
        simpa using ⟨found, first, rfl⟩
      rw [keepFirst, List.flatMap_cons, List.flatMap_cons, keepFirst_append, keepFirst_append,
        without_keepFirst, idle, ← without_keepFirst, inner]

/-- Adding the nodes of a list to a frontier keeps the first node of each key of both. -/
theorem nodes_insertAll_eq_keepFirst (frontier : Frontier Node) (nodes : List Node) :
    (frontier.insertAll nodes).nodes = keepFirst (frontier.nodes ++ nodes) := by
  rw [nodes_insertAll, fresh_eq_without, keepFirst_append, keepFirst_nodes, keys]

theorem insertAll_nil (frontier : Frontier Node) : frontier.insertAll [] = frontier := by
  apply ext_nodes
  rw [nodes_insertAll_eq_keepFirst, List.append_nil, keepFirst_nodes]

/-- Nothing is added by nodes whose keys are all there. -/
theorem insertAll_eq_self {frontier : Frontier Node} {nodes : List Node}
    (known : ∀ node ∈ nodes, Keyed.key node ∈ frontier.keys) :
    frontier.insertAll nodes = frontier := by
  have none : without frontier.keys (keepFirst nodes) = [] := by
    apply List.filter_eq_nil_iff.mpr
    intro node member
    simpa using known node (mem_of_mem_keepFirst member)
  apply ext_nodes
  rw [nodes_insertAll, fresh_eq_without, none, List.append_nil]

/-- Nodes may be added one list after the other. -/
theorem insertAll_insertAll (frontier : Frontier Node) (first second : List Node) :
    (frontier.insertAll first).insertAll second = frontier.insertAll (first ++ second) := by
  apply ext_nodes
  rw [nodes_insertAll_eq_keepFirst, nodes_insertAll_eq_keepFirst, nodes_insertAll_eq_keepFirst,
    keepFirst_keepFirst_append, List.append_assoc]

/-- Taking the nodes of a list out of a frontier takes out their keys. -/
theorem nodes_removeAll_eq_without (frontier : Frontier Node) (nodes : List Node) :
    (frontier.removeAll nodes).nodes = without (nodes.map Keyed.key) frontier.nodes := by
  rw [nodes_removeAll, without]

theorem removeAll_nil (frontier : Frontier Node) : frontier.removeAll [] = frontier := by
  apply ext_nodes
  rw [nodes_removeAll_eq_without, List.map_nil, without_nil]

/-- Nothing is left of a frontier without its own nodes. -/
theorem removeAll_self (frontier : Frontier Node) : frontier.removeAll frontier.nodes = ∅ := by
  apply ext_nodes
  rw [nodes_removeAll_eq_without]
  apply List.filter_eq_nil_iff.mpr
  intro node member
  simpa using ⟨node, member, rfl⟩

/-- Nodes may be removed one list after the other. -/
theorem removeAll_removeAll (frontier : Frontier Node) (first second : List Node) :
    (frontier.removeAll first).removeAll second = frontier.removeAll (first ++ second) := by
  apply ext_nodes
  rw [nodes_removeAll_eq_without, nodes_removeAll_eq_without, nodes_removeAll_eq_without,
    without_without, List.map_append]

theorem isEmpty_eq_true_iff {frontier : Frontier Node} :
    frontier.isEmpty = true ↔ frontier.nodes = [] :=
  List.isEmpty_iff

theorem isEmpty_eq_false_iff {frontier : Frontier Node} :
    frontier.isEmpty = false ↔ frontier.nodes ≠ [] :=
  List.isEmpty_eq_false_iff

end TreeQuery.Frontier
