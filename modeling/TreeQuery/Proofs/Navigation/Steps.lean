import TreeQuery.Proofs.Navigation.Meaning
import TreeQuery.World

/-! # Steps that settle

Run in a region of the tree where nothing fails, a step ends with the nodes that it selects. A
traversal that deepens may move on only so often, and that is enough as soon as no way down or up
from where it started is longer (`TreeQuery.Predicate.Fit.step_settles`).
-/

namespace TreeQuery

variable {Node Leaf Failure : Type} {setting : Setting Node Leaf Failure} {region : Set Node}

/-- What a step asks the host about each node. -/
def Predicate.relations (step : Predicate Leaf) : List Relation :=
  step.axis?.elim [] Axis.relations

/-- A step that does not fail in a region: it has a label, its test has an answer about every node,
the host lists what it asks for, and the way up ends. -/
structure Predicate.Fit (host : Host Node Failure)
    (answer : Leaf → Node → Except (Fault Failure) Value) (region : Set Node)
    (step : Predicate Leaf) : Prop where
  labelled : ∃ text, step.label = .ok text
  answers : step.Answers answer region
  confined : ∀ relation ∈ step.relations, Tree.Confined (host.related relation) region
  ascending : step.axis? = some .ancestors → Tree.Grounded (host.related .parent) region

/-- A traversal that asks for no parents is fit when its test is and what it asks for is listed. -/
theorem Predicate.Fit.traversal {host : Host Node Failure}
    {answer : Leaf → Node → Except (Fault Failure) Value} {axis : Axis} {test : Predicate Leaf}
    (labelled : ∃ text, test.label = .ok text) (answers : test.Answers answer region)
    (confined : ∀ relation ∈ axis.relations, Tree.Confined (host.related relation) region)
    (down : .parent ∉ axis.relations) :
    (Predicate.traversal axis test).Fit host answer region := by
  constructor
  · obtain ⟨text, titled⟩ := labelled
    refine ⟨axis.name ++ ":" ++ text, ?_⟩
    rw [label, titled]
    rfl
  · exact answers
  · exact confined
  · intro upward
    rw [axis?, Option.some.injEq] at upward
    subst upward
    exact absurd List.mem_cons_self down

/-- In the region the host lists what it is asked for. -/
theorem Setting.ask_ends {relation : Relation}
    (confined : Tree.Confined (setting.host.related relation) region) {node : Node}
    (inside : node ∈ region) :
    (setting.ask relation node).Ends (.ok (setting.host.related relation node).nodes) := by
  rw [ask, confined.toExcept_eq inside]
  exact (Run.Ends.note _).bind_ok (.liftExcept _)

/-- A label that can be made is had without a fault. -/
theorem Setting.labelOf_settles {step : Predicate Leaf} (labelled : ∃ text, step.label = .ok text) :
    (setting.labelOf step).Settles fun _ => True := by
  obtain ⟨text, named⟩ := labelled
  rw [labelOf, named]
  exact .pure trivial

variable [Keyed Node]

namespace Frontier

/-- Where each node is relocated without a fault, so are all of them. -/
theorem gather_ends {relocate : Node → Run Node Leaf Failure (List Node)}
    {reached : Node → List Node} {frontier : Frontier Node}
    (ends : ∀ node ∈ frontier.nodes, (relocate node).Ends (.ok (reached node))) :
    (frontier.gather relocate).Ends (.ok (ofList (frontier.nodes.flatMap reached))) := by
  rw [gather, List.flatMap_def]
  exact (Run.Ends.mapM_ok ends).bind_ok (.pure _)

/-- Where each node is tested without a fault, so are all of them. -/
theorem filterRun_ends {question : Node → Run Node Leaf Failure Bool} {accepts : Node → Bool}
    {frontier : Frontier Node}
    (ends : ∀ node ∈ frontier.nodes, (question node).Ends (.ok (accepts node))) :
    (frontier.filterRun question).Ends (.ok (frontier.filter accepts)) := by
  have chosen : frontier.select (frontier.nodes.map accepts) = frontier.filter accepts :=
    ext_nodes (by rw [nodes_select, accepted_map, nodes_filter])
  rw [filterRun, ← chosen]
  exact (Run.Ends.mapM_ok ends).bind_ok (.pure _)

/-- A frontier with the given nodes, all of them in a region. -/
def Consists (region : Set Node) (nodes : List Node) (frontier : Frontier Node) : Prop :=
  frontier.nodes = nodes ∧ ∀ node ∈ nodes, node ∈ region

/-- A frontier in a region consists of its own nodes. -/
theorem consists_nodes {frontier : Frontier Node} (inside : ∀ node ∈ frontier.nodes, node ∈ region) :
    frontier.Consists region frontier.nodes :=
  ⟨rfl, inside⟩

theorem consists_empty : (∅ : Frontier Node).Consists region [] :=
  ⟨rfl, fun _ member => absurd member List.not_mem_nil⟩

theorem Consists.inside {nodes : List Node} {frontier : Frontier Node}
    (consists : frontier.Consists region nodes) : ∀ node ∈ frontier.nodes, node ∈ region :=
  consists.1 ▸ consists.2

/-- What is left of a frontier by a test lies in the region. -/
theorem Consists.filter {nodes : List Node} {frontier : Frontier Node}
    (consists : frontier.Consists region nodes) (accepts : Node → Bool) :
    (frontier.filter accepts).Consists region (nodes.filter accepts) := by
  refine ⟨by rw [nodes_filter, consists.1], fun node member => ?_⟩
  exact consists.2 node (List.mem_filter.mp member).1

/-- Stopping at an empty frontier does not show where nothing would be found from it. -/
theorem settles_unless_empty {frontier : Frontier Node} {nodes : List Node}
    {rest : Run Node Leaf Failure (Frontier Node)} (nothing : frontier.nodes = [] → nodes = [])
    (settles : frontier.nodes ≠ [] → rest.Settles (Consists region nodes)) :
    (if frontier.isEmpty then pure ∅ else rest).Settles (Consists region nodes) := by
  split
  · next none =>
      rw [nothing (isEmpty_eq_true_iff.mp none)]
      exact .pure consists_empty
  · next some =>
      apply settles
      intro none
      exact some (isEmpty_eq_true_iff.mpr none)

section Deepening

variable {relocate : Frontier Node → Run Node Leaf Failure (Frontier Node)}
  {move : List Node → List Node} {question : Node → Run Node Leaf Failure Bool}
  {accepts : Node → Bool}
  (relocates : ∀ frontier : Frontier Node, (∀ node ∈ frontier.nodes, node ∈ region) →
    (relocate frontier).Settles (Consists region (move frontier.nodes)))
  (decides : ∀ node ∈ region, (question node).Ends (.ok (accepts node)))

include relocates decides

/-- A move without a second try settles on the accepted nodes of the move. -/
theorem deepen_once_settles {frontier : Frontier Node}
    (inside : ∀ node ∈ frontier.nodes, node ∈ region) {patience : Nat} (patient : 0 < patience) :
    (deepen relocate false question patience frontier).Settles
      (Consists region ((move frontier.nodes).filter accepts)) := by
  obtain ⟨moves, rfl⟩ := Nat.exists_eq_add_one_of_ne_zero patient.ne'
  rw [deepen]
  apply (relocates frontier inside).bind
  intro arrived moved
  apply settles_unless_empty
  · intro none
    rw [← moved.1, none, List.filter_nil]
  · intro _
    have filtered := filterRun_ends fun node member => decides node (moved.inside node member)
    refine ⟨_, filtered.bind_ok ?_, moved.filter accepts⟩
    rw [Bool.and_false, if_neg Bool.false_ne_true]
    exact .pure _

/-- Moving on settles on the first match, provided that the moves run out in time. -/
theorem deepen_settles (still : move [] = []) {frontier : Frontier Node}
    (inside : ∀ node ∈ frontier.nodes, node ∈ region) {patience : Nat} (patient : 0 < patience)
    (finished : move^[patience] frontier.nodes = []) :
    (deepen relocate true question patience frontier).Settles
      (Consists region (firstMatch move accepts frontier.nodes)) := by
  induction patience generalizing frontier with
  | zero => exact absurd patient (Nat.lt_irrefl 0)
  | succ patience ih =>
      rw [deepen]
      apply (relocates frontier inside).bind
      intro arrived moved
      have candidates := moved.filter accepts
      apply settles_unless_empty
      · intro none
        have nowhere : move frontier.nodes = [] := moved.1.symm.trans none
        have unmatched : (move frontier.nodes).filter accepts = [] := by
          rw [nowhere, List.filter_nil]
        rw [firstMatch_of_no_match unmatched, nowhere, firstMatch_nil still]
      · intro some
        -- The moves left go on to suffice from where the search arrived.
        have filtered := filterRun_ends fun node member => decides node (moved.inside node member)
        by_cases matched : (move frontier.nodes).filter accepts = []
        · have again : (arrived.filter accepts).isEmpty = true :=
            isEmpty_eq_true_iff.mpr (candidates.1.trans matched)
          have later : move^[patience] arrived.nodes = [] := by
            rw [moved.1]
            exact finished
          have left : 0 < patience := by
            apply Nat.pos_of_ne_zero
            rintro rfl
            exact some later
          obtain ⟨found, ends, consists⟩ := ih moved.inside left later
          rw [firstMatch_of_no_match matched, ← moved.1]
          refine ⟨found, filtered.bind_ok ?_, consists⟩
          rw [Bool.and_true, if_pos again]
          exact ends
        · have done : (arrived.filter accepts).isEmpty = false := by
            rw [Bool.eq_false_iff, ne_eq, isEmpty_eq_true_iff, candidates.1]
            exact matched
          rw [firstMatch_of_match matched]
          refine ⟨_, filtered.bind_ok ?_, candidates⟩
          rw [done, Bool.false_and, if_neg Bool.false_ne_true]
          exact .pure _

end Deepening

end Frontier

namespace Axis

variable {axis : Axis}

omit [Keyed Node] in
/-- No axis leads out of a region that its relations do not lead out of. -/
theorem reached_mem_region {host : Host Node Failure}
    (confined : ∀ relation ∈ axis.relations, Tree.Confined (host.related relation) region)
    {node other : Node} (inside : node ∈ region) (reached : other ∈ axis.reached host node) :
    other ∈ region := by
  obtain ⟨relation, asked, listed⟩ := List.mem_flatMap.mp reached
  exact (confined relation asked node inside).2 other listed

/-- Along an axis of one relation the nodes are had by one question about each. -/
theorem gather_ask_ends {relation : Relation} (single : axis.relations = [relation])
    (confined : ∀ relation ∈ axis.relations, Tree.Confined (setting.host.related relation) region)
    {frontier : Frontier Node} (inside : ∀ node ∈ frontier.nodes, node ∈ region) :
    (frontier.gather (setting.ask relation)).Ends
      (.ok (.ofList (frontier.nodes.flatMap (axis.reached setting.host)))) := by
  refine Frontier.gather_ends fun node member => ?_
  rw [reached, single, List.flatMap_singleton]
  exact Setting.ask_ends (confined relation (single ▸ List.mem_singleton_self relation))
    (inside node member)

/-- Along every axis a frontier ends on the nodes reached, without repetitions. -/
theorem relocate_ends
    (confined : ∀ relation ∈ axis.relations, Tree.Confined (setting.host.related relation) region)
    {frontier : Frontier Node} (inside : ∀ node ∈ frontier.nodes, node ∈ region) :
    (axis.relocate setting frontier).Ends
      (.ok (.ofList (frontier.nodes.flatMap (axis.reached setting.host)))) := by
  cases axis with
  | neighbours =>
      refine Frontier.gather_ends fun node member => ?_
      have within := inside node member
      have children := Setting.ask_ends (confined .children List.mem_cons_self) within
      have parent := Setting.ask_ends
        (confined .parent (List.mem_cons_of_mem _ List.mem_cons_self)) within
      have both : reached setting.host neighbours node =
          (setting.host.related .children node).nodes ++
            (setting.host.related .parent node).nodes := by
        rw [reached, relations, List.flatMap_cons, List.flatMap_singleton]
      rw [both]
      exact children.bind_ok (parent.bind_ok (.pure _))
  | _ => exact gather_ask_ends rfl confined inside

/-- Relocation settles on the nodes to which the axis leads. -/
theorem relocate_settles
    (confined : ∀ relation ∈ axis.relations, Tree.Confined (setting.host.related relation) region)
    {frontier : Frontier Node} (inside : ∀ node ∈ frontier.nodes, node ∈ region) :
    (axis.relocate setting frontier).Settles
      (Frontier.Consists region (axis.moved setting.host frontier.nodes)) := by
  refine ⟨_, relocate_ends confined inside, Frontier.nodes_ofList_eq_keepFirst _, ?_⟩
  intro node member
  obtain ⟨above, present, reached⟩ :=
    List.mem_flatMap.mp (Frontier.mem_of_mem_keepFirst member)
  exact reached_mem_region confined (inside above present) reached

/-- Moving a number of times leads to nodes at that depth. -/
theorem descends_of_mem_iterate_moved {host : Host Node Failure} {relation : Relation}
    (single : axis.relations = [relation]) {count : Nat} {nodes : List Node} {below : Node}
    (member : below ∈ (axis.moved host)^[count] nodes) :
    ∃ above ∈ nodes, Tree.Descends (host.related relation) above count below := by
  induction count generalizing nodes with
  | zero => exact ⟨below, member, .here⟩
  | succ count ih =>
      obtain ⟨middle, first, descends⟩ := ih member
      obtain ⟨above, present, reached⟩ :=
        List.mem_flatMap.mp (Frontier.mem_of_mem_keepFirst first)
      rw [Axis.reached, single, List.flatMap_singleton] at reached
      exact ⟨above, present, descends.of_child reached⟩

/-- In a region grounded in what the axis asks for, moving runs out of nodes. -/
theorem iterate_moved_eq_nil {host : Host Node Failure} {relation : Relation}
    (single : axis.relations = [relation])
    (grounded : Tree.Grounded (host.related relation) region) {nodes : List Node}
    (inside : ∀ node ∈ nodes, node ∈ region) {count : Nat} (enough : region.ncard ≤ count) :
    (axis.moved host)^[count] nodes = [] := by
  rw [List.eq_nil_iff_forall_not_mem]
  intro below member
  obtain ⟨above, present, descends⟩ := descends_of_mem_iterate_moved single member
  have less := grounded.enclosed.depth_lt_ncard (inside above present) descends
  omega

end Axis

/-- In a grounded region a step that does not fail settles on the nodes that it selects. -/
theorem Predicate.Fit.step_settles {step : Predicate Leaf}
    (fit : step.Fit setting.host setting.answer region)
    (grounded : Tree.Grounded setting.host.children region) {frontier : Frontier Node}
    (inside : ∀ node ∈ frontier.nodes, node ∈ region) (some : frontier.nodes ≠ [])
    (patient : region.ncard ≤ setting.patience) :
    (step.step setting frontier).Settles
      (Frontier.Consists region (step.selected setting.host setting.answer frontier.nodes)) := by
  have filters : ∀ predicate : Predicate Leaf, predicate.Answers setting.answer region →
      (frontier.filterRun (predicate.accepts setting)).Settles
        (Frontier.Consists region (frontier.nodes.filter (predicate.holds setting.answer))) :=
    fun predicate answers => ⟨_, Frontier.filterRun_ends fun node member =>
      answers.accepts_ends (inside node member), (Frontier.consists_nodes inside).filter _⟩
  cases step with
  | traversal axis inner =>
      have positive : 0 < setting.patience := by
        obtain ⟨node, member⟩ := List.exists_mem_of_ne_nil _ some
        have occupied := (Set.ncard_pos grounded.finite).mpr ⟨node, inside node member⟩
        omega
      have relocates : ∀ frontier : Frontier Node, (∀ node ∈ frontier.nodes, node ∈ region) →
          (axis.relocate setting frontier).Settles
            (Frontier.Consists region (axis.moved setting.host frontier.nodes)) :=
        fun _ => Axis.relocate_settles fit.confined
      have decides : ∀ node ∈ region, (inner.accepts setting node).Ends
          (.ok (inner.holds setting.answer node)) := fun node within =>
        Answers.accepts_ends fit.answers within
      rw [step, selected]
      cases deepens : axis.deepens with
      | false => exact Frontier.deepen_once_settles relocates decides inside positive
      | true =>
          have runsOut : (axis.moved setting.host)^[setting.patience] frontier.nodes = [] := by
            cases axis with
            | descendants =>
                have downward : Tree.Grounded (setting.host.related .children) region := grounded
                exact Axis.iterate_moved_eq_nil rfl downward inside patient
            | ancestors =>
                exact Axis.iterate_moved_eq_nil rfl (fit.ascending rfl) inside patient
            | _ => cases deepens
          exact Frontier.deepen_settles relocates decides (Axis.moved_nil _ _) inside positive
            runsOut
  | _ => exact filters _ fit.answers

end TreeQuery

namespace TreeQuery.Grove

/-- The setting in which the grove is searched for identifiers. -/
def setting : Setting Value String Unit where
  host := .ofLinks 9 children fun _ => .ok none
  answer identifier node := .ok (.bool (node.key == .identifier identifier))
  unlabelled _ := ()
  noPath _ := ()
  sink := .accepting
  patience := 9

/-- The test whether a node has an identifier. -/
def named (identifier : String) : Predicate String := .function identifier identifier

/-- A path that comes to a missing step, of which the parts may be marked. -/
def detour (mark : Path String → Path String) : Path String :=
  .exclusion (mark (.simple [some (.traversal .children .any)]))
    [mark (.simple [some (.traversal .children (named "a")), none])]

theorem step_fit {axis : Axis} (single : axis.relations = [.children])
    {test : Predicate String} (labelled : ∃ text, test.label = .ok text)
    (answers : test.Answers setting.answer region) :
    (Predicate.traversal axis test).Fit setting.host setting.answer region := by
  apply Predicate.Fit.traversal labelled answers
  · intro relation asked
    rw [single, List.mem_singleton] at asked
    exact asked ▸ grounded.confined
  · simp [single]

end TreeQuery.Grove
