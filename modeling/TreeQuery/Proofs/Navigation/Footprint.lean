import TreeQuery.Proofs.Navigation.Confinement
import TreeQuery.Proofs.Run.Footprint

/-! # Where paths put their questions

Where the host does not lead out of a region, a path that starts inside asks about no node outside,
neither leaf tests nor counters nor the host itself, and finds none. It does not matter what the
path is made of, what leaves answer, which lines the sink refuses and whether the path comes to a
result at all (`TreeQuery.Path.run_keepsTo`).
-/

namespace TreeQuery

variable {Node Leaf Failure : Type} {setting : Setting Node Leaf Failure} {region : Set Node}

namespace Predicate

/-- A predicate asks its leaves about the node that it is asked about. -/
theorem test_keepsTo (predicate : Predicate Leaf) {node : Node} (inside : node ∈ region) :
    (predicate.test setting node).KeepsTo region fun _ => True := by
  induction predicate with
  | any => exact .pure trivial
  | function leaf label =>
      rw [test]
      refine (Run.KeepsTo.note inside).bind fun _ _ => ?_
      exact (Run.KeepsTo.liftExcept fun _ _ => trivial).bind fun _ _ => .pure trivial
  | custom leaf className =>
      rw [test]
      exact (Run.KeepsTo.note inside).bind fun _ _ => .liftExcept fun _ _ => trivial
  | counting counter inner title? ih =>
      rw [test]
      exact (Run.KeepsTo.note inside).bind fun _ _ => ih
  | negation inner ih =>
      rw [test]
      exact ih.bind fun _ _ => .pure trivial
  | conjunction left right leftIH rightIH =>
      rw [test]
      refine leftIH.bind fun first _ => ?_
      split
      · exact rightIH.bind fun _ _ => .pure trivial
      · exact .pure trivial
  | disjunction left right leftIH rightIH =>
      rw [test]
      refine leftIH.bind fun first _ => ?_
      split
      · exact .pure trivial
      · exact rightIH.bind fun _ _ => .pure trivial
  | traversal axis inner ih =>
      rw [test]
      exact ih
  | foreign object =>
      rw [test]
      exact .liftExcept fun _ _ => trivial

/-- The Boolean value of a test is had from the same questions. -/
theorem accepts_keepsTo (predicate : Predicate Leaf) {node : Node} (inside : node ∈ region) :
    (predicate.accepts setting node).KeepsTo region fun _ => True :=
  (predicate.test_keepsTo inside).map _

end Predicate

/-- The label of a step is no matter of nodes. -/
theorem Setting.labelOf_keepsTo (step : Predicate Leaf) :
    (setting.labelOf step).KeepsTo region fun _ => True := by
  rw [labelOf]
  split
  · exact .pure trivial
  · exact .throw _

variable [Keyed Node]

namespace Frontier

variable {frontier : Frontier Node} (inside : frontier.Inside region)

include inside

/-- What is left of a frontier in the region lies in the region. -/
theorem filterRun_keepsTo {question : Node → Run Node Leaf Failure Bool}
    (keeps : ∀ node ∈ region, (question node).KeepsTo region fun _ => True) :
    (frontier.filterRun question).KeepsTo region (Inside region) := by
  rw [filterRun]
  have asked := Run.KeepsTo.mapM fun node member => keeps node (inside node member)
  refine asked.bind fun verdicts _ => .pure fun node member => ?_
  exact inside node ((accepted_sublist _ _).subset member)

/-- What is gathered in the region lies in the region if each node is relocated within it. -/
theorem gather_keepsTo {relocate : Node → Run Node Leaf Failure (List Node)}
    (keeps : ∀ node ∈ region, (relocate node).KeepsTo region fun found =>
      ∀ other ∈ found, other ∈ region) :
    (frontier.gather relocate).KeepsTo region (Inside region) := by
  rw [gather]
  have asked := Run.KeepsTo.mapM fun node member => keeps node (inside node member)
  refine asked.bind fun lists within => .pure fun node member => ?_
  obtain ⟨found, among, listed⟩ := List.mem_flatten.mp (mem_of_mem_ofList member)
  exact within found among node listed

/-- However often a search moves on, it keeps to a region that its moves do not lead out of. -/
theorem deepen_keepsTo {relocate : Frontier Node → Run Node Leaf Failure (Frontier Node)}
    {question : Node → Run Node Leaf Failure Bool}
    (moves : ∀ frontier : Frontier Node, frontier.Inside region →
      (relocate frontier).KeepsTo region (Inside region))
    (keeps : ∀ node ∈ region, (question node).KeepsTo region fun _ => True) (again : Bool)
    (count : Nat) : (deepen relocate again question count frontier).KeepsTo region
      (Inside region) := by
  induction count generalizing frontier with
  | zero => exact .throw _
  | succ count ih =>
      rw [deepen]
      refine (moves frontier inside).bind fun arrived within => ?_
      split
      · exact .pure inside_empty
      · refine (filterRun_keepsTo within keeps).bind fun candidates among => ?_
        split
        · exact ih within
        · exact .pure among

end Frontier

variable (closed : setting.host.StaysIn region)

include closed

omit [Keyed Node] in
/-- A listing may break off, but what the host answers lies in the region. -/
theorem Setting.ask_keepsTo (relation : Relation) {node : Node} (inside : node ∈ region) :
    (setting.ask relation node).KeepsTo region fun found => ∀ other ∈ found, other ∈ region := by
  rw [ask]
  refine (Run.KeepsTo.note inside).bind fun _ _ => .liftExcept fun found answered => ?_
  rw [Listing.toExcept] at answered
  split at answered
  · cases answered
    exact closed relation node inside
  · cases answered

/-- No axis leads out of a region that the host does not lead out of. -/
theorem Axis.relocate_keepsTo (axis : Axis) {frontier : Frontier Node}
    (inside : frontier.Inside region) :
    (axis.relocate setting frontier).KeepsTo region (Frontier.Inside region) := by
  have asks : ∀ relation, (frontier.gather (setting.ask relation)).KeepsTo region
      (Frontier.Inside region) := fun relation =>
    Frontier.gather_keepsTo inside fun _ within => Setting.ask_keepsTo closed relation within
  cases axis with
  | neighbours =>
      refine Frontier.gather_keepsTo inside fun node within => ?_
      refine (Setting.ask_keepsTo closed .children within).bind fun children below => ?_
      refine (Setting.ask_keepsTo closed .parent within).bind fun parent above => .pure ?_
      exact List.forall_mem_append.mpr ⟨below, above⟩
  | children | descendants => exact asks .children
  | allDescendants => exact asks .descendants
  | siblings => exact asks .siblings
  | parent | ancestors => exact asks .parent

/-- A step tests and relocates nodes of the region only. -/
theorem Predicate.step_keepsTo (step : Predicate Leaf) {frontier : Frontier Node}
    (inside : frontier.Inside region) :
    (step.step setting frontier).KeepsTo region (Frontier.Inside region) := by
  cases step with
  | traversal axis inner =>
      apply Frontier.deepen_keepsTo inside
      · exact fun _ within => axis.relocate_keepsTo closed within
      · exact fun _ within => inner.accepts_keepsTo within
  | _ => exact Frontier.filterRun_keepsTo inside fun _ within => accepts_keepsTo _ within

/-- A step of a path, its lines included, keeps to the region. -/
theorem Program.stepPart_keepsTo (index : Nat) (last : Bool) (step? : Option (Predicate Leaf))
    {frontier : Frontier Node} (inside : frontier.Inside region) :
    (stepPart setting index last step? frontier).KeepsTo region (Frontier.Inside region) := by
  cases step? with
  | none => exact .throw _
  | some step =>
      refine (step.step_keepsTo closed inside).bind fun found within => ?_
      refine (Setting.labelOf_keepsTo step).bind fun label _ => ?_
      refine (Run.KeepsTo.send _ _).bind fun _ _ => ?_
      split
      · exact (Run.KeepsTo.send _ _).bind fun _ _ => .pure within
      · exact .pure within

/-- **Paths keep to regions.** Where the host does not lead out of a region, a path that starts
inside asks about nodes of the region only and finds none but those, whether or not it fails. -/
theorem Path.run_keepsTo (path : Path Leaf) {start : Frontier Node}
    (inside : start.Inside region) :
    (path.run setting start).KeepsTo region (Frontier.Inside region) := by
  induction path using induct generalizing start with
  | simple steps =>
      rw [run, Program.simple_eq_sequence]
      refine Run.KeepsTo.sequence (fun part member frontier within => ?_) inside
      obtain ⟨step?, _, index, last, rfl⟩ := Program.mem_stepParts member
      exact Program.stepPart_keepsTo closed index last step? within
  | union delegates ih =>
      rw [run, Program.union_eq_sequence, runs_eq_map, List.map_map]
      refine Run.KeepsTo.sequence (fun part member found within => ?_) Frontier.inside_empty
      obtain ⟨delegate, among, rfl⟩ := List.mem_map.mp member
      exact (ih delegate among inside).bind fun result reached => .pure (within.insertAll reached)
  | exclusion base excluded baseIH excludedIH =>
      rw [run, Program.exclusion_eq_sequence, runs_eq_map, List.map_map]
      refine Run.KeepsTo.sequence (fun part member found within => ?_) inside
      rcases List.mem_cons.mp member with rfl | later
      · exact baseIH within
      · obtain ⟨path, among, rfl⟩ := List.mem_map.mp later
        have withdrawn := (excludedIH path among inside).excluding setting.sink
        exact withdrawn.bind fun result _ => .pure (within.removeAll result.nodes)
  | chain links ih =>
      rw [run, Program.chain_eq_sequence, runs_eq_map]
      refine Run.KeepsTo.sequence (fun part member found within => ?_) inside
      obtain ⟨link, among, rfl⟩ := List.mem_map.mp member
      exact ih link among within
  | traced title body ih =>
      rw [run]
      exact (ih inside).traced setting.sink title
  | stray operand? => exact .throw _

end TreeQuery
