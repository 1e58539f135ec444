import TreeQuery.Proofs.Navigation.Evaluation
import TreeQuery.Proofs.Navigation.Steps

/-! # The first failure

A navigation ends with the first failure that evaluation from left to right meets, as it is, and
asks nothing after it: of its calls only the last one can have failed. A missing step fails with its
position in its own path, and only when there are nodes left to take it from
(`TreeQuery.Path.navigate_first_failure`).
-/

namespace TreeQuery

variable {Node Leaf Failure : Type} {setting : Setting Node Leaf Failure}

/-- The fault with which a call fails, if it does. -/
def Setting.fault? (setting : Setting Node Leaf Failure) : Call Node Leaf → Option (Fault Failure)
  | .tested leaf node => match setting.answer leaf node with
      | .ok _ => none
      | .error fault => some fault
  | .counted _ _ => none
  | .asked relation node => (setting.host.related relation node).fault?

/-- The foreign objects that stand in the place of tests in a predicate. -/
def Predicate.foreigners : Predicate Leaf → List Leaf
  | any | function _ _ | custom _ _ => []
  | counting _ inner _ | negation inner | traversal _ inner => inner.foreigners
  | conjunction left right | disjunction left right => left.foreigners ++ right.foreigners
  | foreign object => [object]

/-- A fault that a predicate comes to without a call, since what stands in the place of a test is
none. -/
def Predicate.RaisesItself (answer : Leaf → Node → Except (Fault Failure) Value)
    (predicate : Predicate Leaf) (fault : Fault Failure) : Prop :=
  ∃ object ∈ predicate.foreigners, ∃ node, answer object node = .error fault

/-- What a part of a predicate raises by itself the whole one does. -/
theorem Predicate.RaisesItself.mono {answer : Leaf → Node → Except (Fault Failure) Value}
    {part whole : Predicate Leaf} (within : part.foreigners ⊆ whole.foreigners)
    {fault : Fault Failure} (raises : part.RaisesItself answer fault) :
    whole.RaisesItself answer fault := by
  obtain ⟨object, member, failed⟩ := raises
  exact ⟨object, within member, failed⟩

/-- A fault that a path comes to without a call: a step is missing or has no label, a search is
given up, or what stands in the place of a path or of a test is none. -/
inductive Path.RaisesItself (setting : Setting Node Leaf Failure) :
    Path Leaf → Fault Failure → Prop where
  | missing {steps : List (Option (Predicate Leaf))} {index : Nat} :
      steps[index]? = some none → RaisesItself setting (.simple steps) (.missingStep index)
  | unlabelled {steps : List (Option (Predicate Leaf))} {step : Predicate Leaf} {object : Leaf} :
      some step ∈ steps → step.label = .error object →
        RaisesItself setting (.simple steps) (.raised (setting.unlabelled object))
  | exhausted (steps : List (Option (Predicate Leaf))) :
      RaisesItself setting (.simple steps) .exhausted
  | test {steps : List (Option (Predicate Leaf))} {step : Predicate Leaf}
      {fault : Fault Failure} :
      some step ∈ steps → step.RaisesItself setting.answer fault →
        RaisesItself setting (.simple steps) fault
  | delegate {delegates : List (Path Leaf)} {delegate : Path Leaf} {fault : Fault Failure} :
      delegate ∈ delegates → RaisesItself setting delegate fault →
        RaisesItself setting (.union delegates) fault
  | base {base : Path Leaf} {fault : Fault Failure} (excluded : List (Path Leaf)) :
      RaisesItself setting base fault → RaisesItself setting (.exclusion base excluded) fault
  | excluded {path : Path Leaf} {excluded : List (Path Leaf)} {fault : Fault Failure}
      (base : Path Leaf) : path ∈ excluded → RaisesItself setting path fault →
        RaisesItself setting (.exclusion base excluded) fault
  | link {links : List (Path Leaf)} {link : Path Leaf} {fault : Fault Failure} :
      link ∈ links → RaisesItself setting link fault → RaisesItself setting (.chain links) fault
  | traced {body : Path Leaf} {fault : Fault Failure} (title : String) :
      RaisesItself setting body fault → RaisesItself setting (.traced title body) fault
  | stray (operand? : Option (Predicate Leaf)) :
      RaisesItself setting (.stray operand?) (.raised (setting.noPath operand?))

namespace Evaluation

/-! ### Calls that fail -/

variable {uncalled : Fault Failure → Prop}

/-- A leaf that fails is the last one asked. -/
theorem asked_tested_stops (leaf : Leaf) (node : Node) :
    (Course.asked (.tested leaf node) (setting.answer leaf node)).StopsAtFailure setting.fault?
      uncalled := by
  apply Course.StopsAtFailure.asked
  · intro value given
    rw [Setting.fault?, given]
  · intro fault given
    rw [Setting.fault?, given]

/-- A host that fails is the last one asked. -/
theorem asked_related_stops (relation : Relation) (node : Node) :
    (Course.asked (.asked relation node)
      (setting.host.related relation node).toExcept).StopsAtFailure setting.fault? uncalled := by
  rw [Listing.toExcept]
  cases given : (setting.host.related relation node).fault? with
  | none => exact .asked (fun _ _ => given) fun fault same => by cases same
  | some fault =>
      refine .asked (fun value same => by cases same) fun other same => ?_
      cases same
      exact given

/-- A test stops at the first leaf that fails, or raises by itself. -/
theorem test_stops (predicate : Predicate Leaf) (node : Node) :
    (test setting.answer predicate node).StopsAtFailure setting.fault?
      (predicate.RaisesItself setting.answer) := by
  induction predicate with
  | any => exact .done _
  | function leaf label => exact (asked_tested_stops leaf node).andThen fun _ => .done _
  | custom leaf className => exact asked_tested_stops leaf node
  | counting counter inner title? ih =>
      have counted : (Course.asked (.counted counter node) (.ok ()) :
          Course Node Leaf Failure Unit).StopsAtFailure setting.fault?
            (inner.RaisesItself setting.answer) :=
        .asked (fun _ _ => rfl) fun fault same => by cases same
      exact counted.andThen fun _ => ih
  | negation inner ih => exact ih.andThen fun _ => .done _
  | conjunction left right leftIH rightIH =>
      have first : (test setting.answer left node).StopsAtFailure setting.fault?
          ((Predicate.conjunction left right).RaisesItself setting.answer) :=
        leftIH.mono fun _ => .mono (List.subset_append_left _ _)
      have second : (test setting.answer right node).StopsAtFailure setting.fault?
          ((Predicate.conjunction left right).RaisesItself setting.answer) :=
        rightIH.mono fun _ => .mono (List.subset_append_right _ _)
      refine first.andThen fun value => ?_
      split
      · exact second.andThen fun _ => .done _
      · exact .done _
  | disjunction left right leftIH rightIH =>
      have first : (test setting.answer left node).StopsAtFailure setting.fault?
          ((Predicate.disjunction left right).RaisesItself setting.answer) :=
        leftIH.mono fun _ => .mono (List.subset_append_left _ _)
      have second : (test setting.answer right node).StopsAtFailure setting.fault?
          ((Predicate.disjunction left right).RaisesItself setting.answer) :=
        rightIH.mono fun _ => .mono (List.subset_append_right _ _)
      refine first.andThen fun value => ?_
      split
      · exact .done _
      · exact second.andThen fun _ => .done _
  | traversal axis inner ih => exact ih
  | foreign object =>
      exact .of_no_call fun fault given => ⟨object, List.mem_singleton_self object, node, given⟩

variable [Keyed Node]

/-- No further node is tested after a failure. -/
theorem filter_stops (predicate : Predicate Leaf) (frontier : Frontier Node) :
    (filter setting.answer predicate frontier).StopsAtFailure setting.fault?
      (predicate.RaisesItself setting.answer) := by
  refine .inOrder (fun part member kept => ?_) ∅
  obtain ⟨node, _, rfl⟩ := List.mem_map.mp member
  exact (test_stops predicate node).andThen fun _ => .done _

/-- No further node is relocated after a failure. -/
theorem relocate_stops (axis : Axis) (frontier : Frontier Node) :
    (relocate setting.host axis frontier).StopsAtFailure setting.fault? uncalled := by
  refine .inOrder (fun part member found => ?_) ∅
  obtain ⟨inquiry, _, rfl⟩ := List.mem_map.mp member
  exact (asked_related_stops inquiry.1 inquiry.2).andThen fun _ => .done _

/-- A search that goes deeper stops in the round in which something fails. -/
theorem deepen_stops (axis : Axis) (predicate : Predicate Leaf) (moves : Nat)
    (exhausts : uncalled .exhausted)
    (raises : ∀ fault, predicate.RaisesItself setting.answer fault → uncalled fault)
    (frontier : Frontier Node) :
    (deepen setting axis predicate moves frontier).StopsAtFailure setting.fault? uncalled := by
  induction moves generalizing frontier with
  | zero => exact .of_failed exhausts
  | succ moves ih =>
      refine (relocate_stops axis frontier).andThen fun arrived => ?_
      split
      · exact .done _
      · refine ((filter_stops predicate arrived).mono raises).andThen fun candidates => ?_
        split
        · exact ih arrived
        · exact .done _

/-- A step stops at its first failure. -/
theorem step_stops (predicate : Predicate Leaf) (exhausts : uncalled .exhausted)
    (raises : ∀ fault, predicate.RaisesItself setting.answer fault → uncalled fault)
    (frontier : Frontier Node) :
    (step setting predicate frontier).StopsAtFailure setting.fault? uncalled := by
  cases predicate with
  | traversal axis inner => exact deepen_stops axis inner setting.patience exhausts raises frontier
  | any | function | custom | counting | negation | conjunction | disjunction | foreign =>
      exact (filter_stops _ frontier).mono raises

/-- A step of a path does so too, and it may be missing or have no label. -/
theorem stepAt_stops {steps : List (Option (Predicate Leaf))} {step? : Option (Predicate Leaf)}
    {index : Nat} (placed : steps[index]? = some step?) (frontier : Frontier Node) :
    (stepAt setting (step?, index) frontier).StopsAtFailure setting.fault?
      ((Path.simple steps).RaisesItself setting) := by
  cases step? with
  | none => exact .of_failed (.missing placed)
  | some predicate =>
      have member := List.mem_of_getElem? placed
      apply (step_stops predicate (.exhausted steps) (fun _ => .test member) frontier).andThen
      intro found
      split
      · exact .done _
      · next object unnamed => exact .of_failed (.unlabelled member unnamed)

/-- Of the calls made for a path only the last one can have failed, with what the path comes to. -/
theorem path_stops (navigated : Path Leaf) (start : Frontier Node) :
    (path setting navigated start).StopsAtFailure setting.fault?
      (navigated.RaisesItself setting) := by
  induction navigated using Path.induct generalizing start with
  | simple steps =>
      rw [path]
      refine .inOrder (fun part member frontier => ?_) start
      obtain ⟨⟨step?, index⟩, placed, rfl⟩ := List.mem_map.mp member
      exact stepAt_stops (List.mem_zipIdx_iff_getElem?.mp placed) frontier
  | union delegates ih =>
      rw [path, paths_eq_map, List.map_map]
      refine .inOrder (fun part member found => ?_) ∅
      obtain ⟨delegate, among, rfl⟩ := List.mem_map.mp member
      apply Course.StopsAtFailure.andThen
      · exact (ih delegate among start).mono fun _ => .delegate among
      · exact fun _ => .done _
  | exclusion base excluded baseIH excludedIH =>
      rw [path, paths_eq_map, List.map_map]
      refine .inOrder (fun part member found => ?_) start
      rcases List.mem_cons.mp member with rfl | later
      · exact (baseIH found).mono fun _ => .base excluded
      · obtain ⟨other, among, rfl⟩ := List.mem_map.mp later
        apply Course.StopsAtFailure.andThen
        · exact (excludedIH other among start).mono fun _ => .excluded base among
        · exact fun _ => .done _
  | chain links ih =>
      rw [path, paths_eq_map]
      refine .inOrder (fun part member found => ?_) start
      obtain ⟨link, among, rfl⟩ := List.mem_map.mp member
      exact (ih link among found).mono fun _ => .link among
  | traced title body ih => exact (ih start).mono fun _ => .traced title
  | stray operand? => exact .of_failed (.stray operand?)

/-! ### More patience -/

section Patience

variable {patience : Nat}

/-- More patience changes nothing for a search that is not given up. -/
theorem deepen_precedes (axis : Axis) (predicate : Predicate Leaf) {moves more : Nat}
    (least : moves ≤ more) (frontier : Frontier Node) :
    (deepen setting axis predicate moves frontier).Precedes
      (deepen { setting with patience := patience } axis predicate more frontier) := by
  induction moves generalizing more frontier with
  | zero => exact .inl rfl
  | succ moves ih =>
      obtain ⟨others, rfl⟩ := Nat.exists_eq_add_of_le' (Nat.le_of_add_left_le least)
      refine (Course.Precedes.refl _).andThen fun arrived => ?_
      split
      · exact .refl _
      · refine (Course.Precedes.refl _).andThen fun candidates => ?_
        split
        · exact ih (Nat.le_of_succ_le_succ least) arrived
        · exact .refl _

variable (patient : setting.patience ≤ patience)

include patient

/-- More patience changes nothing for a step of a path that is not given up. -/
theorem stepAt_precedes (indexed : Option (Predicate Leaf) × Nat) (frontier : Frontier Node) :
    (stepAt setting indexed frontier).Precedes
      (stepAt { setting with patience := patience } indexed frontier) := by
  obtain ⟨step?, index⟩ := indexed
  cases step? with
  | none => exact .refl _
  | some predicate =>
      have steps : (step setting predicate frontier).Precedes
          (step { setting with patience := patience } predicate frontier) := by
        cases predicate with
        | traversal axis inner => exact deepen_precedes axis inner patient frontier
        | any | function | custom | counting | negation | conjunction | disjunction | foreign =>
            exact .refl _
      exact steps.andThen fun found => .refl _

/-- A path that is not given up takes the same course with more patience. -/
theorem path_precedes (navigated : Path Leaf) (start : Frontier Node) :
    (path setting navigated start).Precedes
      (path { setting with patience := patience } navigated start) := by
  induction navigated using Path.induct generalizing start with
  | simple steps =>
      rw [path, path]
      exact .inOrder (forall₂_map_of_mem fun indexed _ => stepAt_precedes patient indexed) start
  | union delegates ih =>
      rw [path, path, paths_eq_map, paths_eq_map, List.map_map, List.map_map]
      refine .inOrder (forall₂_map_of_mem ?_) ∅
      exact fun delegate member found => (ih delegate member start).andThen fun _ => .refl _
  | exclusion base excluded baseIH excludedIH =>
      rw [path, path, paths_eq_map, paths_eq_map, List.map_map, List.map_map]
      refine .inOrder (.cons baseIH (forall₂_map_of_mem ?_)) start
      exact fun other member found => (excludedIH other member start).andThen fun _ => .refl _
  | chain links ih =>
      rw [path, path, paths_eq_map, paths_eq_map]
      exact .inOrder (forall₂_map_of_mem ih) start
  | traced title body ih => exact ih start
  | stray operand? => exact .refl _

end Patience

/-! ### Missing steps -/

section Missing

variable {steps : List (Option (Predicate Leaf))}

/-- The first position at which a step is missing. -/
def FirstMissing (steps : List (Option (Predicate Leaf))) (index : Nat) : Prop :=
  steps[index]? = some none ∧ ∀ earlier < index, steps[earlier]? ≠ some none

omit [Keyed Node] in
/-- A missing step at the front is the first one missing. -/
theorem firstMissing_none_cons {rest : List (Option (Predicate Leaf))} {index : Nat} :
    FirstMissing (none :: rest) index ↔ index = 0 := by
  constructor
  · rintro ⟨_, least⟩
    by_contra positive
    exact least 0 (Nat.pos_of_ne_zero positive) rfl
  · rintro rfl
    exact ⟨rfl, fun _ less => absurd less (Nat.not_lt_zero _)⟩

omit [Keyed Node] in
/-- Behind a step that is there, places are counted from the next one. -/
theorem firstMissing_some_cons {predicate : Predicate Leaf}
    {rest : List (Option (Predicate Leaf))} {index : Nat} :
    FirstMissing (some predicate :: rest) index ↔
      ∃ earlier, index = earlier + 1 ∧ FirstMissing rest earlier := by
  constructor
  · rintro ⟨missing, least⟩
    cases index with
    | zero => cases missing
    | succ earlier =>
        exact ⟨earlier, rfl, missing, fun other less => least (other + 1) (Nat.succ_lt_succ less)⟩
  · rintro ⟨earlier, rfl, missing, least⟩
    refine ⟨missing, fun other less => ?_⟩
    cases other with
    | zero => exact fun same => by cases same
    | succ other => exact least other (Nat.lt_of_succ_lt_succ less)

/-- Steps, counted from an offset. -/
def stepsFrom (setting : Setting Node Leaf Failure) (offset : Nat)
    (steps : List (Option (Predicate Leaf))) :
    Frontier Node → Course Node Leaf Failure (Frontier Node) :=
  .inOrder Frontier.isEmpty ((steps.zipIdx offset).map (stepAt setting))

/-- Without nodes no step is taken. -/
theorem stepsFrom_of_isEmpty (offset : Nat) (steps : List (Option (Predicate Leaf)))
    {frontier : Frontier Node} (none : frontier.isEmpty = true) :
    stepsFrom setting offset steps frontier = .done frontier :=
  Course.inOrder_of_over _ none

/-- With nodes the first step is taken, and the others from what it finds. -/
theorem stepsFrom_cons (offset : Nat) (step? : Option (Predicate Leaf))
    (rest : List (Option (Predicate Leaf))) {frontier : Frontier Node}
    (more : frontier.isEmpty = false) :
    stepsFrom setting offset (step? :: rest) frontier =
      (stepAt setting (step?, offset) frontier).andThen (stepsFrom setting (offset + 1) rest) :=
  Course.inOrder_cons_of_not_over _ _ more

/-- A step that is there does not fail as a missing one unless its predicate does. -/
theorem outcome_stepAt_ne_missingStep {predicate : Predicate Leaf} {frontier : Frontier Node}
    (other : ∀ index, (step setting predicate frontier).outcome ≠ .error (.missingStep index))
    (offset index : Nat) :
    (stepAt setting (some predicate, offset) frontier).outcome ≠ .error (.missingStep index) := by
  rw [stepAt]
  cases ended : (step setting predicate frontier).outcome with
  | error fault =>
      rw [Course.andThen_of_error ended]
      exact fun same => other index (ended.trans same)
  | ok found =>
      rw [Course.andThen_of_ok ended]
      cases predicate.label <;> exact fun same => by cases same

/-- A position, counted from an offset, at which a step is missing for the first time and nodes are
left to take it from. -/
def MissesAt (setting : Setting Node Leaf Failure) (offset : Nat)
    (steps : List (Option (Predicate Leaf))) (frontier : Frontier Node) (position : Nat) : Prop :=
  ∃ index, position = offset + index ∧ FirstMissing steps index ∧
    ∃ found, (stepsFrom setting offset (steps.take index) frontier).outcome = .ok found ∧
      found.isEmpty = false

variable {offset position : Nat} {frontier : Frontier Node}
  {rest : List (Option (Predicate Leaf))} {predicate : Predicate Leaf}

/-- Without nodes no step is missed. -/
theorem not_missesAt_of_isEmpty (none : frontier.isEmpty = true) :
    ¬ MissesAt setting offset steps frontier position := by
  rintro ⟨index, _, _, found, same, some⟩
  rw [stepsFrom_of_isEmpty _ _ none] at same
  cases same
  rw [none] at some
  cases some

/-- With nodes a missing step at the front is missed there. -/
theorem missesAt_none_cons_iff (more : frontier.isEmpty = false) :
    MissesAt setting offset (none :: rest) frontier position ↔ position = offset := by
  constructor
  · rintro ⟨index, rfl, first, _⟩
    rw [firstMissing_none_cons.mp first, Nat.add_zero]
  · rintro rfl
    exact ⟨0, rfl, firstMissing_none_cons.mpr rfl, frontier, rfl, more⟩

/-- After a step that fails none is missed. -/
theorem not_missesAt_some_cons_of_error (more : frontier.isEmpty = false) {fault : Fault Failure}
    (ended : (stepAt setting (some predicate, offset) frontier).outcome = .error fault) :
    ¬ MissesAt setting offset (some predicate :: rest) frontier position := by
  rintro ⟨index, _, first, found, same, _⟩
  obtain ⟨earlier, rfl, _⟩ := firstMissing_some_cons.mp first
  rw [List.take_succ_cons, stepsFrom_cons _ _ _ more, Course.andThen_of_error ended] at same
  cases same

/-- A step that is there hands the question on to the steps behind it. -/
theorem missesAt_some_cons_iff_of_ok (more : frontier.isEmpty = false) {next : Frontier Node}
    (ended : (stepAt setting (some predicate, offset) frontier).outcome = .ok next) :
    MissesAt setting offset (some predicate :: rest) frontier position ↔
      MissesAt setting (offset + 1) rest next position := by
  constructor
  · rintro ⟨index, rfl, first, found, same, some⟩
    obtain ⟨earlier, rfl, later⟩ := firstMissing_some_cons.mp first
    rw [List.take_succ_cons, stepsFrom_cons _ _ _ more, Course.andThen_of_ok ended] at same
    exact ⟨earlier, by omega, later, found, same, some⟩
  · rintro ⟨earlier, rfl, later, found, same, some⟩
    have first : FirstMissing (.some predicate :: rest) (earlier + 1) :=
      firstMissing_some_cons.mpr ⟨earlier, rfl, later⟩
    refine ⟨earlier + 1, by omega, first, found, ?_, some⟩
    rw [List.take_succ_cons, stepsFrom_cons _ _ _ more, Course.andThen_of_ok ended]
    exact same

/-- Steps that do not fail with a missing step themselves come to one exactly when the first missing
step has nodes to be taken from. -/
theorem outcome_stepsFrom_eq_missingStep_iff
    (others : ∀ predicate, some predicate ∈ steps → ∀ (frontier : Frontier Node) index,
      (step setting predicate frontier).outcome ≠ .error (.missingStep index)) :
    (stepsFrom setting offset steps frontier).outcome = .error (.missingStep position) ↔
      MissesAt setting offset steps frontier position := by
  induction steps generalizing offset frontier with
  | nil =>
      constructor
      · exact fun same => by cases same
      · rintro ⟨index, _, ⟨missing, _⟩, _⟩
        cases missing
  | cons step? rest ih =>
      cases done : frontier.isEmpty with
      | true =>
          rw [stepsFrom_of_isEmpty _ _ done]
          refine iff_of_false (fun same => ?_) (not_missesAt_of_isEmpty done)
          cases same
      | false =>
          rw [stepsFrom_cons _ _ _ done]
          cases step? with
          | none =>
              rw [missesAt_none_cons_iff done]
              constructor
              · intro same
                cases same
                rfl
              · rintro rfl
                rfl
          | some predicate =>
              cases ended : (stepAt setting (some predicate, offset) frontier).outcome with
              | error fault =>
                  rw [Course.andThen_of_error ended]
                  have other := outcome_stepAt_ne_missingStep
                    (others predicate List.mem_cons_self frontier) offset position
                  exact iff_of_false (fun same => other (ended.trans same))
                    (not_missesAt_some_cons_of_error done ended)
              | ok next =>
                  rw [Course.andThen_of_ok ended, missesAt_some_cons_iff_of_ok done ended]
                  exact ih fun later member => others later (List.mem_cons_of_mem _ member)

end Missing

end Evaluation

variable [Keyed Node]

/-- **The first failure is the outcome.** With a sink that takes every line, navigation takes the
course that evaluation from left to right takes: it makes the same calls and ends in the same way,
whatever is traced. Of the calls of a course only the last one can have failed, and then the course
ends with its fault; otherwise it ends with nodes, or with a fault that the path comes to by itself,
such as a missing step. A course that is not given up stays the same with more patience. A simple
path whose predicates do not fail with a missing step themselves fails with one exactly at its first
missing step, provided that the steps before it leave nodes. -/
theorem Path.navigate_first_failure (accepts : setting.sink.Accepts) :
    (∀ (path : Path Leaf) (start : List Node),
      let course := Evaluation.path setting path (.ofList start)
      (path.navigate setting start).Takes course ∧
        course.StopsAtFailure setting.fault? (path.RaisesItself setting) ∧
        (course.outcome ≠ .error .exhausted → ∀ patience, setting.patience ≤ patience →
          (path.navigate { setting with patience := patience } start).Takes course)) ∧
    ∀ steps : List (Option (Predicate Leaf)),
      (∀ step, some step ∈ steps → ∀ (frontier : Frontier Node) before index,
        ((step.step setting frontier).perform before).1 ≠ .error (.missingStep index)) →
      ∀ (start : List Node) before index,
        (((simple steps).navigate setting start).perform before).1 = .error (.missingStep index) ↔
          steps[index]? = some none ∧ (∀ earlier < index, steps[earlier]? ≠ some none) ∧
            ∃ found : Frontier Node,
              (((simple (steps.take index)).navigate setting start).perform before).1 = .ok found ∧
                found.isEmpty = false := by
  constructor
  · intro path start course
    refine ⟨Evaluation.run_takes accepts path _, Evaluation.path_stops path _, ?_⟩
    intro ended patience patient
    have takes : (path.navigate { setting with patience := patience } start).Takes
        (Evaluation.path { setting with patience := patience } path (.ofList start)) := by
      apply Evaluation.run_takes
      exact accepts
    have same := (Evaluation.path_precedes patient path (.ofList start)).resolve_left ended
    rw [← same] at takes
    exact takes
  · intro steps others start before index
    have ends : ∀ steps : List (Option (Predicate Leaf)),
        (((simple steps).navigate setting start).perform before).1 =
          (Evaluation.stepsFrom setting 0 steps (.ofList start)).outcome :=
      fun steps => (Evaluation.run_takes accepts (simple steps) _ before).1
    rw [ends, ends, Evaluation.outcome_stepsFrom_eq_missingStep_iff]
    · simp only [Evaluation.MissesAt, Nat.zero_add, exists_eq_left', Evaluation.FirstMissing,
        and_assoc]
    · intro predicate member frontier index
      rw [← (Evaluation.step_takes predicate frontier {}).1]
      exact others predicate member frontier {} index

end TreeQuery

namespace TreeQuery.Grove

/-- In the grove, for a path that comes to a missing step, also with more patience, and for a
missing step by itself. -/
theorem detour_first_failure :
    (∀ patience, setting.patience ≤ patience →
      ((detour (.traced "part")).navigate { setting with patience := patience }
        [spot 0 "r"]).Takes
          (Evaluation.path setting (detour (.traced "part")) (.ofList [spot 0 "r"]))) ∧
      (((Path.simple [some .any, none]).navigate setting [spot 0 "r"]).perform {}).1 =
        .error (.missingStep 1) := by
  have accepts : setting.sink.Accepts := fun _ _ => rfl
  obtain ⟨takes, missing⟩ := Path.navigate_first_failure accepts
  obtain ⟨course, _, patient⟩ := takes (detour (.traced "part")) [spot 0 "r"]
  have ended : (Evaluation.path setting (detour (.traced "part"))
      (.ofList [spot 0 "r"])).outcome ≠ .error .exhausted := by
    rw [← (course {}).1]
    exact fun same => by cases same
  refine ⟨patient ended, (missing _ ?_ _ _ _).mpr ⟨rfl, ?_, _, rfl, rfl⟩⟩
  · intro step member frontier before index
    -- The only step that is there accepts every node.
    simp only [List.mem_cons, Option.some.injEq, reduceCtorEq, List.not_mem_nil, or_false] at member
    subst member
    have all : (Predicate.step setting .any frontier).Ends (.ok (frontier.filter fun _ => true)) :=
      Frontier.filterRun_ends fun _ _ _ => rfl
    rw [all before]
    exact fun same => by cases same
  · intro earlier less
    rw [Nat.lt_one_iff.mp less]
    exact fun same => by cases same

end TreeQuery.Grove
