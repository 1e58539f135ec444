import TreeQuery.Proofs.Navigation.Starts
import TreeQuery.Proofs.Predicate.Combination

/-! # Fusing steps

Two filters in a row may be swapped, or be joined to one, and a filter behind a traversal that moves
once may be drawn into its test, whatever stands before and behind them. A search that deepens
settles for the first generation with a match before a filter behind it is asked. Drawn into the
test, the filter may make the search go on: the two ways differ exactly where the filter accepts
nothing of that generation (`TreeQuery.Path.steps_fuse`).
-/

namespace TreeQuery

variable {Node Leaf Failure : Type}

namespace Predicate

variable {answer : Leaf → Node → Except (Fault Failure) Value} {region : Set Node}
  {left right : Predicate Leaf}

/-- A conjunction accepts what both its operands accept, also where one of them has no answer. -/
theorem holds_conjunction :
    (conjunction left right).holds answer =
      fun node => left.holds answer node && right.holds answer node := by
  funext node
  unfold holds
  rw [verdict]
  cases left.verdict answer node with
  | error fault => rfl
  | ok value =>
      simp only [bind, Except.bind]
      cases value.truthy with
      | false => rfl
      | true => cases right.verdict answer node <;> rfl

theorem Plain.conjunction (first : left.Plain) (second : right.Plain) :
    (Predicate.conjunction left right).Plain :=
  first.joined second .and

theorem Answers.conjunction (first : left.Answers answer region)
    (second : right.Answers answer region) :
    (Predicate.conjunction left right).Answers answer region :=
  (first.gives.joined second.gives .and).answers

end Predicate

section FirstMatch

variable {move : List Node → List Node} {accepts also : Node → Bool} {nodes : List Node}

/-- Either there is no match, or there is a first one. -/
theorem firstMatch_cases (move : List Node → List Node) (accepts : Node → Bool)
    (nodes : List Node) :
    (∀ count, (move^[count + 1] nodes).filter accepts = []) ∨
      ∃ count, (move^[count + 1] nodes).filter accepts ≠ [] ∧
        ∀ earlier < count, (move^[earlier + 1] nodes).filter accepts = [] := by
  classical
  by_cases found : ∃ count, (move^[count + 1] nodes).filter accepts ≠ []
  · exact .inr ⟨Nat.find found, Nat.find_spec found,
      fun earlier less => not_not.mp (Nat.find_min found less)⟩
  · exact .inl fun count => not_not.mp fun matched => found ⟨count, matched⟩

/-- Filtering the first match gives the first match of both tests, unless it leaves nothing. -/
theorem filter_firstMatch_eq_or :
    (firstMatch move accepts nodes).filter also = [] ∨
      (firstMatch move accepts nodes).filter also =
        firstMatch move (fun node => accepts node && also node) nodes := by
  have both : ∀ list : List Node, (list.filter accepts).filter also =
      list.filter fun node => accepts node && also node := by
    intro list
    rw [List.filter_filter]
    simp only [Bool.and_comm]
  rcases firstMatch_cases move accepts nodes with none | ⟨count, matched, before⟩
  · rw [firstMatch_of_none none]
    exact .inl rfl
  · rw [firstMatch_of_first matched before, both]
    by_cases left : (move^[count + 1] nodes).filter (fun node => accepts node && also node) = []
    · exact .inl left
    · refine .inr (firstMatch_of_first left fun earlier less => ?_).symm
      rw [← both, before earlier less]
      rfl

/-- Filtering the first match leaves nothing if there is none, or if nothing in it passes. -/
theorem filter_firstMatch_eq_nil_iff :
    (firstMatch move accepts nodes).filter also = [] ↔
      (∀ count, (move^[count + 1] nodes).filter accepts = []) ∨
        ∃ count, (move^[count + 1] nodes).filter accepts ≠ [] ∧
          (∀ earlier < count, (move^[earlier + 1] nodes).filter accepts = []) ∧
          ∀ node ∈ (move^[count + 1] nodes).filter accepts, also node = false := by
  constructor
  · intro nothing
    rcases firstMatch_cases move accepts nodes with none | ⟨count, matched, before⟩
    · exact .inl none
    · refine .inr ⟨count, matched, before, fun node member => ?_⟩
      rw [firstMatch_of_first matched before] at nothing
      exact Bool.eq_false_iff.mpr (List.filter_eq_nil_iff.mp nothing node member)
  · rintro (none | ⟨count, matched, before, fails⟩)
    · rw [firstMatch_of_none none]
      rfl
    · rw [firstMatch_of_first matched before, List.filter_eq_nil_iff]
      exact fun node member => Bool.eq_false_iff.mp (fails node member)

end FirstMatch

/-- A simple path none of whose steps is missing. -/
def Path.ofSteps (steps : List (Predicate Leaf)) : Path Leaf :=
  .simple (steps.map some)

variable [Keyed Node] {setting : Setting Node Leaf Failure} {region : Set Node}

/-- What a search that deepens finds with a filter behind it, and what it finds with the filter in
its test. A filter behind it may only take away everything, and it does so where the search finds no
match at all, or where the filter accepts nothing of the first generation with a match. -/
structure Axis.Postpones (host : Host Node Failure) (passes also : Node → Bool)
    (start behind within : Frontier Node) : Prop where
  empty_or_eq : behind = ∅ ∨ behind = within
  empty_iff : behind = ∅ ↔
    (∀ count, generation host passes (count + 1) start.nodes = []) ∨
      ∃ count, generation host passes (count + 1) start.nodes ≠ [] ∧
        (∀ earlier < count, generation host passes (earlier + 1) start.nodes = []) ∧
        ∀ node ∈ generation host passes (count + 1) start.nodes, also node = false

theorem Axis.postpones {host : Host Node Failure} {passes also : Node → Bool}
    {start behind within : Frontier Node}
    (finds : behind.nodes = (firstMatch (moved host descendants) passes start.nodes).filter also)
    (finds' : within.nodes =
      firstMatch (moved host descendants) (fun node => passes node && also node) start.nodes) :
    Postpones host passes also start behind within := by
  constructor
  · have either : behind.nodes = [] ∨ behind.nodes = within.nodes := by
      rw [finds, finds']
      exact filter_firstMatch_eq_or
    exact either.imp Frontier.ext_nodes Frontier.ext_nodes
  · have empty : behind = ∅ ↔ behind.nodes = [] :=
      ⟨fun nothing => nothing ▸ rfl, fun nothing => Frontier.ext_nodes nothing⟩
    rw [empty, finds]
    exact filter_firstMatch_eq_nil_iff

namespace Evaluation

/-- What steps end with, from a frontier. -/
def outcomeOf (setting : Setting Node Leaf Failure) (steps : List (Predicate Leaf))
    (frontier : Frontier Node) : Except (Fault Failure) (Frontier Node) :=
  (path setting (.ofSteps steps) frontier).outcome

/-- Where no step is missing, the positions of the steps do not count. -/
theorem path_ofSteps (steps : List (Predicate Leaf)) (frontier : Frontier Node) :
    path setting (.ofSteps steps) frontier =
      .inOrder Frontier.isEmpty (steps.map fun step => stepAt setting (some step, 0)) frontier := by
  have unnumbered : ∀ index, ((steps.map some).zipIdx index).map (stepAt setting) =
      steps.map fun step => stepAt setting (some step, 0) := by
    induction steps with
    | nil => exact fun _ => rfl
    | cons step rest ih =>
        intro index
        rw [List.map_cons, List.zipIdx_cons, List.map_cons, List.map_cons, ih]
        rfl
  rw [Path.ofSteps, path, unnumbered]

theorem outcomeOf_append (front back : List (Predicate Leaf)) (frontier : Frontier Node) :
    outcomeOf setting (front ++ back) frontier =
      outcomeOf setting front frontier >>= outcomeOf setting back := by
  rw [outcomeOf, outcomeOf, path_ofSteps, path_ofSteps, List.map_append, Course.inOrder_append,
    Course.outcome_andThen]
  congr 1
  funext next
  rw [outcomeOf, path_ofSteps]

theorem outcomeOf_empty (steps : List (Predicate Leaf)) :
    outcomeOf setting steps (∅ : Frontier Node) = .ok ∅ := by
  rw [outcomeOf, path_ofSteps, Course.inOrder_of_over _ rfl]
  rfl

/-- A single step that has a label ends as it does by itself, if there are nodes. -/
theorem outcomeOf_singleton {step : Predicate Leaf} (labelled : ∃ text, step.label = .ok text)
    {frontier : Frontier Node} (more : frontier.isEmpty = false) :
    outcomeOf setting [step] frontier = (Evaluation.step setting step frontier).outcome := by
  obtain ⟨text, labelIs⟩ := labelled
  rw [outcomeOf, path_ofSteps, List.map_singleton, Course.inOrder_cons_of_not_over _ _ more,
    Course.outcome_andThen, stepAt, Course.outcome_andThen, labelIs]
  cases (Evaluation.step setting step frontier).outcome <;> rfl

variable {test first second inner : Predicate Leaf} {axis : Axis} {frontier found : Frontier Node}

section Filter

variable (plain : test.Plain) (answers : test.Answers setting.answer region)

include answers

theorem outcome_filter (inside : frontier.Inside region) :
    (filter setting.answer test frontier).outcome =
      .ok (frontier.filter (test.holds setting.answer)) := by
  apply (filter_takes test frontier).ends.unique
  exact Frontier.filterRun_ends fun node member => answers.accepts_ends (inside node member)

include plain

/-- A plain test as a step only filters. -/
theorem outcomeOf_plain (inside : frontier.Inside region) :
    outcomeOf setting [test] frontier = .ok (frontier.filter (test.holds setting.answer)) := by
  cases none : frontier.isEmpty with
  | true =>
      obtain rfl := Frontier.isEmpty_iff.mp none
      rw [outcomeOf_empty]
      rfl
  | false =>
      rw [outcomeOf_singleton plain.label none]
      apply (step_takes test frontier).ends.unique
      rw [plain.step_eq, ← outcome_filter answers inside]
      exact (filter_takes test frontier).ends

end Filter

section Once

variable (closed : setting.host.StaysIn region)

include closed

theorem inside_of_relocate (inside : frontier.Inside region)
    (arrived : (relocate setting.host axis frontier : Course Node Leaf Failure _).outcome =
      .ok found) : found.Inside region := by
  have ends : (axis.relocate setting frontier).Ends (.ok found) :=
    arrived ▸ (relocate_takes axis frontier).ends
  intro node member
  rw [Axis.nodes_of_relocate_yields ends.yields] at member
  exact Axis.mem_region_of_mem_moved closed inside node member

variable (once : axis.deepens = false)

include once

/-- A traversal that moves once filters where it arrives. -/
theorem outcome_deepen_once (answers : inner.Answers setting.answer region)
    (inside : frontier.Inside region) (moves : Nat) :
    (deepen setting axis inner (moves + 1) frontier).outcome =
      (relocate setting.host axis frontier : Course Node Leaf Failure _).outcome >>=
        fun arrived => .ok (arrived.filter (inner.holds setting.answer)) := by
  rw [deepen, Course.outcome_andThen]
  cases reached : (relocate setting.host axis frontier : Course Node Leaf Failure _).outcome with
  | error fault => rfl
  | ok arrived =>
      have filtered := outcome_filter answers (inside_of_relocate closed inside reached)
      change (if arrived.isEmpty then Course.done ∅ else
        (filter setting.answer inner arrived).andThen fun candidates =>
          if candidates.isEmpty && axis.deepens then deepen setting axis inner moves arrived
          else .done candidates).outcome = _
      cases none : arrived.isEmpty with
      | true =>
          obtain rfl := Frontier.isEmpty_iff.mp none
          rfl
      | false =>
          rw [if_neg Bool.false_ne_true, Course.outcome_andThen, filtered]
          change (if _ && axis.deepens then _ else Course.done _).outcome = _
          rw [once, Bool.and_false, if_neg Bool.false_ne_true]
          rfl

end Once

/-- Where a traversal that moves once arrives, before it tests anything. -/
def arrival (setting : Setting Node Leaf Failure) (axis : Axis) (frontier : Frontier Node) :
    Except (Fault Failure) (Frontier Node) :=
  if frontier.isEmpty then .ok ∅
  else if setting.patience = 0 then .error .exhausted
  else (relocate setting.host axis frontier : Course Node Leaf Failure _).outcome

theorem inside_of_arrival (closed : setting.host.StaysIn region) (inside : frontier.Inside region)
    (arrived : arrival setting axis frontier = .ok found) : found.Inside region := by
  unfold arrival at arrived
  split at arrived
  · cases arrived
    exact Frontier.inside_empty
  · split at arrived
    · cases arrived
    · exact inside_of_relocate closed inside arrived

theorem outcomeOf_once (closed : setting.host.StaysIn region) (once : axis.deepens = false)
    (plain : inner.Plain) (answers : inner.Answers setting.answer region)
    (inside : frontier.Inside region) :
    outcomeOf setting [.traversal axis inner] frontier =
      arrival setting axis frontier >>= fun arrived =>
        .ok (arrived.filter (inner.holds setting.answer)) := by
  unfold arrival
  cases none : frontier.isEmpty with
  | true =>
      obtain rfl := Frontier.isEmpty_iff.mp none
      rw [outcomeOf_empty]
      rfl
  | false =>
      have labelled : ∃ text, (Predicate.traversal axis inner).label = .ok text :=
        plain.label_along (some axis)
      rw [outcomeOf_singleton labelled none, step, if_neg Bool.false_ne_true]
      cases setting.patience with
      | zero => rfl
      | succ moves => exact outcome_deepen_once closed once answers inside moves

section Context

variable (accepts : setting.sink.Accepts) (closed : setting.host.StaysIn region)

include accepts closed

theorem inside_of_outcomeOf {steps : List (Predicate Leaf)} (inside : frontier.Inside region)
    (ended : outcomeOf setting steps frontier = .ok found) : found.Inside region := by
  have ends : ((Path.ofSteps steps).run setting frontier).Ends (.ok found) :=
    ended ▸ (run_takes accepts _ _).ends
  exact Path.inside_of_run_yields closed inside ends.yields

/-- Steps that end alike wherever they start may stand for each other among others. -/
theorem outcomeOf_congr {one other : List (Predicate Leaf)}
    (same : ∀ middle : Frontier Node, middle.Inside region →
      outcomeOf setting one middle = outcomeOf setting other middle)
    (before after : List (Predicate Leaf)) (inside : frontier.Inside region) :
    outcomeOf setting (before ++ one ++ after) frontier =
      outcomeOf setting (before ++ other ++ after) frontier := by
  simp only [outcomeOf_append]
  cases reached : outcomeOf setting before frontier with
  | error fault => rfl
  | ok middle =>
      change (outcomeOf setting one middle >>= _) = (outcomeOf setting other middle >>= _)
      rw [same middle (inside_of_outcomeOf accepts closed inside reached)]

end Context

section Pairs

variable (setting) (plain : first.Plain) (plain' : second.Plain)
  (answers : first.Answers setting.answer region)
  (answers' : second.Answers setting.answer region) (inside : frontier.Inside region)

include plain plain' answers answers' inside

/-- Two filters in a row keep what both accept. -/
theorem outcomeOf_filters :
    outcomeOf setting [first, second] frontier = .ok (frontier.filter fun node =>
      first.holds setting.answer node && second.holds setting.answer node) := by
  have within : (frontier.filter (first.holds setting.answer)).Inside region :=
    fun node member => inside node (List.mem_filter.mp member).1
  rw [← List.singleton_append, outcomeOf_append, outcomeOf_plain plain answers inside]
  refine (outcomeOf_plain plain' answers' within).trans (congrArg Except.ok ?_)
  apply Frontier.ext_nodes
  rw [Frontier.nodes_filter, Frontier.nodes_filter, List.filter_filter]
  simp only [Bool.and_comm]
  rfl

theorem outcomeOf_swapped :
    outcomeOf setting [second, first] frontier = outcomeOf setting [first, second] frontier := by
  rw [outcomeOf_filters setting plain plain' answers answers' inside,
    outcomeOf_filters setting plain' plain answers' answers inside]
  simp only [Bool.and_comm]

theorem outcomeOf_joined :
    outcomeOf setting [.conjunction first second] frontier =
      outcomeOf setting [first, second] frontier := by
  rw [outcomeOf_filters setting plain plain' answers answers' inside,
    outcomeOf_plain (plain.conjunction plain') (answers.conjunction answers') inside,
    Predicate.holds_conjunction]

/-- A filter behind a traversal that moves once may be drawn into its test. -/
theorem outcomeOf_drawn (closed : setting.host.StaysIn region) (once : axis.deepens = false) :
    outcomeOf setting [.traversal axis (.conjunction first second)] frontier =
      outcomeOf setting [.traversal axis first, second] frontier := by
  rw [outcomeOf_once closed once (plain.conjunction plain') (answers.conjunction answers') inside,
    ← List.singleton_append, outcomeOf_append, outcomeOf_once closed once plain answers inside]
  cases arrived : arrival setting axis frontier with
  | error fault => rfl
  | ok reached =>
      have within := inside_of_arrival closed inside arrived
      have filters := outcomeOf_filters setting plain plain' answers answers' within
      rw [← List.singleton_append, outcomeOf_append, outcomeOf_plain plain answers within]
        at filters
      refine Eq.trans ?_ filters.symm
      rw [Predicate.holds_conjunction]
      rfl

end Pairs

section Deepening

variable (accepts : setting.sink.Accepts) (grounded : Tree.Grounded setting.host.children region)
  (patient : region.ncard ≤ setting.patience)

include accepts grounded patient

/-- A search that deepens finds the first generation with a match. -/
theorem outcomeOf_descendants (plain : test.Plain) (answers : test.Answers setting.answer region)
    (inside : frontier.Inside region) :
    ∃ found, outcomeOf setting [.traversal .descendants test] frontier = .ok found ∧
      found.nodes = firstMatch (Axis.moved setting.host .descendants) (test.holds setting.answer)
        frontier.nodes := by
  have fit : (Path.search .descendants test).Fit setting.host setting.answer region :=
    Path.Fit.search_descendants grounded.confined plain.label answers
  obtain ⟨found, ends, consists⟩ := fit.refined accepts grounded patient frontier inside
  refine ⟨found, (run_takes accepts _ _).ends.unique ends, consists.1.trans ?_⟩
  change firstMatch _ _ (Frontier.keepFirst frontier.nodes) = _
  rw [Frontier.keepFirst_nodes]

theorem outcomeOf_postponed (closed : setting.host.StaysIn region) (plain : first.Plain)
    (plain' : second.Plain) (answers : first.Answers setting.answer region)
    (answers' : second.Answers setting.answer region) (inside : frontier.Inside region) :
    ∃ behind within,
      outcomeOf setting [.traversal .descendants first, second] frontier = .ok behind ∧
      outcomeOf setting [.traversal .descendants (.conjunction first second)] frontier =
        .ok within ∧
      Axis.Postpones setting.host (first.holds setting.answer) (second.holds setting.answer)
        frontier behind within := by
  obtain ⟨matched, ends, finds⟩ :=
    outcomeOf_descendants accepts grounded patient plain answers inside
  obtain ⟨within, ends', finds'⟩ := outcomeOf_descendants accepts grounded patient
    (plain.conjunction plain') (answers.conjunction answers') inside
  have reached : matched.Inside region := inside_of_outcomeOf accepts closed inside ends
  refine ⟨matched.filter (second.holds setting.answer), within, ?_, ends', ?_⟩
  · rw [← List.singleton_append, outcomeOf_append, ends]
    exact outcomeOf_plain plain' answers' reached
  · apply Axis.postpones
    · rw [Frontier.nodes_filter, finds]
    · rw [finds', Predicate.holds_conjunction]

end Deepening

end Evaluation

namespace Path

/-- Steps end, with trace output off, as they do in a setting whose sink takes every line. -/
theorem navigate_ofSteps_endsMuted (setting : Setting Node Leaf Failure)
    (steps : List (Predicate Leaf)) (start : List Node) :
    ((ofSteps steps).navigate setting start).EndsMuted
      (Evaluation.outcomeOf (setting.reporting .accepting) steps (.ofList start)) := by
  apply navigate_endsMuted rfl
  exact (Evaluation.run_takes (fun _ _ => rfl) _ _).ends

/-- Two lists of steps end alike from every start in a region, with trace output off. -/
def EndAlike (setting : Setting Node Leaf Failure) (region : Set Node)
    (one other : List (Predicate Leaf)) : Prop :=
  ∀ start : List Node, (∀ node ∈ start, node ∈ region) →
    ∃ outcome, ((ofSteps one).navigate setting start).EndsMuted outcome ∧
      ((ofSteps other).navigate setting start).EndsMuted outcome

/-- Behind other steps, and with trace output off, a search that deepens and a filter behind it end
as those steps do if they fail. So does the deeper search, which has the filter in its test. Else
the filter is postponed from what those steps find. -/
def Postpones (setting : Setting Node Leaf Failure) (region : Set Node)
    (before : List (Predicate Leaf)) (inner second deeper : Predicate Leaf) : Prop :=
  ∀ start : List Node, (∀ node ∈ start, node ∈ region) →
    ∃ reached, ((ofSteps before).navigate setting start).EndsMuted reached ∧
      match reached with
      | .error fault =>
          ((ofSteps (before ++ [.traversal .descendants inner, second])).navigate setting
            start).EndsMuted (.error fault) ∧
          ((ofSteps (before ++ [deeper])).navigate setting start).EndsMuted (.error fault)
      | .ok middle => ∃ behind within,
          ((ofSteps (before ++ [.traversal .descendants inner, second])).navigate setting
            start).EndsMuted (.ok behind) ∧
          ((ofSteps (before ++ [deeper])).navigate setting start).EndsMuted (.ok within) ∧
          Axis.Postpones setting.host (inner.holds setting.answer) (second.holds setting.answer)
            middle behind within

/-- Steps that end alike wherever they start end alike among any others. -/
theorem endAlike_among (closed : setting.host.StaysIn region)
    {one other : List (Predicate Leaf)}
    (same : ∀ middle : Frontier Node, middle.Inside region →
      Evaluation.outcomeOf (setting.reporting .accepting) one middle =
        Evaluation.outcomeOf (setting.reporting .accepting) other middle)
    (before after : List (Predicate Leaf)) :
    EndAlike setting region (before ++ one ++ after) (before ++ other ++ after) := by
  intro start inside
  have alike : Evaluation.outcomeOf (setting.reporting .accepting) (before ++ one ++ after)
        (.ofList start) =
      Evaluation.outcomeOf (setting.reporting .accepting) (before ++ other ++ after)
        (.ofList start) := by
    apply Evaluation.outcomeOf_congr
    · exact fun _ _ => rfl
    · exact closed
    · exact same
    · exact fun node member => inside node (Frontier.mem_of_mem_ofList member)
  refine ⟨_, navigate_ofSteps_endsMuted _ _ _, ?_⟩
  rw [alike]
  exact navigate_ofSteps_endsMuted _ _ _

/-- Behind any steps, a filter behind a search that deepens is postponed from its test. -/
theorem postpones (grounded : Tree.Grounded setting.host.children region)
    (patient : region.ncard ≤ setting.patience) (closed : setting.host.StaysIn region)
    {inner second : Predicate Leaf} (plain : inner.Plain) (plain' : second.Plain)
    (answers : inner.Answers setting.answer region)
    (answers' : second.Answers setting.answer region) (before : List (Predicate Leaf)) :
    Postpones setting region before inner second
      (.traversal .descendants (.conjunction inner second)) := by
  intro start inside
  refine ⟨_, navigate_ofSteps_endsMuted _ _ _, ?_⟩
  have goes : ∀ steps, ((ofSteps (before ++ steps)).navigate setting start).EndsMuted
      (Evaluation.outcomeOf (setting.reporting .accepting) before (.ofList start) >>=
        Evaluation.outcomeOf (setting.reporting .accepting) steps) := by
    intro steps
    rw [← Evaluation.outcomeOf_append]
    exact navigate_ofSteps_endsMuted _ _ _
  cases reached : Evaluation.outcomeOf (setting.reporting .accepting) before (.ofList start) with
  | error fault =>
      rw [reached] at goes
      exact ⟨goes _, goes _⟩
  | ok middle =>
      have accepts : (setting.reporting .accepting).sink.Accepts := fun _ _ => rfl
      have starts : (Frontier.ofList start).Inside region :=
        fun node member => inside node (Frontier.mem_of_mem_ofList member)
      have within : middle.Inside region :=
        Evaluation.inside_of_outcomeOf accepts closed starts reached
      obtain ⟨behind, fused, ends, ends', postpones⟩ := Evaluation.outcomeOf_postponed accepts
        grounded patient closed plain plain' answers answers' within
      rw [reached] at goes
      exact ⟨behind, fused, ends ▸ goes _, ends' ▸ goes _, postpones⟩

/-- **Steps may be fused.** In a finite region of a tree without circles that the host does not lead
out of, where plain tests have answers, two of them may change places among any other steps, and
may be joined to one. A test behind a traversal that moves once may be drawn into the traversal from
either side. A test behind a search that deepens either finds nothing or what the search with the
test drawn in finds, and nothing exactly if no generation has a match or if the test accepts none of
the matches of the first generation that has some. -/
theorem steps_fuse {axis : Axis} {first second inner : Predicate Leaf} (rules : ForeignRules Leaf)
    (grounded : Tree.Grounded setting.host.children region)
    (closed : setting.host.StaysIn region) (once : axis.deepens = false)
    (plain : ∀ test ∈ [first, second, inner], test.Plain ∧ test.Answers setting.answer region)
    (before after : List (Predicate Leaf)) :
    ∃ both drawn deeper,
      first.join rules .and second = .ok both ∧
      (Predicate.traversal axis inner).join rules .and second = .ok drawn ∧
      second.join rules .and (.traversal axis inner) = .ok drawn ∧
      (Predicate.traversal .descendants inner).join rules .and second = .ok deeper ∧
      EndAlike setting region (before ++ [first, second] ++ after)
        (before ++ [second, first] ++ after) ∧
      EndAlike setting region (before ++ [first, second] ++ after)
        (before ++ [both] ++ after) ∧
      EndAlike setting region (before ++ [.traversal axis inner, second] ++ after)
        (before ++ [drawn] ++ after) ∧
      ∃ enough, ∀ patience, enough ≤ patience →
        Postpones { setting with patience := patience } region before inner second deeper := by
  rw [List.forall_mem_cons, List.forall_mem_cons, List.forall_mem_singleton] at plain
  obtain ⟨⟨plainFirst, answersFirst⟩, ⟨plainSecond, answersSecond⟩, plainInner, answersInner⟩ :=
    plain
  refine ⟨_, _, _, Predicate.join_plain plainFirst plainSecond,
    Predicate.traversal_join axis plainInner plainSecond,
    Predicate.join_traversal axis plainSecond plainInner,
    Predicate.traversal_join .descendants plainInner plainSecond, ?_, ?_, ?_, region.ncard, ?_⟩
  · apply endAlike_among closed
    intro middle inside
    exact (Evaluation.outcomeOf_swapped (setting.reporting .accepting) plainFirst plainSecond
      answersFirst answersSecond inside).symm
  · apply endAlike_among closed
    intro middle inside
    exact (Evaluation.outcomeOf_joined (setting.reporting .accepting) plainFirst plainSecond
      answersFirst answersSecond inside).symm
  · apply endAlike_among closed
    intro middle inside
    exact (Evaluation.outcomeOf_drawn (setting.reporting .accepting) plainInner plainSecond
      answersInner answersSecond inside closed once).symm
  · intro patience enough
    apply postpones
    · exact grounded
    · exact enough
    · exact closed
    · exact plainInner
    · exact plainSecond
    · exact answersInner
    · exact answersSecond

end Path

end TreeQuery

namespace TreeQuery.Grove

/-- In the part of the grove, where the lowest node is not in the first generation below the top. -/
theorem part_steps_fuse :
    let rules : ForeignRules String := ⟨fun _ => none, fun _ => none, fun _ _ _ => none⟩
    let before : List (Predicate String) := [.traversal .allDescendants .any]
    let after : List (Predicate String) := [.traversal .parent .any]
    ∃ both drawn deeper,
      (named "x").join rules .and (named "z") = .ok both ∧
      (Predicate.traversal .children .any).join rules .and (named "z") = .ok drawn ∧
      (named "z").join rules .and (.traversal .children .any) = .ok drawn ∧
      (Predicate.traversal .descendants .any).join rules .and (named "z") = .ok deeper ∧
      Path.EndAlike setting part (before ++ [named "x", named "z"] ++ after)
        (before ++ [named "z", named "x"] ++ after) ∧
      Path.EndAlike setting part (before ++ [named "x", named "z"] ++ after)
        (before ++ [both] ++ after) ∧
      Path.EndAlike setting part (before ++ [.traversal .children .any, named "z"] ++ after)
        (before ++ [drawn] ++ after) ∧
      ∃ enough, ∀ patience, enough ≤ patience →
        Path.Postpones { setting with patience := patience } part before .any (named "z")
          deeper := by
  intro rules before after
  apply Path.steps_fuse
  · exact part_isTree.toGrounded
  · exact Host.staysIn_ofLinks (fun node inside => (part_isTree.confined node inside).2)
      (fun _ _ _ named => by cases named) 9
  · rfl
  · rw [List.forall_mem_cons, List.forall_mem_cons, List.forall_mem_singleton]
    exact ⟨⟨⟨rfl, _, rfl⟩, fun _ _ => ⟨_, rfl⟩⟩, ⟨⟨rfl, _, rfl⟩, fun _ _ => ⟨_, rfl⟩⟩,
      ⟨rfl, _, rfl⟩, fun _ _ => ⟨_, rfl⟩⟩

end TreeQuery.Grove
