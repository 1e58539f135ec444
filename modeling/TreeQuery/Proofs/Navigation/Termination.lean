import TreeQuery.Proofs.Navigation.Loops
import TreeQuery.Proofs.Navigation.Nearest
import TreeQuery.Proofs.Run.Finish
import TreeQuery.Proofs.Tree.Descent

/-! # Navigation comes to an end

In a finite tree without circles every navigation comes to an end, also where nodes hang on several
others, where different nodes have one key, and where tests and listings fail
(`TreeQuery.Path.navigate_terminates`). What falls from one move of a deepening search to the next
is the height of the nodes: every node that the search arrives at is a child of one that it came
from, whichever of them stand for others with their key.
-/

namespace TreeQuery

variable {Node Leaf Failure : Type} {setting : Setting Node Leaf Failure} {region : Set Node}

/-- Leaf tests that come to an end. -/
def Setting.Answering (setting : Setting Node Leaf Failure) : Prop :=
  ∀ leaf node, setting.answer leaf node ≠ .error .exhausted

namespace Predicate

/-- What a predicate answers depends on the answers of its leaves and on nothing else. -/
theorem test_congr {left right : Setting Node Leaf Failure} (same : left.answer = right.answer)
    (predicate : Predicate Leaf) : predicate.test left = predicate.test right := by
  funext node
  induction predicate with
  | any => rfl
  | function leaf label => rw [test, test, same]
  | custom leaf className => rw [test, test, same]
  | counting counter inner title? ih => rw [test, test, ih]
  | negation inner ih => rw [test, test, ih]
  | conjunction left right leftIH rightIH => rw [test, test, leftIH, rightIH]
  | disjunction left right leftIH rightIH => rw [test, test, leftIH, rightIH]
  | traversal axis inner ih => rw [test, test, ih]
  | foreign object => rw [test, test, same]

/-- What a predicate accepts depends on what its leaves answer, and on nothing else of the setting.
-/
theorem accepts_congr {left right : Setting Node Leaf Failure} (same : left.answer = right.answer)
    (predicate : Predicate Leaf) : predicate.accepts left = predicate.accepts right := by
  funext node
  rw [accepts, accepts, test_congr same]

/-- Changing a value is no giving up. -/
theorem map_ne_exhausted {α β : Type} {outcome : Except (Fault Failure) α} (change : α → β)
    (other : outcome ≠ .error .exhausted) : change <$> outcome ≠ .error .exhausted := by
  cases outcome with
  | ok value => exact fun same => by cases same
  | error fault => exact fun same => other (by cases same; rfl)

/-- A verdict is reached or a leaf fails. -/
theorem verdict_ne_exhausted (answering : setting.Answering) (predicate : Predicate Leaf)
    (node : Node) : predicate.verdict setting.answer node ≠ .error .exhausted := by
  induction predicate with
  | any => exact fun same => by cases same
  | function leaf label => exact map_ne_exhausted _ (answering leaf node)
  | custom leaf className => exact answering leaf node
  | counting counter inner title? ih => exact ih
  | negation inner ih => exact map_ne_exhausted _ ih
  | conjunction left right leftIH rightIH =>
      rw [verdict]
      cases given : left.verdict setting.answer node with
      | error fault =>
          rw [given] at leftIH
          exact fun same => leftIH (by cases same; rfl)
      | ok value =>
          change (if value.truthy then _ else _) ≠ _
          split
          · exact map_ne_exhausted _ rightIH
          · exact fun same => by cases same
  | disjunction left right leftIH rightIH =>
      rw [verdict]
      cases given : left.verdict setting.answer node with
      | error fault =>
          rw [given] at leftIH
          exact fun same => leftIH (by cases same; rfl)
      | ok value =>
          change (if value.truthy then _ else _) ≠ _
          split
          · exact fun same => by cases same
          · exact map_ne_exhausted _ rightIH
  | traversal axis inner ih => exact ih
  | foreign object => exact answering object node

/-- A test finishes. -/
theorem accepts_finishes (answering : setting.Answering) (predicate : Predicate Leaf)
    (node : Node) : (predicate.accepts setting node).Finishes fun _ => True :=
  .of_ends ((predicate.test_ends node).map Value.truthy)
    (map_ne_exhausted _ (predicate.verdict_ne_exhausted answering node)) fun _ _ => trivial

end Predicate

/-- A question to the host finishes where listings come to an end. -/
theorem Setting.ask_finishes {relation : Relation}
    (halting : Tree.Halting (setting.host.related relation) region) {node : Node}
    (inside : node ∈ region) :
    (setting.ask relation node).Finishes (· = (setting.host.related relation node).nodes) := by
  have ends := (halting node inside).1
  rw [ask, Listing.toExcept]
  refine (Run.Finishes.note _).bind fun _ _ => .of_ends (.liftExcept _) ?_ ?_
  · cases fault : (setting.host.related relation node).fault? with
    | none => exact fun same => by cases same
    | some fault' => exact fun same => ends (by cases same; exact fault)
  · cases (setting.host.related relation node).fault? with
    | none =>
        intro value same
        cases same
        rfl
    | some fault => exact fun value same => by cases same

variable [Keyed Node]

namespace Frontier

/-- A filter finishes if the tests do, on nodes that were there. -/
theorem filterRun_finishes {accepts : Node → Run Node Leaf Failure Bool}
    (decides : ∀ node, (accepts node).Finishes fun _ => True) (frontier : Frontier Node) :
    (frontier.filterRun accepts).Finishes fun found => ∀ node ∈ found.nodes,
      node ∈ frontier.nodes := by
  rw [filterRun]
  refine (Run.Finishes.mapM fun node _ => decides node).bind fun verdicts _ => .pure ?_
  intro node member
  exact (accepted_sublist frontier.nodes verdicts).subset member

/-- What is gathered was found from some node of the frontier. -/
theorem gather_finishes {relocate : Node → Run Node Leaf Failure (List Node)}
    {reached : Node → List Node} {frontier : Frontier Node}
    (finds : ∀ node ∈ frontier.nodes, (relocate node).Finishes (· = reached node)) :
    (frontier.gather relocate).Finishes fun arrived => ∀ below ∈ arrived.nodes,
      ∃ above ∈ frontier.nodes, below ∈ reached above := by
  have traced : ∀ node ∈ frontier.nodes, (relocate node).Finishes fun listed =>
      ∃ above ∈ frontier.nodes, listed = reached above :=
    fun node member => (finds node member).mono fun listed same => ⟨node, member, same⟩
  rw [gather]
  refine (Run.Finishes.mapM traced).bind fun lists known => .pure ?_
  intro below member
  rw [nodes_ofList_eq_keepFirst] at member
  obtain ⟨listed, present, among⟩ := List.mem_flatten.mp (mem_of_mem_keepFirst member)
  obtain ⟨above, first, rfl⟩ := known listed present
  exact ⟨above, first, among⟩

/-- Nodes all of which are in a region. -/
def Inside (region : Set Node) (frontier : Frontier Node) : Prop :=
  ∀ node ∈ frontier.nodes, node ∈ region

theorem inside_empty : (∅ : Frontier Node).Inside region :=
  fun _ member => absurd member List.not_mem_nil

/-- Nodes of the region may be added. -/
theorem Inside.insertAll {frontier : Frontier Node} (inside : frontier.Inside region)
    {nodes : List Node} (others : ∀ node ∈ nodes, node ∈ region) :
    (frontier.insertAll nodes).Inside region := by
  intro node member
  rw [nodes_insertAll_eq_keepFirst] at member
  rcases List.mem_append.mp (mem_of_mem_keepFirst member) with old | new
  · exact inside node old
  · exact others node new

/-- What is left after a removal lies in the region. -/
theorem Inside.removeAll {frontier : Frontier Node} (inside : frontier.Inside region)
    (nodes : List Node) : (frontier.removeAll nodes).Inside region :=
  fun node member => inside node (List.mem_filter.mp member).1

/-- Nodes below which no way down is longer than the height. -/
def Low (children : Node → Listing Node Failure) (height : Nat) (frontier : Frontier Node) : Prop :=
  ∀ node ∈ frontier.nodes, ∀ depth below, Tree.Descends children node depth below → depth ≤ height

section Deepening

variable {children : Node → Listing Node Failure}
  {relocate : Frontier Node → Run Node Leaf Failure (Frontier Node)} {again : Bool}
  {accepts : Node → Run Node Leaf Failure Bool} {frontier : Frontier Node}

/-- One move is enough for a search that does not move on. -/
theorem deepen_once_finishes
    (relocates : (relocate frontier).Finishes (Inside region))
    (decides : ∀ node, (accepts node).Finishes fun _ => True) {moves : Nat} (enough : 0 < moves) :
    (deepen relocate false accepts moves frontier).Finishes (Inside region) := by
  obtain ⟨fewer, rfl⟩ := Nat.exists_eq_add_one_of_ne_zero enough.ne'
  rw [deepen]
  refine relocates.bind fun arrived within => ?_
  split
  · exact .pure inside_empty
  · refine (arrived.filterRun_finishes decides).bind fun candidates kept => ?_
    rw [Bool.and_false, if_neg Bool.false_ne_true]
    exact .pure fun node member => within node (kept node member)

/-- One move more than the height is enough for a search down. -/
theorem deepen_finishes
    (relocates : ∀ frontier : Frontier Node, frontier.Inside region →
      (relocate frontier).Finishes fun arrived => arrived.Inside region ∧
        ∀ below ∈ arrived.nodes, ∃ above ∈ frontier.nodes, Tree.IsAbove children above below)
    (decides : ∀ node, (accepts node).Finishes fun _ => True) (inside : frontier.Inside region)
    {height : Nat} (low : frontier.Low children height) {moves : Nat} (enough : height < moves) :
    (deepen relocate again accepts moves frontier).Finishes (Inside region) := by
  induction moves generalizing frontier height with
  | zero => exact absurd enough (Nat.not_lt_zero height)
  | succ moves ih =>
      rw [deepen]
      refine (relocates frontier inside).bind fun arrived moved => ?_
      obtain ⟨within, listed⟩ := moved
      split
      · exact .pure inside_empty
      · next some =>
          refine (arrived.filterRun_finishes decides).bind fun candidates kept => ?_
          split
          · -- Whatever the search arrived at is a child, so the height falls.
            have lower : ∀ below ∈ arrived.nodes, ∀ depth other,
                Tree.Descends children below depth other → depth + 1 ≤ height := by
              intro below member depth other descends
              obtain ⟨above, first, child⟩ := listed below member
              exact low above first _ other (descends.of_child child)
            obtain ⟨one, member⟩ : ∃ node, node ∈ arrived.nodes :=
              List.exists_mem_of_ne_nil _ fun none => some (isEmpty_eq_true_iff.mpr none)
            have positive := lower one member 0 one .here
            have falls : arrived.Low children (height - 1) := by
              intro below member depth other descends
              have shorter := lower below member depth other descends
              omega
            exact ih within falls (by omega)
          · exact .pure fun node member => within node (kept node member)

/-- A search that is not given up goes the same way when it may move on more often. -/
theorem perform_deepen_of_le {moves : Nat} {before : Journal Node Leaf}
    (ended : ((deepen relocate again accepts moves frontier).perform before).1 ≠
      .error .exhausted) {more : Nat} (least : moves ≤ more) :
    (deepen relocate again accepts more frontier).perform before =
      (deepen relocate again accepts moves frontier).perform before := by
  induction moves generalizing frontier before more with
  | zero => exact absurd rfl ended
  | succ moves ih =>
      obtain ⟨others, rfl⟩ := Nat.exists_eq_add_of_le' (Nat.le_of_add_left_le least)
      rw [deepen, Run.perform_bind] at ended
      rw [deepen, deepen, Run.perform_bind, Run.perform_bind]
      generalize (relocate frontier).perform before = reached at ended ⊢
      obtain ⟨_ | arrived, middle⟩ := reached
      · rfl
      · dsimp only at ended ⊢
        split
        · rfl
        · next some =>
            rw [if_neg some, Run.perform_bind] at ended
            rw [Run.perform_bind, Run.perform_bind]
            generalize (arrived.filterRun accepts).perform middle = filtered at ended ⊢
            obtain ⟨_ | candidates, last⟩ := filtered
            · rfl
            · dsimp only at ended ⊢
              split
              · next repeats =>
                  rw [if_pos repeats] at ended
                  exact ih ended (Nat.le_of_succ_le_succ least)
              · rfl

end Deepening

end Frontier

/-- Relocation leads to nodes that the axis reaches from the nodes it starts from. -/
theorem Axis.relocate_finishes {axis : Axis}
    (halting : ∀ relation ∈ axis.relations, Tree.Halting (setting.host.related relation) region)
    {frontier : Frontier Node} (inside : frontier.Inside region) :
    (axis.relocate setting frontier).Finishes fun arrived => arrived.Inside region ∧
      ∀ below ∈ arrived.nodes, ∃ above ∈ frontier.nodes,
        below ∈ axis.reached setting.host above := by
  have gathers : ∀ find : Node → Run Node Leaf Failure (List Node),
      (∀ node ∈ region, (find node).Finishes (· = axis.reached setting.host node)) →
      (frontier.gather find).Finishes fun arrived => arrived.Inside region ∧
        ∀ below ∈ arrived.nodes, ∃ above ∈ frontier.nodes,
          below ∈ axis.reached setting.host above := by
    intro find finds
    apply (Frontier.gather_finishes fun node member => finds node (inside node member)).mono
    refine fun arrived listed => ⟨fun below member => ?_, listed⟩
    obtain ⟨above, present, among⟩ := listed below member
    obtain ⟨relation, asked, related⟩ := List.mem_flatMap.mp among
    exact (halting relation asked above (inside above present)).2 below related
  have one : ∀ relation, axis.relations = [relation] → ∀ node ∈ region,
      (setting.ask relation node).Finishes (· = axis.reached setting.host node) := by
    intro relation only node within
    rw [reached, only, List.flatMap_singleton]
    exact Setting.ask_finishes (halting relation (only ▸ List.mem_singleton_self relation)) within
  cases axis with
  | neighbours =>
      apply gathers
      intro node within
      have down := halting .children List.mem_cons_self
      have up := halting .parent (List.mem_cons_of_mem _ List.mem_cons_self)
      refine (Setting.ask_finishes down within).bind fun children below => ?_
      refine (Setting.ask_finishes up within).bind fun parent above => .pure ?_
      rw [below, above, reached, relations, List.flatMap_cons, List.flatMap_singleton]
  | children | descendants => exact gathers _ (one .children rfl)
  | allDescendants => exact gathers _ (one .descendants rfl)
  | siblings => exact gathers _ (one .siblings rfl)
  | parent | ancestors => exact gathers _ (one .parent rfl)

namespace Predicate

/-- A search down comes to an end when it may move once more than the height of the nodes it starts
from. -/
theorem step_descendants_finishes (answering : setting.Answering)
    (halting : Tree.Halting setting.host.children region) (test : Predicate Leaf)
    {frontier : Frontier Node} (inside : frontier.Inside region) {height : Nat}
    (low : frontier.Low setting.host.children height) (patient : height < setting.patience) :
    ((traversal .descendants test).step setting frontier).Finishes (Frontier.Inside region) := by
  refine Frontier.deepen_finishes (fun frontier within => ?_) (test.accepts_finishes answering)
    inside low patient
  have below : ∀ relation ∈ Axis.descendants.relations,
      Tree.Halting (setting.host.related relation) region := by
    rw [Axis.relations, List.forall_mem_singleton]
    exact halting
  refine (Axis.relocate_finishes below within).mono fun arrived moved => ⟨moved.1, ?_⟩
  intro below member
  obtain ⟨above, present, reached⟩ := moved.2 below member
  rw [Axis.reached_descendants] at reached
  exact ⟨above, present, reached⟩

/-- In an enclosed region every step comes to an end that does not search up. -/
theorem step_finishes (answering : setting.Answering)
    (enclosed : Tree.Enclosed setting.host.children region)
    (halting : ∀ relation, Tree.Halting (setting.host.related relation) region)
    (patient : region.ncard < setting.patience) {step : Predicate Leaf}
    (down : step.axis? ≠ some .ancestors) {frontier : Frontier Node}
    (inside : frontier.Inside region) :
    (step.step setting frontier).Finishes (Frontier.Inside region) := by
  have filters : ∀ test : Predicate Leaf,
      (frontier.filterRun (test.accepts setting)).Finishes (Frontier.Inside region) := by
    intro test
    apply (frontier.filterRun_finishes (test.accepts_finishes answering)).mono
    exact fun found kept node member => inside node (kept node member)
  have moves : ∀ (axis : Axis) (test : Predicate Leaf), (frontier.deepen (axis.relocate setting)
      false (test.accepts setting) setting.patience).Finishes (Frontier.Inside region) := by
    intro axis test
    have relocates : (axis.relocate setting frontier).Finishes (Frontier.Inside region) := by
      apply (Axis.relocate_finishes (fun relation _ => halting relation) inside).mono
      exact fun arrived moved => moved.1
    exact Frontier.deepen_once_finishes relocates (test.accepts_finishes answering)
      (Nat.zero_lt_of_lt patient)
  cases step with
  | traversal axis test =>
      cases axis with
      | ancestors => exact absurd rfl down
      | descendants =>
          have low : frontier.Low setting.host.children region.ncard := by
            intro node member depth below descends
            exact (enclosed.depth_lt_ncard (inside node member) descends).le
          exact step_descendants_finishes answering enclosed.halting test inside low patient
      | children | allDescendants | parent | siblings | neighbours => exact moves _ test
  | any | function | custom | counting | negation | conjunction | disjunction | foreign =>
      exact filters _

end Predicate

omit [Keyed Node] in
/-- A label is had or there is none. -/
theorem Setting.labelOf_finishes (setting : Setting Node Leaf Failure) (step : Predicate Leaf) :
    (setting.labelOf step).Finishes fun _ => True := by
  rw [labelOf]
  split
  · exact .pure trivial
  · exact .throw fun same => by cases same

namespace Program

/-- A step of a simple path comes to an end if its predicate does, also when it is missing. -/
theorem stepPart_finishes (setting : Setting Node Leaf Failure) {step? : Option (Predicate Leaf)}
    {frontier : Frontier Node}
    (finishes : ∀ step, step? = some step →
      (step.step setting frontier).Finishes (Frontier.Inside region)) (index : Nat) (last : Bool) :
    (stepPart setting index last step? frontier).Finishes (Frontier.Inside region) := by
  cases step? with
  | none => exact .throw fun same => by cases same
  | some step =>
      rw [stepPart]
      refine (finishes step rfl).bind fun found inside => ?_
      refine (setting.labelOf_finishes step).bind fun label _ => ?_
      refine (Run.Finishes.send setting.sink _).bind fun _ _ => ?_
      have found_finishes : (pure found : Run Node Leaf Failure (Frontier Node)).Finishes
          (Frontier.Inside region) := .pure inside
      split
      · exact (Run.Finishes.send setting.sink _).bind fun _ _ => found_finishes
      · exact found_finishes

/-- An alternative of a union finishes if its path does. -/
theorem adding_finishes {program : Program Node Leaf Failure} {start found : Frontier Node}
    (finishes : (program start).Finishes (Frontier.Inside region))
    (inside : found.Inside region) :
    (adding start program found).Finishes (Frontier.Inside region) :=
  finishes.bind fun _ others => .pure (inside.insertAll others)

/-- A withdrawal finishes if its path does, between its lines. -/
theorem withdrawing_finishes {program : Program Node Leaf Failure} {start found : Frontier Node}
    (finishes : (program start).Finishes (Frontier.Inside region)) (sink : Sink Failure)
    (inside : found.Inside region) :
    (withdrawing sink start program found).Finishes (Frontier.Inside region) := by
  have excluded : (Run.excluding sink (program start)).Finishes (Frontier.Inside region) := by
    rw [Run.excluding]
    refine (Run.Finishes.send sink _).bind fun _ _ => finishes.bind fun result within => ?_
    exact (Run.Finishes.send sink _).bind fun _ _ => .pure within
  exact excluded.bind fun result _ => .pure (inside.removeAll result.nodes)

end Program

namespace Path

/-- A path all of whose steps are of one kind. Steps may be missing, and a stray may stand in the
place of a path. -/
inductive Over (allowed : Predicate Leaf → Prop) : Path Leaf → Prop where
  | simple {steps : List (Option (Predicate Leaf))} :
      (∀ step, some step ∈ steps → allowed step) → Over allowed (.simple steps)
  | union {delegates : List (Path Leaf)} :
      (∀ delegate ∈ delegates, Over allowed delegate) → Over allowed (.union delegates)
  | exclusion {base : Path Leaf} {excluded : List (Path Leaf)} :
      Over allowed base → (∀ path ∈ excluded, Over allowed path) →
        Over allowed (.exclusion base excluded)
  | chain {links : List (Path Leaf)} :
      (∀ link ∈ links, Over allowed link) → Over allowed (.chain links)
  | traced {body : Path Leaf} (title : String) :
      Over allowed body → Over allowed (.traced title body)
  | stray (operand? : Option (Predicate Leaf)) : Over allowed (.stray operand?)

/-- A path comes to an end if each of its steps does from wherever it starts. -/
theorem run_finishes {allowed : Predicate Leaf → Prop}
    (finishes : ∀ step, allowed step → ∀ frontier : Frontier Node, frontier.Inside region →
      (step.step setting frontier).Finishes (Frontier.Inside region))
    {path : Path Leaf} (uses : path.Over allowed) {start : Frontier Node}
    (inside : start.Inside region) :
    (path.run setting start).Finishes (Frontier.Inside region) := by
  induction path using induct generalizing start with
  | simple steps =>
      cases uses with
      | simple each =>
          rw [run, Program.simple_eq_sequence]
          refine .sequence (fun part member frontier within => ?_) inside
          obtain ⟨step?, among, index, last, rfl⟩ := Program.mem_stepParts member
          refine Program.stepPart_finishes setting (fun step same => ?_) index last
          exact finishes step (each step (same ▸ among)) frontier within
  | union delegates ih =>
      cases uses with
      | union each =>
          rw [run, Program.union_eq_sequence, runs_eq_map, List.map_map]
          refine .sequence (fun part member found within => ?_) Frontier.inside_empty
          obtain ⟨delegate, among, rfl⟩ := List.mem_map.mp member
          exact Program.adding_finishes (ih delegate among (each delegate among) inside) within
  | exclusion base excluded baseIH excludedIH =>
      cases uses with
      | exclusion first each =>
          rw [run, Program.exclusion_eq_sequence, runs_eq_map, List.map_map]
          refine .sequence (fun part member found within => ?_) inside
          rcases List.mem_cons.mp member with rfl | later
          · exact baseIH first within
          · obtain ⟨path, among, rfl⟩ := List.mem_map.mp later
            have taken := excludedIH path among (each path among) inside
            exact Program.withdrawing_finishes taken setting.sink within
  | chain links ih =>
      cases uses with
      | chain each =>
          rw [run, Program.chain_eq_sequence, runs_eq_map]
          refine .sequence (fun part member found within => ?_) inside
          obtain ⟨link, among, rfl⟩ := List.mem_map.mp member
          exact ih link among (each link among) within
  | traced title body ih =>
      cases uses with
      | traced _ inner => exact (ih inner inside).traced setting.sink title
  | stray operand? => exact .throw fun same => by cases same

/-- **Navigation terminates.** In an enclosed region, where nodes may hang on several others and
have each other's keys, and where tests and listings may fail, there is a patience with which no
navigation is given up that does not search upwards, whichever its path and its start. A search
down moves at most once more than the greatest height of the nodes that it starts from: with that
many moves it is not given up, and with more it does the same. -/
theorem navigate_terminates (setting : Setting Node Leaf Failure)
    {children : Node → Listing Node Failure} (enclosed : Tree.Enclosed children region)
    {parent : Node → Except (Fault Failure) (Option Node)}
    (upward : Tree.Halting ((Host.ofLinks 0 children parent).related .parent) region)
    (answering : setting.Answering) :
    (∃ enough, ∀ patience, enough ≤ patience → ∀ path : Path Leaf,
      path.Over (fun step => step.axis? ≠ some .ancestors) →
      ∀ start : List Node, (∀ node ∈ start, node ∈ region) → ∀ before,
        ((path.navigate (setting.linked patience children parent) start).perform before).1 ≠
          .error .exhausted) ∧
    ∀ (test : Predicate Leaf) (frontier : Frontier Node), frontier.Inside region →
      ∀ height, frontier.Low children height → ∀ patience, height < patience → ∀ before,
        let search moves := ((Predicate.traversal .descendants test).step
          (setting.linked moves children parent) frontier).perform before
        (search (height + 1)).1 ≠ .error .exhausted ∧ search patience = search (height + 1) := by
  have answers : ∀ patience, (setting.linked patience children parent).Answering :=
    fun _ => answering
  constructor
  · obtain ⟨enough, halting⟩ :=
      Filter.eventually_atTop.mp (enclosed.eventually_halting_related upward)
    refine ⟨max enough (region.ncard + 1), fun patience patient path uses start inside => ?_⟩
    have lists := halting patience ((le_max_left _ _).trans patient)
    have many : region.ncard < patience := (le_max_right _ _).trans patient
    have within : (Frontier.ofList start).Inside region := by
      intro node member
      rw [Frontier.nodes_ofList_eq_keepFirst] at member
      exact inside node (Frontier.mem_of_mem_keepFirst member)
    refine Run.Finishes.ne_exhausted (run_finishes (fun step down frontier => ?_) uses within)
    exact step.step_finishes (answers patience) enclosed lists many down
  · intro test frontier inside height low patience patient before search
    have ended : (search (height + 1)).1 ≠ .error .exhausted := by
      apply Run.Finishes.ne_exhausted
      exact Predicate.step_descendants_finishes (answers _) enclosed.halting test inside low
        (Nat.lt_add_one height)
    have answer : (setting.linked patience children parent).answer =
        (setting.linked (height + 1) children parent).answer := rfl
    refine ⟨ended, ?_⟩
    change (Frontier.deepen _ _ (test.accepts (setting.linked patience children parent)) _
      _).perform before = _
    rw [test.accepts_congr answer]
    exact Frontier.perform_deepen_of_le ended patient

end Path

end TreeQuery

namespace TreeQuery.Grove

/-- Ranks bound the length of every way down. -/
theorem depth_le_rank {above below : Value} {depth : Nat}
    (descends : Tree.Descends children above depth below) : depth + rank below ≤ rank above := by
  induction descends with
  | here => exact (Nat.zero_add _).le
  | child _ listed ih =>
      have falls := rank_lt _ _ listed
      omega

/-- In the grove, for what is nowhere below its top. -/
theorem search_terminates :
    (∃ enough, ∀ patience, enough ≤ patience → ∀ before,
      (((Path.search .descendants (named "q")).navigate
        (setting.linked patience children fun _ => .ok none) [spot 0 "r"]).perform before).1 ≠
          .error .exhausted) ∧
    ∀ before, let search moves := ((Predicate.traversal .descendants (named "q")).step
        (setting.linked moves children fun _ => .ok none)
        (.ofList [spot 0 "r"])).perform before
      (search (3 + 1)).1 ≠ .error .exhausted ∧ search 9 = search (3 + 1) := by
  have upward : Tree.Halting
      ((Host.ofLinks 0 children fun _ => .ok none).related .parent) region := by
    intro node _
    exact ⟨(Option.some_ne_none _).symm, fun _ member => absurd member List.not_mem_nil⟩
  have answering : setting.Answering := fun _ _ same => by cases same
  have top : ∀ node ∈ [spot 0 "r"], node ∈ region := by
    rw [List.forall_mem_singleton]
    exact Or.inl rfl
  obtain ⟨⟨enough, ends⟩, moves⟩ :=
    Path.navigate_terminates setting grounded.enclosed upward answering
  constructor
  · refine ⟨enough, fun patience patient => ends patience patient _ (.simple ?_) _ top⟩
    intro step member
    cases List.mem_singleton.mp member
    exact fun same => by cases same
  · refine moves (named "q") (.ofList [spot 0 "r"]) top 3 ?_ 9 (by decide)
    intro node member depth below descends
    cases List.mem_singleton.mp member
    have bound := depth_le_rank descends
    have height : rank (spot 0 "r") = 3 := rfl
    omega

end TreeQuery.Grove
