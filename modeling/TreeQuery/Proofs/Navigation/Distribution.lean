import TreeQuery.Proofs.Navigation.Laws
import TreeQuery.Proofs.Navigation.Refinement

/-! # Paths that distribute over their starts

A step that does not deepen looks at each node by itself. Where no two nodes have one key, a path of
such steps, or a chain of such paths, finds from a list of nodes what it finds from each of them,
put together in order (`TreeQuery.Path.Stepwise.gathers`). So it may be run on the parts of a start
one after the other, and it may be drawn into the delegates of a union before it
(`TreeQuery.Path.navigate_distributes`). Deepening does not distribute, since it stops at the first
depth with a match, and neither does exclusion.
-/

namespace TreeQuery

open Frontier (keepFirst)

variable {Node Leaf Failure : Type} {setting : Setting Node Leaf Failure} {region : Set Node}

/-- A step that moves once, if at all. -/
def Predicate.Direct (step : Predicate Leaf) : Prop :=
  ∀ axis, step.axis? = some axis → axis.deepens = false

/-- A simple path of direct steps none of which is missing, or a chain of such paths. -/
inductive Path.Stepwise : Path Leaf → Prop where
  | simple {steps : List (Option (Predicate Leaf))} :
      (∀ step? ∈ steps, ∃ step, step? = some step ∧ step.Direct) → Stepwise (.simple steps)
  | chain {links : List (Path Leaf)} :
      (∀ link ∈ links, Stepwise link) → Stepwise (.chain links)
  | traced {body : Path Leaf} (title : String) : Stepwise body → Stepwise (.traced title body)

namespace Frontier

variable [Keyed Node]

/-- Finding that gathers in order what is reached from each node, and stays within the region. -/
structure Gathers (region : Set Node) (reached : Node → List Node)
    (find : List Node → List Node) : Prop where
  stays : ∀ node ∈ region, ∀ other ∈ reached node, other ∈ region
  gathers : ∀ nodes : List Node, (∀ node ∈ nodes, node ∈ region) →
    find (keepFirst nodes) = keepFirst (nodes.flatMap reached)

namespace Gathers

variable {reached next : Node → List Node} {find search : List Node → List Node}

theorem refl : Gathers region (fun node => [node]) id where
  stays _ inside _ member := List.mem_singleton.mp member ▸ inside
  gathers nodes _ := by rw [List.flatMap_singleton', id]

/-- Repeated keys that are dropped between two findings do not count. -/
theorem andThen (first : Gathers region reached find) (second : Gathers region next search) :
    Gathers region (fun node => (reached node).flatMap next) fun nodes => search (find nodes) where
  stays node inside other member := by
    obtain ⟨middle, here, there⟩ := List.mem_flatMap.mp member
    exact second.stays middle (first.stays node inside middle here) other there
  gathers nodes inside := by
    rw [first.gathers nodes inside, second.gathers, List.flatMap_assoc]
    intro other member
    obtain ⟨node, present, found⟩ := List.mem_flatMap.mp member
    exact first.stays node (inside node present) other found

/-- A fold of findings each of which gathers does so too. -/
theorem foldl {Part : Type} {parts : List Part} {findBy : List Node → Part → List Node}
    (each : ∀ part ∈ parts, ∃ reached, Gathers region reached fun nodes => findBy nodes part) :
    ∃ reached, Gathers region reached fun nodes => parts.foldl findBy nodes := by
  induction parts with
  | nil => exact ⟨_, refl⟩
  | cons part rest ih =>
      obtain ⟨reached, first⟩ := each part List.mem_cons_self
      obtain ⟨next, later⟩ := ih fun other member => each other (List.mem_cons_of_mem _ member)
      exact ⟨_, first.andThen later⟩

/-- A test that is made of each node gathers the accepted nodes. -/
theorem filter (unique : Set.InjOn Keyed.key region) (accepts : Node → Bool) :
    Gathers region (fun node => if accepts node then [node] else [])
      fun nodes => nodes.filter accepts where
  stays node inside other member := by
    split at member
    · exact List.mem_singleton.mp member ▸ inside
    · exact absurd member List.not_mem_nil
  gathers nodes inside := by
    have chosen : ∀ list : List Node,
        (list.flatMap fun node => if accepts node then [node] else []) = list.filter accepts := by
      intro list
      induction list with
      | nil => rfl
      | cons node rest ih =>
          rw [List.flatMap_cons, ih, List.filter_cons]
          split <;> rfl
    rw [chosen]
    apply filter_keepFirst
    intro left first right second same
    rw [unique (inside left first) (inside right second) same]

/-- What is found from each node by itself makes up what is found from all. -/
theorem eq_flatMap (gathers : Gathers region reached find)
    (unrepeated : ∀ nodes, find (keepFirst nodes) = find nodes) {nodes : List Node}
    (inside : ∀ node ∈ nodes, node ∈ region) :
    find nodes = keepFirst (nodes.flatMap fun node => find [node]) := by
  rw [← unrepeated, gathers.gathers nodes inside]
  have single : ∀ node ∈ nodes, find [node] = keepFirst (reached node) := by
    intro node member
    rw [← unrepeated, gathers.gathers [node] (List.forall_mem_singleton.mpr (inside node member)),
      List.flatMap_singleton]
  rw [List.flatMap_congr single]
  clear inside single
  induction nodes with
  | nil => rfl
  | cons node rest ih =>
      rw [List.flatMap_cons, List.flatMap_cons, keepFirst_keepFirst_append,
        ← keepFirst_append_keepFirst, ih, keepFirst_append_keepFirst]

end Gathers

end Frontier

open Frontier (Gathers)

variable [Keyed Node] {path : Path Leaf} (unique : Set.InjOn Keyed.key region)

include unique

/-- One move gathers what the axis leads to. -/
theorem Axis.moved_gathers {host : Host Node Failure} {axis : Axis}
    (confined : ∀ relation ∈ axis.relations, Tree.Confined (host.related relation) region) :
    Gathers region (axis.reached host) (axis.moved host) where
  stays _ inside _ reached := reached_mem_region confined inside reached
  gathers nodes inside := by
    apply Frontier.keepFirst_flatMap_keepFirst
    intro left first right second same
    rw [unique (inside left first) (inside right second) same]

theorem Predicate.Direct.gathers {host : Host Node Failure}
    {answer : Leaf → Node → Except (Fault Failure) Value} {step : Predicate Leaf}
    (direct : step.Direct) (fit : step.Fit host answer region) :
    ∃ reached, Gathers region reached (step.selected host answer) := by
  cases step with
  | traversal axis inner =>
      have selects : (Predicate.traversal axis inner).selected host answer =
          fun nodes => (axis.moved host nodes).filter (inner.holds answer) := by
        funext nodes
        rw [selected, direct axis rfl, if_neg Bool.false_ne_true]
      rw [selects]
      exact ⟨_, (Axis.moved_gathers unique fit.confined).andThen (.filter unique _)⟩
  | _ => exact ⟨_, .filter unique _⟩

namespace Path

/-- A stepwise path gathers what it finds from each node. -/
theorem Stepwise.gathers {host : Host Node Failure}
    {answer : Leaf → Node → Except (Fault Failure) Value} (stepwise : path.Stepwise)
    (fit : path.Fit host answer region) :
    ∃ reached, Gathers region reached (path.meaning host answer) := by
  induction stepwise with
  | @simple steps direct =>
      cases fit with
      | simple fits =>
          have each : ∀ step? ∈ steps, ∃ reached, Gathers region reached fun nodes =>
              step?.elim [] fun step => step.selected host answer nodes := by
            intro step? member
            obtain ⟨step, rfl, once⟩ := direct step? member
            obtain ⟨_, same, able⟩ := fits _ member
            cases same
            exact once.gathers unique able
          obtain ⟨reached, found⟩ := Gathers.foldl each
          refine ⟨reached, found.stays, fun nodes inside => ?_⟩
          rw [meaning, Frontier.keepFirst_keepFirst]
          exact found.gathers nodes inside
  | chain _ ih =>
      cases fit with
      | chain fits =>
          obtain ⟨reached, found⟩ :=
            Gathers.foldl fun link member => ih link member (fits link member)
          refine ⟨reached, found.stays, fun nodes inside => ?_⟩
          rw [meaning, meanings_eq_map, List.foldl_map, Frontier.keepFirst_keepFirst]
          exact found.gathers nodes inside
  | traced title _ ih =>
      cases fit with
      | traced _ inner =>
          obtain ⟨reached, found⟩ := ih inner
          refine ⟨reached, found.stays, fun nodes inside => ?_⟩
          rw [meaning]
          exact found.gathers nodes inside

/-- A stepwise path finds from a list of nodes what it finds from each of them, in order. -/
theorem Stepwise.meaning_eq_flatMap {host : Host Node Failure}
    {answer : Leaf → Node → Except (Fault Failure) Value} (stepwise : path.Stepwise)
    (fit : path.Fit host answer region) {nodes : List Node}
    (inside : ∀ node ∈ nodes, node ∈ region) :
    path.meaning host answer nodes =
      keepFirst (nodes.flatMap fun node => path.meaning host answer [node]) := by
  obtain ⟨reached, gathers⟩ := stepwise.gathers unique fit
  exact gathers.eq_flatMap (path.meaning_keepFirst host answer) inside

theorem Stepwise.meaning_append {host : Host Node Failure}
    {answer : Leaf → Node → Except (Fault Failure) Value} (stepwise : path.Stepwise)
    (fit : path.Fit host answer region) {front back : List Node}
    (inside : ∀ node ∈ front ++ back, node ∈ region) :
    path.meaning host answer (front ++ back) =
      keepFirst (path.meaning host answer front ++ path.meaning host answer back) := by
  have first := stepwise.meaning_eq_flatMap unique fit fun node member =>
    inside node (List.mem_append_left back member)
  have second := stepwise.meaning_eq_flatMap unique fit fun node member =>
    inside node (List.mem_append_right front member)
  rw [stepwise.meaning_eq_flatMap unique fit inside, first, second, List.flatMap_append,
    Frontier.keepFirst_keepFirst_append, Frontier.keepFirst_append_keepFirst]

end Path

omit unique

theorem Frontier.nodes_foldl_insertAll (single : Node → Frontier Node) (start : List Node)
    (before : Frontier Node) :
    (start.foldl (fun found node => found.insertAll (single node).nodes) before).nodes =
      keepFirst (before.nodes ++ start.flatMap fun node => (single node).nodes) := by
  induction start generalizing before with
  | nil => rw [List.foldl_nil, List.flatMap_nil, List.append_nil, keepFirst_nodes]
  | cons node rest ih =>
      rw [List.foldl_cons, ih, nodes_insertAll_eq_keepFirst, keepFirst_keepFirst_append,
        List.append_assoc, List.flatMap_cons]

namespace Path

/-- A path that may be run on the parts of a start one after the other, and drawn into the delegates
of a union before it. -/
structure Distributes (setting : Setting Node Leaf Failure) (region : Set Node)
    (path : Path Leaf) : Prop where
  overParts : ∀ front back : List Node, (∀ node ∈ front ++ back, node ∈ region) →
    ∃ first second, (path.navigate setting front).Ends (.ok first) ∧
      (path.navigate setting back).Ends (.ok second) ∧
      (path.navigate setting (front ++ back)).Ends (.ok (first.insertAll second.nodes))
  overNodes : ∀ start : List Node, (∀ node ∈ start, node ∈ region) →
    ∃ single : Node → Frontier Node,
      (∀ node ∈ start, (path.navigate setting [node]).Ends (.ok (single node))) ∧
      (path.navigate setting start).Ends
        (.ok (start.foldl (fun found node => found.insertAll (single node).nodes) ∅))
  overUnions : ∀ (left right : Path Leaf) (start : List Node) (fromLeft fromRight : Frontier Node),
    (∀ node ∈ start, node ∈ region) → (left.navigate setting start).Ends (.ok fromLeft) →
      (right.navigate setting start).Ends (.ok fromRight) → ∃ found,
        ((chain [union [left, right], path]).navigate setting start).Ends (.ok found) ∧
        ((union [chain [left, path], chain [right, path]]).navigate setting start).Ends (.ok found)

theorem Stepwise.distributes (stepwise : path.Stepwise) (accepts : setting.sink.Accepts)
    (grounded : Tree.Grounded setting.host.children region)
    (patient : region.ncard ≤ setting.patience)
    (closed : ∀ relation, Tree.Confined (setting.host.related relation) region)
    (unique : Set.InjOn Keyed.key region) (fit : path.Fit setting.host setting.answer region) :
    path.Distributes setting region := by
  have settles : ∀ {nodes : List Node}, (∀ node ∈ nodes, node ∈ region) →
      ∃ found, (path.navigate setting nodes).Ends (.ok found) ∧
        found.nodes = path.meaning setting.host setting.answer nodes :=
    fun inside => fit.navigate_settles accepts grounded patient inside
  refine ⟨?_, ?_, ?_⟩
  · intro front back inside
    obtain ⟨inFront, inBack⟩ := List.forall_mem_append.mp inside
    obtain ⟨first, firstEnds, firstFound⟩ := settles inFront
    obtain ⟨second, secondEnds, secondFound⟩ := settles inBack
    obtain ⟨whole, wholeEnds, wholeFound⟩ := settles inside
    have same : whole = first.insertAll second.nodes := by
      apply Frontier.ext_nodes
      rw [wholeFound, stepwise.meaning_append unique fit inside, ← firstFound, ← secondFound,
        Frontier.nodes_insertAll_eq_keepFirst]
    exact ⟨first, second, firstEnds, secondEnds, same ▸ wholeEnds⟩
  · intro start inside
    choose! single singleEnds singleFound using fun node (within : node ∈ region) =>
      settles (List.forall_mem_singleton.mpr within)
    obtain ⟨whole, wholeEnds, wholeFound⟩ := settles inside
    have same : whole = start.foldl (fun found node => found.insertAll (single node).nodes) ∅ := by
      apply Frontier.ext_nodes
      rw [wholeFound, stepwise.meaning_eq_flatMap unique fit inside, Frontier.nodes_foldl_insertAll,
        Frontier.nodes_empty, List.nil_append]
      congr 1
      exact List.flatMap_congr fun node member => (singleFound node (inside node member)).symm
    exact ⟨single, fun node member => singleEnds node (inside node member), same ▸ wholeEnds⟩
  · intro left right start fromLeft fromRight inside leftEnds rightEnds
    have within : (Frontier.ofList start).Inside region :=
      fun node member => inside node (Frontier.mem_of_mem_ofList member)
    have stays := Host.staysIn_of_confined closed
    have leftInside := inside_of_run_yields stays within leftEnds.yields
    have rightInside := inside_of_run_yields stays within rightEnds.yields
    have refined := fit.refined accepts grounded patient
    obtain ⟨first, firstEnds, firstFound, _⟩ := refined fromLeft leftInside
    obtain ⟨second, secondEnds, secondFound, _⟩ := refined fromRight rightInside
    obtain ⟨whole, wholeEnds, wholeFound, _⟩ := refined _ (leftInside.insertAll rightInside)
    have same : whole = first.insertAll second.nodes := by
      apply Frontier.ext_nodes
      rw [wholeFound, Frontier.nodes_insertAll_eq_keepFirst, meaning_keepFirst,
        stepwise.meaning_append unique fit (List.forall_mem_append.mpr ⟨leftInside, rightInside⟩),
        ← firstFound, ← secondFound, Frontier.nodes_insertAll_eq_keepFirst]
    refine ⟨whole, chain_pair_ends (union_pair_ends leftEnds rightEnds) wholeEnds, ?_⟩
    rw [same]
    exact union_pair_ends (chain_pair_ends leftEnds firstEnds)
      (chain_pair_ends rightEnds secondEnds)

/-- **Stepwise paths distribute.** In a finite region of the tree without circles, that the host
does not lead out of and in which no two nodes have one key, take a path of steps that neither
deepen nor fail, or a chain of such paths. Navigation from two lists of nodes one behind the other
finds what it finds from the first and then what else it finds from the second; so it finds from a
list what it finds from each of its nodes, in order. And whatever two paths find that come to a
result, such a path after their union finds what the union of the two finds with the path after
each. -/
theorem navigate_distributes {path : Path Leaf} (accepts : setting.sink.Accepts)
    (grounded : Tree.Grounded setting.host.children region)
    (closed : ∀ relation, Tree.Confined (setting.host.related relation) region)
    (unique : Set.InjOn Keyed.key region) (stepwise : path.Stepwise)
    (fit : path.Fit setting.host setting.answer region) :
    ∃ enough, ∀ patience, enough ≤ patience →
      path.Distributes { setting with patience := patience } region := by
  refine ⟨region.ncard, fun patience patient => ?_⟩
  apply stepwise.distributes
  · exact accepts
  · exact grounded
  · exact patient
  · exact closed
  · exact unique
  · exact fit

end Path

end TreeQuery

namespace TreeQuery.Grove

/-- The setting in which the grove shows its parents too. -/
def kindred : Setting Value String Unit :=
  setting.linked 10 children parent

theorem kindred_closed (relation : Relation) :
    Tree.Confined (kindred.host.related relation) part := by
  have patient : 2 * part.ncard + 2 ≤ 10 := by
    have few := part_ncard_le
    omega
  exact part_kinship.confined_related part_keys patient relation

/-- A chain of a path that moves and filters and of one that moves twice. -/
def errand : Path String :=
  .chain [.simple [some (.traversal .allDescendants .any), some (named "y")],
    .simple [some (.traversal .children .any), some (.traversal .parent .any)]]

theorem direct_fit {step : Predicate String} (direct : step.Direct)
    (labelled : ∃ text, step.label = .ok text) (answers : step.Answers kindred.answer part) :
    step.Direct ∧ step.Fit kindred.host kindred.answer part := by
  refine ⟨direct, labelled, answers, fun relation _ => kindred_closed relation, fun upward => ?_⟩
  exact absurd (direct .ancestors upward) (by decide)

theorem direct_traversal {axis : Axis} {test : Predicate String} (once : axis.deepens = false) :
    (Predicate.traversal axis test).Direct := by
  rintro _ ⟨⟩
  exact once

theorem stepwise_fit_pair {first second : Predicate String}
    (one : first.Direct ∧ first.Fit kindred.host kindred.answer part)
    (other : second.Direct ∧ second.Fit kindred.host kindred.answer part) :
    (Path.simple [some first, some second]).Stepwise ∧
      (Path.simple [some first, some second]).Fit kindred.host kindred.answer part := by
  constructor
  · apply Path.Stepwise.simple
    rw [List.forall_mem_cons, List.forall_mem_singleton]
    exact ⟨⟨_, rfl, one.1⟩, _, rfl, other.1⟩
  · apply Path.Fit.simple
    rw [List.forall_mem_cons, List.forall_mem_singleton]
    exact ⟨⟨_, rfl, one.2⟩, _, rfl, other.2⟩

/-- In the part of the grove, where no two nodes have one identifier. The errand leads from the top
of the part down to the one node that has a child, down to the child and up again. -/
theorem errand_distributes :
    ((errand.navigate kindred [spot 2 "b"]).perform {}).1 = .ok (.ofList [spot 5 "y"]) ∧
    ∃ enough, ∀ patience, enough ≤ patience →
      errand.Distributes { kindred with patience := patience } part := by
  have move : ∀ axis : Axis, axis.deepens = false →
      (Predicate.traversal axis (.any : Predicate String)).Direct ∧
        (Predicate.traversal axis .any).Fit kindred.host kindred.answer part :=
    fun axis once => direct_fit (direct_traversal once) ⟨_, rfl⟩ fun _ _ => ⟨_, rfl⟩
  have choose : (named "y").Direct ∧ (named "y").Fit kindred.host kindred.answer part :=
    direct_fit (fun _ none => by cases none) ⟨_, rfl⟩ fun _ _ => ⟨_, rfl⟩
  have out := stepwise_fit_pair (move .allDescendants rfl) choose
  have back := stepwise_fit_pair (move .children rfl) (move .parent rfl)
  refine ⟨rfl, ?_⟩
  apply Path.navigate_distributes
  · exact fun _ _ => rfl
  · exact part_isTree.toGrounded
  · exact kindred_closed
  · exact part_keys
  · apply Path.Stepwise.chain
    rw [List.forall_mem_cons, List.forall_mem_singleton]
    exact ⟨out.1, back.1⟩
  · apply Path.Fit.chain
    rw [List.forall_mem_cons, List.forall_mem_singleton]
    exact ⟨out.2, back.2⟩

end TreeQuery.Grove
