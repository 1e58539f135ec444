import TreeQuery.Proofs.Navigation.Evaluation
import TreeQuery.Proofs.Navigation.Relocations

/-! # The rounds of a deepening step

A traversal relocates its frontier and tests where it arrived, and if it deepens and nothing was
accepted, it relocates again from there. What the relocation does is left open here: it may lead
upwards, go round in circles or come back to nodes that were tested before. If neither it nor the
test fails, the step commits to the first relocation with a match, and on the way every relocation
starts where the one before arrived and every node at which one arrives is tested once, in order
(`TreeQuery.Frontier.Steady.commits`). A traversal along an axis is of this sort wherever the host
answers (`TreeQuery.Axis.steady`).
-/

namespace TreeQuery

variable {Node Leaf Failure : Type} {α β : Type}

namespace Run.Takes

variable {calls further : List (Call Node Leaf)}

/-- What follows on a first part that ends on a value. -/
theorem bind_ok {first : Run Node Leaf Failure α} {next : α → Run Node Leaf Failure β} {value : α}
    {outcome : Except (Fault Failure) β} (takes : Takes first ⟨calls, .ok value⟩)
    (goes : Takes (next value) ⟨further, outcome⟩) :
    Takes (first >>= next) ⟨calls ++ further, outcome⟩ := by
  intro before
  obtain ⟨ended, called⟩ := takes before
  rw [perform_bind]
  generalize first.perform before = reached at ended called ⊢
  obtain ⟨_, middle⟩ := reached
  cases ended
  obtain ⟨finished, added⟩ := goes middle
  refine ⟨finished, ?_⟩
  change _ = (calls ++ further).reverse ++ before.calls
  rw [added, called, List.reverse_append, List.append_assoc]

theorem bind_pure {first : Run Node Leaf Failure α} {value : α}
    (takes : Takes first ⟨calls, .ok value⟩) (change : α → β) :
    Takes (do return change (← first)) ⟨calls, .ok (change value)⟩ := by
  rw [← List.append_nil calls]
  exact takes.bind_ok (pure (change value))

/-- Elements are gone through in order, if none of them fails. -/
theorem mapM_ok {computation : α → Run Node Leaf Failure β} {value : α → β}
    {asks : α → List (Call Node Leaf)}
    (takes : ∀ element, Takes (computation element) ⟨asks element, .ok (value element)⟩)
    (elements : List α) :
    Takes (elements.mapM computation) ⟨elements.flatMap asks, .ok (elements.map value)⟩ := by
  induction elements with
  | nil =>
      rw [List.mapM_nil]
      exact pure []
  | cons element rest ih =>
      rw [List.mapM_cons, List.flatMap_cons]
      exact (takes element).bind_ok (ih.bind_pure (value element :: ·))

end Run.Takes

variable [Keyed Node]

namespace Frontier

/-- A relocation and a test that never fail: where the relocation leads from a frontier, which nodes
pass the test, and the calls that they make. -/
structure Steady (relocate : Frontier Node → Run Node Leaf Failure (Frontier Node))
    (question : Node → Run Node Leaf Failure Bool) (moved : Frontier Node → Frontier Node)
    (passes : Node → Bool) (marks : Frontier Node → List (Call Node Leaf))
    (asks : Node → List (Call Node Leaf)) : Prop where
  relocates : ∀ frontier, (relocate frontier).Takes ⟨marks frontier, .ok (moved frontier)⟩
  decides : ∀ node, (question node).Takes ⟨asks node, .ok (passes node)⟩

/-- The calls of one round: the frontier is relocated, and then each node at which it arrived is
tested, in order. -/
def round (moved : Frontier Node → Frontier Node) (marks : Frontier Node → List (Call Node Leaf))
    (asks : Node → List (Call Node Leaf)) (frontier : Frontier Node) : List (Call Node Leaf) :=
  marks frontier ++ (moved frontier).nodes.flatMap asks

/-- The calls of several rounds, each from where the one before arrived. -/
def rounds (moved : Frontier Node → Frontier Node) (marks : Frontier Node → List (Call Node Leaf))
    (asks : Node → List (Call Node Leaf)) (start : Frontier Node) (count : Nat) :
    List (Call Node Leaf) :=
  (List.range count).flatMap fun earlier => round moved marks asks (moved^[earlier] start)

/-- A frontier with nodes, none of which passes a test. -/
def Fruitless (passes : Node → Bool) (frontier : Frontier Node) : Prop :=
  frontier ≠ ∅ ∧ ∀ node ∈ frontier.nodes, passes node = false

variable {relocate : Frontier Node → Run Node Leaf Failure (Frontier Node)}
  {question : Node → Run Node Leaf Failure Bool} {moved : Frontier Node → Frontier Node}
  {passes : Node → Bool} {marks : Frontier Node → List (Call Node Leaf)}
  {asks : Node → List (Call Node Leaf)} {start frontier : Frontier Node} {moves count : Nat}

theorem rounds_one : rounds moved marks asks start 1 = round moved marks asks start :=
  List.flatMap_singleton ..

theorem rounds_succ : rounds moved marks asks start (count + 1) =
    round moved marks asks start ++ rounds moved marks asks (moved start) count := by
  rw [rounds, List.range_succ_eq_map, List.flatMap_cons, List.flatMap_map]
  rfl

theorem filter_isEmpty_iff :
    (frontier.filter passes).isEmpty = true ↔ ∀ node ∈ frontier.nodes, passes node = false := by
  rw [isEmpty, nodes_filter, List.isEmpty_iff, List.filter_eq_nil_iff]
  exact forall₂_congr fun node _ => iff_of_eq (Bool.not_eq_true _)

/-- A frontier that is not fruitless has run out or has a match. -/
theorem not_fruitless_iff : ¬ Fruitless passes frontier ↔
    frontier = ∅ ∨ ∃ node ∈ frontier.nodes, passes node = true := by
  rw [Fruitless, not_and_or, not_not]
  simp only [not_forall, Bool.not_eq_false, exists_prop]

namespace Steady

variable (steady : Steady relocate question moved passes marks asks)

include steady

theorem filterRun_takes (frontier : Frontier Node) : (frontier.filterRun question).Takes
    ⟨frontier.nodes.flatMap asks, .ok (frontier.filter passes)⟩ := by
  have chosen : frontier.select (frontier.nodes.map passes) = frontier.filter passes :=
    ext_nodes (by rw [nodes_select, accepted_map, nodes_filter])
  rw [filterRun, ← chosen]
  exact (Run.Takes.mapM_ok steady.decides frontier.nodes).bind_pure frontier.select

/-- A step that has a match, has run out of nodes or does not deepen stops after one round. -/
theorem deepen_stops {again : Bool} (stops : again = true → ¬ Fruitless passes (moved start)) :
    (start.deepen relocate again question (moves + 1)).Takes
      ⟨round moved marks asks start, .ok ((moved start).filter passes)⟩ := by
  have arrives := steady.relocates start
  rw [deepen, round]
  by_cases out : (moved start).isEmpty = true
  · have none : moved start = ∅ := isEmpty_iff.mp out
    have nothing : (moved start).filter passes = ∅ := by rw [none]; rfl
    have quiet : (moved start).nodes.flatMap asks = [] := by rw [none]; rfl
    rw [nothing, quiet]
    apply arrives.bind_ok
    rw [if_pos out]
    exact .pure ∅
  · have tests := steady.filterRun_takes (moved start)
    have halt : ¬ (((moved start).filter passes).isEmpty && again) = true := by
      rw [Bool.and_eq_true, filter_isEmpty_iff]
      rintro ⟨unmatched, deepens⟩
      exact stops deepens ⟨fun none => out (isEmpty_iff.mpr none), unmatched⟩
    rw [← List.append_nil ((moved start).nodes.flatMap asks)]
    apply arrives.bind_ok
    rw [if_neg out]
    apply tests.bind_ok
    rw [if_neg halt]
    exact .pure _

/-- A deepening step goes on from a fruitless frontier. -/
theorem deepen_goes_on (fruitless : Fruitless passes (moved start))
    {calls : List (Call Node Leaf)} {outcome : Except (Fault Failure) (Frontier Node)}
    (later : ((moved start).deepen relocate true question moves).Takes ⟨calls, outcome⟩) :
    (start.deepen relocate true question (moves + 1)).Takes
      ⟨round moved marks asks start ++ calls, outcome⟩ := by
  have out : ¬ (moved start).isEmpty = true := fun none => fruitless.1 (isEmpty_iff.mp none)
  have more : (((moved start).filter passes).isEmpty && true) = true := by
    rw [Bool.and_true, filter_isEmpty_iff]
    exact fruitless.2
  rw [deepen, round, List.append_assoc]
  apply (steady.relocates start).bind_ok
  rw [if_neg out]
  apply (steady.filterRun_takes (moved start)).bind_ok
  rw [if_pos more]
  exact later

/-- After fruitless rounds the first that is not fruitless is the last. -/
theorem deepen_takes_of_first (less : count < moves)
    (before : ∀ earlier < count, Fruitless passes (moved^[earlier + 1] start))
    (last : ¬ Fruitless passes (moved^[count + 1] start)) :
    (start.deepen relocate true question moves).Takes
      ⟨rounds moved marks asks start (count + 1),
        .ok ((moved^[count + 1] start).filter passes)⟩ := by
  induction count generalizing start moves with
  | zero =>
      obtain ⟨left, rfl⟩ := Nat.exists_eq_add_one_of_ne_zero less.ne'
      rw [rounds_one]
      exact steady.deepen_stops fun _ => last
  | succ count ih =>
      obtain ⟨left, rfl⟩ := Nat.exists_eq_add_one_of_ne_zero (Nat.ne_zero_of_lt less)
      have later := ih (Nat.lt_of_succ_lt_succ less)
        (fun earlier lower => before (earlier + 1) (Nat.succ_lt_succ lower)) last
      rw [rounds_succ]
      exact steady.deepen_goes_on (before 0 (Nat.succ_pos count)) later

/-- As long as all rounds are fruitless, the step is not over. -/
theorem deepen_takes_of_all
    (before : ∀ earlier < moves, Fruitless passes (moved^[earlier + 1] start)) :
    (start.deepen relocate true question moves).Takes
      ⟨rounds moved marks asks start moves, .error .exhausted⟩ := by
  induction moves generalizing start with
  | zero => exact .throw _
  | succ moves ih =>
      have later := ih fun earlier lower => before (earlier + 1) (Nat.succ_lt_succ lower)
      rw [rounds_succ]
      exact steady.deepen_goes_on (before 0 (Nat.succ_pos moves)) later

end Steady

/-- What a traversal does from a frontier, of which it is known where the relocation leads and which
nodes pass the test. -/
structure Commits (relocate : Frontier Node → Run Node Leaf Failure (Frontier Node))
    (question : Node → Run Node Leaf Failure Bool) (moved : Frontier Node → Frontier Node)
    (passes : Node → Bool) (marks : Frontier Node → List (Call Node Leaf))
    (asks : Node → List (Call Node Leaf)) (start : Frontier Node) : Prop where
  /-- Without a second try it finds the matches of the first relocation in one round. -/
  once : ∀ moves, (start.deepen relocate false question (moves + 1)).Takes
    ⟨rounds moved marks asks start 1, .ok ((moved start).filter passes)⟩
  /-- If it tries again, it finds the matches of the first relocation that has some. -/
  matched : ∀ count moves, count < moves →
    (∀ earlier < count, Fruitless passes (moved^[earlier + 1] start)) →
    (∃ node ∈ (moved^[count + 1] start).nodes, passes node = true) →
      (start.deepen relocate true question moves).Takes
        ⟨rounds moved marks asks start (count + 1),
          .ok ((moved^[count + 1] start).filter passes)⟩
  /-- If it has run out of nodes before there was a match, it finds nothing. -/
  dry : ∀ count moves, count < moves →
    (∀ earlier < count, Fruitless passes (moved^[earlier + 1] start)) →
    moved^[count + 1] start = ∅ →
      (start.deepen relocate true question moves).Takes
        ⟨rounds moved marks asks start (count + 1), .ok ∅⟩
  /-- If there is neither a match nor an end, it is still under way after any number of rounds. -/
  endless : ∀ moves, (∀ earlier < moves, Fruitless passes (moved^[earlier + 1] start)) →
    (start.deepen relocate true question moves).Takes
      ⟨rounds moved marks asks start moves, .error .exhausted⟩
  /-- There is no other way in which it comes to an end. -/
  only : ∀ moves before found,
    ((start.deepen relocate true question moves).perform before).1 = .ok found →
      ∃ count < moves, (∀ earlier < count, Fruitless passes (moved^[earlier + 1] start)) ∧
        ((∃ node ∈ (moved^[count + 1] start).nodes, passes node = true) ∧
            found = (moved^[count + 1] start).filter passes ∨
          moved^[count + 1] start = ∅ ∧ found = ∅)

/-- **A traversal commits to the first relocation with a match.** Let neither the relocation nor the
test of a step ever fail, wherever the relocation leads. A step without a second try finds the
matches of the first relocation. One that tries again finds the matches of the first relocation that
has some, and nothing if it runs out of nodes before; otherwise it never comes to an end. In each
case the calls are those of the rounds up to the last relocation: a relocation of where the one
before arrived, and one test for each node at which it arrives, in order. -/
theorem Steady.commits (steady : Steady relocate question moved passes marks asks)
    (start : Frontier Node) : Commits relocate question moved passes marks asks start where
  once moves := by
    rw [rounds_one]
    exact steady.deepen_stops nofun
  matched count moves less before found :=
    steady.deepen_takes_of_first less before (not_fruitless_iff.mpr (.inr found))
  dry count moves less before out := by
    have takes := steady.deepen_takes_of_first less before (not_fruitless_iff.mpr (.inl out))
    have nothing : (moved^[count + 1] start).filter passes = ∅ := by rw [out]; rfl
    rw [nothing] at takes
    exact takes
  endless moves before := steady.deepen_takes_of_all before
  only moves journal found ended := by
    by_cases all : ∀ earlier < moves, Fruitless passes (moved^[earlier + 1] start)
    · cases ended.symm.trans (steady.deepen_takes_of_all all journal).1
    · have some : ∃ count, count < moves ∧ ¬ Fruitless passes (moved^[count + 1] start) := by
        simpa only [not_forall, exists_prop] using all
      classical
      obtain ⟨less, last⟩ := Nat.find_spec some
      have before : ∀ earlier < Nat.find some, Fruitless passes (moved^[earlier + 1] start) := by
        intro earlier lower
        by_contra fails
        exact Nat.find_min some lower ⟨lower.trans less, fails⟩
      have same := ended.symm.trans (steady.deepen_takes_of_first less before last journal).1
      cases same
      refine ⟨Nat.find some, less, before, ?_⟩
      rcases not_fruitless_iff.mp last with out | matched
      · exact .inr ⟨out, by rw [out]; rfl⟩
      · exact .inl ⟨matched, rfl⟩

theorem gather_takes {find : Node → Run Node Leaf Failure (List Node)}
    {calls : Node → List (Call Node Leaf)} {reached : Node → List Node}
    (takes : ∀ node, (find node).Takes ⟨calls node, .ok (reached node)⟩)
    (frontier : Frontier Node) : (frontier.gather find).Takes
      ⟨frontier.nodes.flatMap calls, .ok (ofList (frontier.nodes.flatMap reached))⟩ := by
  have flat : frontier.nodes.flatMap reached = (frontier.nodes.map reached).flatten :=
    List.flatMap_def ..
  rw [gather, flat]
  exact (Run.Takes.mapM_ok takes frontier.nodes).bind_pure fun lists => ofList lists.flatten

end Frontier

section Axes

variable {setting : Setting Node Leaf Failure}

omit [Keyed Node] in
theorem Setting.ask_takes {relation : Relation}
    (confined : Tree.Confined (setting.host.related relation) Set.univ) (node : Node) :
    (setting.ask relation node).Takes
      ⟨[.asked relation node], .ok (setting.host.related relation node).nodes⟩ := by
  rw [ask, confined.toExcept_eq (Set.mem_univ node)]
  exact .asked _ _

omit [Keyed Node] in
theorem Predicate.accepts_takes {test : Predicate Leaf}
    (answers : test.Answers setting.answer Set.univ) (node : Node) :
    (test.accepts setting node).Takes
      ⟨(Evaluation.test setting.answer test node).calls, .ok (test.holds setting.answer node)⟩ := by
  obtain ⟨value, given⟩ := answers node (Set.mem_univ node)
  have takes : (test.test setting node).Takes (Evaluation.test setting.answer test node) :=
    Evaluation.test_takes test node
  have ended : (Evaluation.test setting.answer test node).outcome = .ok value := by
    rw [← given, ← takes.ends {}, test.test_ends node {}]
  have course : Evaluation.test setting.answer test node =
      ⟨(Evaluation.test setting.answer test node).calls, .ok value⟩ := by rw [← ended]
  rw [course] at takes
  rw [accepts, map_eq_pure_bind, holds, given]
  exact takes.bind_pure Value.truthy

/-- Where the host always answers, a relocation along an axis asks it about each node in order. -/
theorem Axis.relocate_takes {axis : Axis} (confined : ∀ relation ∈ axis.relations,
      Tree.Confined (setting.host.related relation) Set.univ) (frontier : Frontier Node) :
    (axis.relocate setting frontier).Takes
      ⟨frontier.nodes.flatMap fun node => axis.relations.map (.asked · node),
        .ok (.ofList (frontier.nodes.flatMap (axis.reached setting.host)))⟩ := by
  have one : ∀ relation, axis.relations = [relation] →
      (frontier.gather (setting.ask relation)).Takes
        ⟨frontier.nodes.flatMap fun node => axis.relations.map (.asked · node),
          .ok (.ofList (frontier.nodes.flatMap (axis.reached setting.host)))⟩ := by
    intro relation only
    apply Frontier.gather_takes
    intro node
    rw [reached, only, List.flatMap_singleton]
    exact Setting.ask_takes (confined relation (only ▸ List.mem_cons_self)) node
  cases axis with
  | neighbours =>
      apply Frontier.gather_takes
      intro node
      have below := Setting.ask_takes (confined .children (.head _)) node
      have above := Setting.ask_takes (confined .parent (.tail _ (.head _))) node
      rw [reached, relations, List.flatMap_cons, List.flatMap_singleton]
      exact below.bind_ok (above.bind_pure _)
  | children | descendants | allDescendants | siblings | parent | ancestors => exact one _ rfl

/-- A traversal along an axis, over a host that always answers and with a test that always does. -/
theorem Axis.steady {axis : Axis} {test : Predicate Leaf}
    (confined : ∀ relation ∈ axis.relations,
      Tree.Confined (setting.host.related relation) Set.univ)
    (answers : test.Answers setting.answer Set.univ) :
    Frontier.Steady (axis.relocate setting) (test.accepts setting)
      (fun frontier => .ofList (frontier.nodes.flatMap (axis.reached setting.host)))
      (test.holds setting.answer)
      (fun frontier => frontier.nodes.flatMap fun node => axis.relations.map (.asked · node))
      fun node => (Evaluation.test setting.answer test node).calls where
  relocates := axis.relocate_takes confined
  decides := Predicate.accepts_takes answers

end Axes

end TreeQuery

namespace TreeQuery.Grove

/-- The setting in which the grove is searched upwards. -/
def climbing : Setting Value String Unit :=
  setting.linked 9 children parent

theorem climbing_confined : ∀ relation ∈ Axis.ancestors.relations,
    Tree.Confined (climbing.host.related relation) Set.univ := by
  rw [Axis.relations, List.forall_mem_singleton]
  intro node _
  refine ⟨?_, fun _ _ => Set.mem_univ _⟩
  obtain ⟨above, found⟩ : ∃ above, climbing.host.parent node = .ok above := by
    change ∃ above, parent node = .ok above
    unfold parent
    split <;> exact ⟨_, rfl⟩
  rw [Host.related, found]

/-- The way up in the grove from one node to an ancestor leads over its parent, which is tested and
rejected in the first round. -/
theorem climb_commits :
    ((Predicate.traversal .ancestors (named "b")).step climbing (.ofList [spot 6 "z"])).Takes
      ⟨[.asked .parent (spot 6 "z"), .tested "b" (spot 5 "y"),
          .asked .parent (spot 5 "y"), .tested "b" (spot 2 "b")],
        .ok (.ofList [spot 2 "b"])⟩ := by
  have answers : (named "b").Answers climbing.answer Set.univ := fun _ _ => ⟨_, rfl⟩
  have commits := (Axis.steady climbing_confined answers).commits (.ofList [spot 6 "z"])
  refine commits.matched 1 9 (by decide) ?_ ⟨spot 2 "b", .head _, rfl⟩
  intro earlier less
  obtain rfl := Nat.lt_one_iff.mp less
  refine ⟨fun none => ?_, List.forall_mem_singleton.mpr rfl⟩
  cases congrArg Frontier.nodes none

end TreeQuery.Grove
