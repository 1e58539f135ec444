import TreeQuery.Proofs.Navigation.Loops
import TreeQuery.Proofs.Run.Yield

/-! # What steps find

A step that does not fail finds the nodes that it selects, wherever it starts and however often it
had to move on (`TreeQuery.Predicate.nodes_of_step_yields`). Nothing is asked here of the tree,
since a search that does not end and a test that fails yield nothing.
-/

namespace TreeQuery

variable {Node Leaf Failure : Type} {setting : Setting Node Leaf Failure}

/-- A test that yields an answer at all yields the verdict. -/
theorem Predicate.eq_holds_of_accepts_yields {predicate : Predicate Leaf} {node : Node}
    {verdict : Bool} (yields : (predicate.accepts setting node).Yields verdict) :
    verdict = predicate.holds setting.answer node := by
  have given := yields.of_ends ((predicate.test_ends node).map Value.truthy)
  rw [holds]
  cases answer : predicate.verdict setting.answer node with
  | error fault =>
      rw [answer] at given
      cases given
  | ok value =>
      rw [answer] at given
      cases given
      rfl

/-- A host that answers at all has listed its nodes. -/
theorem Setting.eq_nodes_of_ask_yields {relation : Relation} {node : Node} {listed : List Node}
    (yields : (setting.ask relation node).Yields listed) :
    listed = (setting.host.related relation node).nodes := by
  have given := yields.of_ends ((Run.Ends.note _).bind_ok (.liftExcept _))
  rw [Listing.toExcept] at given
  split at given
  · cases given
    rfl
  · cases given

variable [Keyed Node]

namespace Frontier

/-- What passes a filter is what the verdicts accept. -/
theorem nodes_of_filterRun_yields {question : Node → Run Node Leaf Failure Bool}
    {accepts : Node → Bool}
    (answers : ∀ node verdict, (question node).Yields verdict → verdict = accepts node)
    {frontier found : Frontier Node} (yields : (frontier.filterRun question).Yields found) :
    found.nodes = frontier.nodes.filter accepts := by
  obtain ⟨verdicts, asked, chosen⟩ := yields.of_bind
  rw [chosen.of_pure, asked.eq_map_of_mapM fun node _ => answers node, nodes_select, accepted_map]

/-- What is gathered is what each node leads to, without repetitions. -/
theorem nodes_of_gather_yields {relocate : Node → Run Node Leaf Failure (List Node)}
    {reached : Node → List Node}
    (finds : ∀ node listed, (relocate node).Yields listed → listed = reached node)
    {frontier arrived : Frontier Node} (yields : (frontier.gather relocate).Yields arrived) :
    arrived.nodes = keepFirst (frontier.nodes.flatMap reached) := by
  obtain ⟨lists, asked, taken⟩ := yields.of_bind
  rw [taken.of_pure, asked.eq_map_of_mapM fun node _ => finds node, nodes_ofList_eq_keepFirst,
    List.flatMap_def]

/-- A search that comes to an end finds what the first match of its moves finds, or what its only
move finds. -/
theorem nodes_of_deepen_yields {relocate : Frontier Node → Run Node Leaf Failure (Frontier Node)}
    {move : List Node → List Node} {question : Node → Run Node Leaf Failure Bool}
    {accepts : Node → Bool}
    (relocates : ∀ frontier arrived, (relocate frontier).Yields arrived →
      arrived.nodes = move frontier.nodes)
    (answers : ∀ node verdict, (question node).Yields verdict → verdict = accepts node)
    (still : move [] = []) (again : Bool) {moves : Nat} {frontier found : Frontier Node}
    (yields : (deepen relocate again question moves frontier).Yields found) :
    found.nodes = if again then firstMatch move accepts frontier.nodes
      else (move frontier.nodes).filter accepts := by
  induction moves generalizing frontier with
  | zero => exact absurd yields Run.Yields.not_throw
  | succ moves ih =>
      obtain ⟨arrived, moved, later⟩ := yields.of_bind
      have arrives := relocates frontier arrived moved
      split at later
      · next none =>
          have nowhere : move frontier.nodes = [] :=
            arrives.symm.trans (isEmpty_eq_true_iff.mp none)
          have unmatched : (move frontier.nodes).filter accepts = [] := by
            rw [nowhere, List.filter_nil]
          rw [later.of_pure, firstMatch_of_no_match unmatched, unmatched, nowhere,
            firstMatch_nil still, ite_self]
          rfl
      · obtain ⟨candidates, filtered, rest⟩ := later.of_bind
        have kept := nodes_of_filterRun_yields answers filtered
        rw [arrives] at kept
        cases matched : candidates.isEmpty with
        | true =>
            have unmatched : (move frontier.nodes).filter accepts = [] :=
              kept.symm.trans (isEmpty_eq_true_iff.mp matched)
            cases again with
            | true =>
                rw [matched, Bool.and_true, if_pos rfl] at rest
                rw [ih rest, if_pos rfl, if_pos rfl, firstMatch_of_no_match unmatched, arrives]
            | false =>
                rw [Bool.and_false, if_neg Bool.false_ne_true] at rest
                rw [rest.of_pure, kept, if_neg Bool.false_ne_true]
        | false =>
            have some : (move frontier.nodes).filter accepts ≠ [] := by
              rw [← kept]
              intro none
              rw [isEmpty_eq_true_iff.mpr none] at matched
              cases matched
            rw [matched, Bool.false_and, if_neg Bool.false_ne_true] at rest
            rw [rest.of_pure, kept, firstMatch_of_match some, ite_self]

end Frontier

/-- Relocation that does not fail leads where the axis does. -/
theorem Axis.nodes_of_relocate_yields {axis : Axis} {frontier arrived : Frontier Node}
    (yields : (axis.relocate setting frontier).Yields arrived) :
    arrived.nodes = axis.moved setting.host frontier.nodes := by
  have one : ∀ relation, axis.relations = [relation] →
      (frontier.gather (setting.ask relation)).Yields arrived →
        arrived.nodes = axis.moved setting.host frontier.nodes := by
    intro relation only gathers
    apply Frontier.nodes_of_gather_yields _ gathers
    intro node listed asked
    rw [Setting.eq_nodes_of_ask_yields asked, reached, only, List.flatMap_singleton]
  cases axis with
  | neighbours =>
      apply Frontier.nodes_of_gather_yields _ yields
      intro node listed asked
      obtain ⟨children, down, later⟩ := asked.of_bind
      obtain ⟨parent, up, both⟩ := later.of_bind
      rw [both.of_pure, Setting.eq_nodes_of_ask_yields down, Setting.eq_nodes_of_ask_yields up,
        reached, relations, List.flatMap_cons, List.flatMap_singleton]
  | children | descendants => exact one .children rfl yields
  | allDescendants => exact one .descendants rfl yields
  | siblings => exact one .siblings rfl yields
  | parent | ancestors => exact one .parent rfl yields

/-- A step that does not fail finds what it selects. -/
theorem Predicate.nodes_of_step_yields {step : Predicate Leaf} {frontier found : Frontier Node}
    (yields : (step.step setting frontier).Yields found) :
    found.nodes = step.selected setting.host setting.answer frontier.nodes := by
  cases step with
  | traversal axis inner =>
      exact Frontier.nodes_of_deepen_yields (fun _ _ => Axis.nodes_of_relocate_yields)
        (fun _ _ => eq_holds_of_accepts_yields) (axis.moved_nil _) axis.deepens yields
  | any | function | custom | counting | negation | conjunction | disjunction | foreign =>
      exact Frontier.nodes_of_filterRun_yields (fun _ _ => eq_holds_of_accepts_yields) yields

end TreeQuery
