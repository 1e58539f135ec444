import TreeQuery.Navigation
import TreeQuery.Proofs.Frontier.KeepFirst
import TreeQuery.Proofs.Navigation.Congruence
import TreeQuery.Proofs.Navigation.Meaning
import TreeQuery.Proofs.Run.Sequence

/-! # The loops of a navigation

Testing the nodes of a frontier, asking the host about them, and running steps, delegates, excluded
paths and links are loops of one shape. Each is the sequence of its parts
(`TreeQuery.Run.sequence`), and looking whether a frontier is empty is the same in all of them.
-/

namespace TreeQuery

variable {Node Leaf Failure : Type} [Keyed Node]

/-- Nothing ever makes the work over. -/
def never {State : Type} : State → Bool := fun _ => false

namespace Frontier

/-- Tests a node and keeps it if it is accepted. -/
def keeping (accepts : Node → Run Node Leaf Failure Bool) (node : Node) :
    Program Node Leaf Failure :=
  fun kept => do
    if ← accepts node then pure (kept.insert node) else pure kept

/-- Takes in what is found. -/
def takingIn (find : Run Node Leaf Failure (List Node)) : Program Node Leaf Failure :=
  fun found => do return found.insertAll (← find)

/-- Nodes of a frontier taken in from nothing are what they were. -/
theorem insertAll_accepted (frontier : Frontier Node) (verdicts : List Bool) :
    (∅ : Frontier Node).insertAll (accepted frontier.nodes verdicts) =
      frontier.select verdicts := by
  apply ext_nodes
  rw [nodes_insertAll_eq_keepFirst, nodes_empty, List.nil_append]
  exact keepFirst_nodes (frontier.select verdicts)

/-- Filtering a frontier tests one node after the other. -/
theorem filterRun_eq_sequence (accepts : Node → Run Node Leaf Failure Bool)
    (frontier : Frontier Node) :
    frontier.filterRun accepts =
      Run.sequence never (frontier.nodes.map (keeping accepts)) ∅ := by
  have from_kept : ∀ (nodes : List Node) (kept : Frontier Node),
      (do return kept.insertAll (accepted nodes (← nodes.mapM accepts))) =
        Run.sequence never (nodes.map (keeping accepts)) kept := by
    intro nodes
    induction nodes with
    | nil =>
        intro kept
        simp [accepted, insertAll_nil, Run.sequence]
    | cons node rest ih =>
        intro kept
        rw [List.map_cons, Run.sequence_cons_of_not_over _ _ rfl]
        simp only [List.mapM_cons, keeping, bind_assoc, pure_bind]
        congr 1
        funext verdict
        cases verdict with
        | false =>
            simp only [accepted, Bool.false_eq_true, ↓reduceIte, pure_bind]
            exact ih kept
        | true =>
            simp only [accepted, ↓reduceIte, pure_bind]
            rw [← ih]
            simp only [insert, insertAll_insertAll, List.singleton_append]
  rw [← from_kept, filterRun]
  simp only [insertAll_accepted]

/-- Gathering takes in what is found from one node after the other. -/
theorem gather_eq_sequence (relocate : Node → Run Node Leaf Failure (List Node))
    (frontier : Frontier Node) :
    frontier.gather relocate =
      Run.sequence never (frontier.nodes.map fun node => takingIn (relocate node)) ∅ := by
  have from_found : ∀ (nodes : List Node) (found : Frontier Node),
      (do return found.insertAll (← nodes.mapM relocate).flatten) =
        Run.sequence never (nodes.map fun node => takingIn (relocate node)) found := by
    intro nodes
    induction nodes with
    | nil =>
        intro found
        simp [insertAll_nil, Run.sequence]
    | cons node rest ih =>
        intro found
        rw [List.map_cons, Run.sequence_cons_of_not_over _ _ rfl]
        simp only [List.mapM_cons, takingIn, bind_assoc, pure_bind, List.flatten_cons,
          ← insertAll_insertAll]
        congr 1
        funext listed
        exact ih _
  exact from_found frontier.nodes ∅

end Frontier

/-- Asks the host one thing about a node and takes in the answer. -/
def Setting.inquiring (setting : Setting Node Leaf Failure) (inquiry : Relation × Node) :
    Program Node Leaf Failure :=
  Frontier.takingIn (setting.ask inquiry.1 inquiry.2)

/-- All that a traversal along an axis asks the host about nodes, in order. -/
def Axis.inquiries (axis : Axis) (nodes : List Node) : List (Relation × Node) :=
  nodes.flatMap fun node => axis.relations.map (·, node)

/-- Relocation along an axis makes one inquiry after the other. -/
theorem Axis.relocate_eq_sequence (setting : Setting Node Leaf Failure) (axis : Axis)
    (frontier : Frontier Node) :
    axis.relocate setting frontier =
      Run.sequence never ((axis.inquiries frontier.nodes).map setting.inquiring) ∅ := by
  -- What is found from one node is taken in after all inquiries about it, or after each of them.
  have gathers : ∀ find : Node → Run Node Leaf Failure (List Node),
      (∀ node found, Frontier.takingIn (find node) found =
        Run.sequence never ((axis.relations.map (·, node)).map setting.inquiring) found) →
      frontier.gather find =
        Run.sequence never ((axis.inquiries frontier.nodes).map setting.inquiring) ∅ := by
    intro find single
    rw [Frontier.gather_eq_sequence, inquiries]
    generalize (∅ : Frontier Node) = found
    induction frontier.nodes generalizing found with
    | nil => rfl
    | cons node rest ih =>
        rw [List.map_cons, List.flatMap_cons, List.map_append, Run.sequence_append,
          Run.sequence_cons_of_not_over _ _ rfl, single]
        congr 1
        funext next
        exact ih next
  have one : ∀ relation, axis.relations = [relation] →
      frontier.gather (setting.ask relation) =
        Run.sequence never ((axis.inquiries frontier.nodes).map setting.inquiring) ∅ := by
    intro relation only
    apply gathers
    intro node found
    rw [only]
    simp [Setting.inquiring, Run.sequence, never]
  cases axis with
  | neighbours =>
      apply gathers
      intro node found
      simp only [Axis.relations, List.map_cons, List.map_nil, Setting.inquiring, Run.sequence,
        never, Frontier.takingIn, Bool.false_eq_true, ↓reduceIte, bind_assoc, pure_bind,
        bind_pure, Frontier.insertAll_insertAll]
  | children | descendants => exact one .children rfl
  | allDescendants => exact one .descendants rfl
  | siblings => exact one .siblings rfl
  | parent | ancestors => exact one .parent rfl

namespace Program

/-- Runs one step of a simple path, which fails if it is missing, and reports on it. -/
def stepPart (setting : Setting Node Leaf Failure) (index : Nat) (last : Bool) :
    Option (Predicate Leaf) → Program Node Leaf Failure
  | none => fun _ => throw (.missingStep index)
  | some step => fun frontier => do
      let found ← step.step setting frontier
      let label ← setting.labelOf step
      Run.send setting.sink (.step label found.size)
      if found.isEmpty && !last then Run.send setting.sink .abort
      pure found

/-- The steps of a simple path, counted from the given index. -/
def stepParts (setting : Setting Node Leaf Failure) :
    Nat → List (Option (Predicate Leaf)) → List (Program Node Leaf Failure)
  | _, [] => []
  | index, step? :: rest =>
      stepPart setting index rest.isEmpty step? :: stepParts setting (index + 1) rest

theorem length_stepParts (setting : Setting Node Leaf Failure) (index : Nat)
    (steps : List (Option (Predicate Leaf))) :
    (stepParts setting index steps).length = steps.length := by
  induction steps generalizing index with
  | nil => rfl
  | cons step? rest ih => rw [stepParts, List.length_cons, ih, List.length_cons]

theorem getElem?_stepParts (setting : Setting Node Leaf Failure)
    (steps : List (Option (Predicate Leaf))) (index position : Nat) :
    (stepParts setting index steps)[position]? = steps[position]?.map
      (stepPart setting (index + position) (position + 1 == steps.length)) := by
  induction steps generalizing index position with
  | nil => rfl
  | cons step? rest ih =>
      rw [stepParts]
      cases position with
      | zero =>
          have single : rest.isEmpty = (0 + 1 == (step? :: rest).length) := by
            cases rest <;> rfl
          rw [List.getElem?_cons_zero, List.getElem?_cons_zero, Option.map_some, single]
          rfl
      | succ position =>
          have shifted : (position + 1 + 1 == (step? :: rest).length) =
              (position + 1 == rest.length) := by
            rw [List.length_cons, Bool.eq_iff_iff, beq_iff_eq, beq_iff_eq, Nat.add_left_inj]
          rw [List.getElem?_cons_succ, List.getElem?_cons_succ, ih, shifted, Nat.add_right_comm,
            Nat.add_assoc]

theorem mem_stepParts {setting : Setting Node Leaf Failure} {index : Nat}
    {steps : List (Option (Predicate Leaf))} {part : Program Node Leaf Failure}
    (member : part ∈ stepParts setting index steps) :
    ∃ step? ∈ steps, ∃ position last, part = stepPart setting position last step? := by
  obtain ⟨position, found⟩ := List.mem_iff_getElem?.mp member
  rw [getElem?_stepParts, Option.map_eq_some_iff] at found
  obtain ⟨step?, placed, rfl⟩ := found
  exact ⟨step?, List.mem_of_getElem? placed, _, _, rfl⟩

/-- Adds what a program finds from a start to what was found before. -/
def adding (start : Frontier Node) (program : Program Node Leaf Failure) :
    Program Node Leaf Failure :=
  fun found => do return found.insertAll (← program start).nodes

/-- Takes what a program finds from a start out of what was found before, between two lines. -/
def withdrawing (sink : Sink Failure) (start : Frontier Node)
    (program : Program Node Leaf Failure) : Program Node Leaf Failure :=
  fun found => do return found.removeAll (← Run.excluding sink (program start)).nodes

theorem runSteps_eq_sequence (setting : Setting Node Leaf Failure) (index : Nat)
    (steps : List (Option (Predicate Leaf))) (frontier : Frontier Node) :
    runSteps setting index steps frontier =
      Run.sequence Frontier.isEmpty (stepParts setting index steps) frontier := by
  induction steps generalizing index frontier with
  | nil => rfl
  | cons step? rest ih =>
      rw [stepParts]
      cases done : frontier.isEmpty with
      | true =>
          rw [Run.sequence_of_over _ done, Frontier.isEmpty_iff.mp done]
          cases step? <;> rfl
      | false =>
          rw [Run.sequence_cons_of_not_over _ _ done]
          cases step? with
          | none => rw [runSteps, done, if_neg Bool.false_ne_true]; rfl
          | some step =>
              rw [runSteps, done, if_neg Bool.false_ne_true]
              simp only [stepPart, bind_assoc, ih]
              congr 1
              funext found
              congr 1
              funext label
              congr 1
              funext _
              split <;> simp only [bind_assoc, pure_bind]

theorem simple_eq_sequence (setting : Setting Node Leaf Failure)
    (steps : List (Option (Predicate Leaf))) (start : Frontier Node) :
    simple setting steps start =
      Run.sequence Frontier.isEmpty (stepParts setting 0 steps) start := by
  rw [simple, runSteps_eq_sequence]
  cases done : start.isEmpty with
  | true => rw [if_pos rfl, Run.sequence_of_over _ done, Frontier.isEmpty_iff.mp done]
  | false => rw [if_neg Bool.false_ne_true]

theorem union_eq_sequence (delegates : List (Program Node Leaf Failure)) (start : Frontier Node) :
    union delegates start =
      Run.sequence (fun _ => start.isEmpty) (delegates.map (adding start)) ∅ := by
  rw [union]
  cases done : start.isEmpty with
  | true => rw [if_pos rfl, Run.sequence_of_over _ rfl]
  | false =>
      rw [if_neg Bool.false_ne_true]
      generalize (∅ : Frontier Node) = found
      induction delegates generalizing found with
      | nil => rfl
      | cons program rest ih =>
          rw [List.map_cons, Run.sequence_cons_of_not_over _ _ rfl, collect]
          simp only [adding, bind_assoc, pure_bind]
          congr 1
          funext result
          exact ih _

theorem chain_eq_sequence (links : List (Program Node Leaf Failure)) (start : Frontier Node) :
    chain links start = Run.sequence Frontier.isEmpty links start := by
  induction links generalizing start with
  | nil => rfl
  | cons link rest ih =>
      rw [chain, Run.sequence]
      cases done : start.isEmpty with
      | true => rw [if_pos rfl, if_pos rfl, Frontier.isEmpty_iff.mp done]
      | false =>
          rw [if_neg Bool.false_ne_true, if_neg Bool.false_ne_true]
          congr 1
          funext found
          exact ih found

theorem exclusion_eq_sequence (sink : Sink Failure) (base : Program Node Leaf Failure)
    (excluded : List (Program Node Leaf Failure)) (start : Frontier Node) :
    exclusion sink base excluded start =
      Run.sequence Frontier.isEmpty (base :: excluded.map (withdrawing sink start)) start := by
  have withdraws : ∀ found : Frontier Node,
      (if found.isEmpty then pure ∅ else withdraw sink excluded start found) =
        Run.sequence Frontier.isEmpty (excluded.map (withdrawing sink start)) found := by
    induction excluded with
    | nil =>
        intro found
        cases done : found.isEmpty with
        | true => rw [if_pos rfl, Frontier.isEmpty_iff.mp done]; rfl
        | false => rfl
    | cons program rest ih =>
        intro found
        cases done : found.isEmpty with
        | true => rw [if_pos rfl, Run.sequence_of_over _ done, Frontier.isEmpty_iff.mp done]
        | false =>
            rw [if_neg Bool.false_ne_true, List.map_cons, Run.sequence_cons_of_not_over _ _ done,
              withdraw_cons]
            simp only [withdrawing, bind_assoc, pure_bind]
            congr 1
            funext result
            exact ih _
  rw [exclusion]
  cases done : start.isEmpty with
  | true => rw [if_pos rfl, Run.sequence_of_over _ done, Frontier.isEmpty_iff.mp done]
  | false =>
      rw [if_neg Bool.false_ne_true, Run.sequence_cons_of_not_over _ _ done]
      congr 1
      funext found
      exact withdraws found

end Program

end TreeQuery
