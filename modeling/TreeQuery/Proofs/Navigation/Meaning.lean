import Mathlib.Data.Nat.Find
import Mathlib.Logic.Function.Iterate
import TreeQuery.Navigation
import TreeQuery.Proofs.Frontier.KeepFirst
import TreeQuery.Proofs.Path.Induction
import TreeQuery.Proofs.Predicate.Verdict
import TreeQuery.Proofs.Tree.Grounded

/-! # What paths denote

A path denotes a function on lists of nodes that is written down by recursion on the path and leaves
nothing out on the way: every step, every delegate, every excluded path and every link contributes,
whether or not there are nodes left. A traversal that deepens denotes the first of its repeated
moves in which a node passes the test. Navigation stops early in many places and yet arrives at
exactly these nodes, in this order (`TreeQuery.Path.navigate_settles_on_meaning`).
-/

namespace TreeQuery

variable {Node Leaf Failure : Type}

/-- What a traversal along an axis asks the host about each node. -/
def Axis.relations : Axis → List Relation
  | children | descendants => [.children]
  | allDescendants => [.descendants]
  | siblings => [.siblings]
  | parent | ancestors => [.parent]
  | neighbours => [.children, .parent]

/-- The nodes to which an axis leads from a node. -/
def Axis.reached (host : Host Node Failure) (axis : Axis) (node : Node) : List Node :=
  axis.relations.flatMap fun relation => (host.related relation node).nodes

variable [Keyed Node]

/-- The nodes reached from a list, the first one of each key. -/
def Axis.moved (host : Host Node Failure) (axis : Axis) (nodes : List Node) : List Node :=
  Frontier.keepFirst (nodes.flatMap (axis.reached host))

open Classical in
/-- The accepted nodes of the first repeated move that has some. -/
noncomputable def firstMatch (move : List Node → List Node) (accepts : Node → Bool)
    (nodes : List Node) : List Node :=
  if found : ∃ count, (move^[count + 1] nodes).filter accepts ≠ [] then
    (move^[Nat.find found + 1] nodes).filter accepts
  else []

/-- The nodes that a step selects: a traversal moves and then filters, and any other predicate only
filters. -/
noncomputable def Predicate.selected (host : Host Node Failure)
    (answer : Leaf → Node → Except (Fault Failure) Value) :
    Predicate Leaf → List Node → List Node
  | traversal axis inner, nodes =>
      if axis.deepens then firstMatch (axis.moved host) (inner.holds answer) nodes
      else (axis.moved host nodes).filter (inner.holds answer)
  | predicate, nodes => nodes.filter (predicate.holds answer)

namespace Path

mutual

/-- What a path denotes. A missing step and a stray denote that nothing is found. -/
noncomputable def meaning (host : Host Node Failure)
    (answer : Leaf → Node → Except (Fault Failure) Value) : Path Leaf → List Node → List Node
  | simple steps, start =>
      steps.foldl
        (fun nodes step? => step?.elim [] fun step => step.selected host answer nodes)
        (Frontier.keepFirst start)
  | union delegates, start =>
      Frontier.keepFirst ((meanings host answer delegates).flatMap fun denote => denote start)
  | exclusion base excluded, start =>
      Frontier.without
        (((meanings host answer excluded).flatMap fun denote => denote start).map Keyed.key)
        (meaning host answer base start)
  | chain links, start =>
      (meanings host answer links).foldl (fun nodes denote => denote nodes)
        (Frontier.keepFirst start)
  | traced _ body, start => meaning host answer body start
  | stray _, _ => []

noncomputable def meanings (host : Host Node Failure)
    (answer : Leaf → Node → Except (Fault Failure) Value) :
    List (Path Leaf) → List (List Node → List Node)
  | [] => []
  | path :: rest => meaning host answer path :: meanings host answer rest

end

end Path

section FirstMatch

variable {move : List Node → List Node} {accepts : Node → Bool} {nodes : List Node}

omit [Keyed Node]

/-- The first match is made of the accepted nodes of a move before which nothing was accepted. -/
theorem firstMatch_of_first {count : Nat} (matched : (move^[count + 1] nodes).filter accepts ≠ [])
    (before : ∀ earlier < count, (move^[earlier + 1] nodes).filter accepts = []) :
    firstMatch move accepts nodes = (move^[count + 1] nodes).filter accepts := by
  classical
  have found : ∃ count, (move^[count + 1] nodes).filter accepts ≠ [] := ⟨count, matched⟩
  have first : Nat.find found = count :=
    (Nat.find_eq_iff found).mpr ⟨matched, fun earlier less => not_not.mpr (before earlier less)⟩
  rw [firstMatch, dif_pos found]
  convert rfl using 4
  exact first.symm

/-- Where no round matches nothing is found. -/
theorem firstMatch_of_none (unmatched : ∀ count, (move^[count + 1] nodes).filter accepts = []) :
    firstMatch move accepts nodes = [] := by
  rw [firstMatch, dif_neg]
  rintro ⟨count, matched⟩
  exact matched (unmatched count)

/-- Where the first round matches its matches are found. -/
theorem firstMatch_of_match (matched : (move nodes).filter accepts ≠ []) :
    firstMatch move accepts nodes = (move nodes).filter accepts :=
  firstMatch_of_first matched fun _ less => absurd less (Nat.not_lt_zero _)

/-- A move without a match may be made beforehand. -/
theorem firstMatch_of_no_match (unmatched : (move nodes).filter accepts = []) :
    firstMatch move accepts nodes = firstMatch move accepts (move nodes) := by
  classical
  by_cases found : ∃ count, (move^[count + 1] (move nodes)).filter accepts ≠ []
  · have before : ∀ earlier < Nat.find found,
        (move^[earlier + 1] (move nodes)).filter accepts = [] :=
      fun earlier less => not_not.mp (Nat.find_min found less)
    rw [firstMatch_of_first (Nat.find_spec found) before]
    have matched : (move^[Nat.find found + 1 + 1] nodes).filter accepts ≠ [] := Nat.find_spec found
    refine firstMatch_of_first matched fun earlier less => ?_
    cases earlier with
    | zero => exact unmatched
    | succ earlier => exact before earlier (Nat.lt_of_succ_lt_succ less)
  · have none : ∀ count, (move^[count + 1] (move nodes)).filter accepts = [] :=
      fun count => not_not.mp fun matched => found ⟨count, matched⟩
    rw [firstMatch_of_none none]
    refine firstMatch_of_none fun count => ?_
    cases count with
    | zero => exact unmatched
    | succ count => exact none count

/-- From nowhere nothing is found. -/
theorem firstMatch_nil (still : move [] = []) : firstMatch move accepts [] = [] := by
  refine firstMatch_of_none fun count => ?_
  rw [Function.iterate_fixed still, List.filter_nil]

/-- The first match consists of the accepted nodes of the first move that leads to some. -/
theorem mem_firstMatch {found : Node} :
    found ∈ firstMatch move accepts nodes ↔
      ∃ count, found ∈ move^[count + 1] nodes ∧ accepts found = true ∧
        ∀ earlier other, other ∈ move^[earlier + 1] nodes → accepts other = true →
          count ≤ earlier := by
  classical
  constructor
  · intro member
    unfold firstMatch at member
    split at member
    · next matched =>
        obtain ⟨reached, accepted⟩ := List.mem_filter.mp member
        refine ⟨Nat.find matched, reached, accepted, fun earlier other present passes => ?_⟩
        apply Nat.find_min' matched
        exact List.ne_nil_of_mem (List.mem_filter.mpr ⟨present, passes⟩)
    · exact absurd member List.not_mem_nil
  · rintro ⟨count, reached, accepted, least⟩
    have member := List.mem_filter.mpr ⟨reached, accepted⟩
    rw [firstMatch_of_first (List.ne_nil_of_mem member)]
    · exact member
    · intro earlier less
      rw [List.filter_eq_nil_iff]
      intro other present passes
      exact absurd (least earlier other present passes) (Nat.not_le_of_lt less)

/-- Nothing is found exactly when no move leads to an accepted node. -/
theorem firstMatch_eq_nil_iff :
    firstMatch move accepts nodes = [] ↔ ∀ count, (move^[count + 1] nodes).filter accepts = [] := by
  constructor
  · intro nothing count
    by_contra matched
    have found : ∃ count, (move^[count + 1] nodes).filter accepts ≠ [] := ⟨count, matched⟩
    rw [firstMatch, dif_pos found] at nothing
    exact Nat.find_spec found nothing
  · exact firstMatch_of_none

/-- Where the moves are met in order by a list, so is the first match. -/
theorem firstMatch_sublist {all : List Node}
    (ordered : ∀ count, (move^[count + 1] nodes).Sublist all) :
    (firstMatch move accepts nodes).Sublist (all.filter accepts) := by
  unfold firstMatch
  split
  · exact (ordered _).filter accepts
  · exact List.nil_sublist _

end FirstMatch

section Laws

variable (host : Host Node Failure) (answer : Leaf → Node → Except (Fault Failure) Value)

theorem Axis.moved_nil (axis : Axis) : axis.moved host [] = [] := rfl

/-- A step selects nothing from nothing. -/
theorem Predicate.selected_nil (step : Predicate Leaf) : step.selected host answer [] = [] := by
  cases step with
  | traversal axis inner =>
      rw [selected]
      cases axis.deepens with
      | true => exact firstMatch_nil (axis.moved_nil host)
      | false => rfl
  | _ => rfl

namespace Path

theorem meanings_eq_map (paths : List (Path Leaf)) :
    meanings host answer paths = paths.map (meaning host answer) := by
  induction paths with
  | nil => rw [meanings, List.map_nil]
  | cons path rest ih => rw [meanings, ih, List.map_cons]

/-- Steps in a row select nothing from nothing. -/
theorem foldl_selected_nil (steps : List (Option (Predicate Leaf))) :
    steps.foldl (fun nodes step? => step?.elim [] fun step => step.selected host answer nodes)
      [] = [] := by
  induction steps with
  | nil => rfl
  | cons step? rest ih =>
      rw [List.foldl_cons]
      cases step? with
      | none => exact ih
      | some step => rw [Option.elim_some, step.selected_nil, ih]

/-- A path finds nothing from nowhere. -/
theorem meaning_nil (path : Path Leaf) : path.meaning host answer [] = [] := by
  induction path using induct with
  | simple steps =>
      rw [meaning]
      exact foldl_selected_nil host answer steps
  | union delegates ih =>
      have nothing : (delegates.flatMap fun delegate => delegate.meaning host answer []) = [] :=
        List.flatMap_eq_nil_iff.mpr ih
      rw [meaning, meanings_eq_map, List.flatMap_map, nothing]
      rfl
  | exclusion base excluded baseIH _ =>
      rw [meaning, baseIH]
      rfl
  | chain links ih =>
      rw [meaning, meanings_eq_map, List.foldl_map]
      induction links with
      | nil => rfl
      | cons link rest later =>
          rw [List.foldl_cons, Frontier.keepFirst, ih link List.mem_cons_self]
          exact later fun other member => ih other (List.mem_cons_of_mem _ member)
  | traced title body ih => rw [meaning, ih]
  | stray operand? => rw [meaning]

/-- Only the first node of each key counts where a path starts. -/
theorem meaning_keepFirst (path : Path Leaf) (start : List Node) :
    path.meaning host answer (Frontier.keepFirst start) = path.meaning host answer start := by
  induction path using induct with
  | simple steps => rw [meaning, meaning, Frontier.keepFirst_keepFirst]
  | union delegates ih =>
      rw [meaning, meaning, meanings_eq_map, List.flatMap_map, List.flatMap_map,
        List.flatMap_congr ih]
  | exclusion base excluded baseIH excludedIH =>
      rw [meaning, meaning, meanings_eq_map, List.flatMap_map, List.flatMap_map,
        List.flatMap_congr excludedIH, baseIH]
  | chain links _ => rw [meaning, meaning, Frontier.keepFirst_keepFirst]
  | traced title body ih => rw [meaning, meaning, ih]
  | stray operand? => rw [meaning, meaning]

end Path

end Laws

end TreeQuery
