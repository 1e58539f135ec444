import TreeQuery.Proofs.Navigation.Found
import TreeQuery.Proofs.Navigation.Steps
import TreeQuery.Proofs.Navigation.Termination

/-! # Where paths stay

Where the host does not lead out of a region, whether or not it fails there, no path does that comes
to a result, whatever its steps and whatever sink it reports to
(`TreeQuery.Path.inside_of_run_yields`). In particular nothing is found from nowhere.
-/

namespace TreeQuery

variable {Node Leaf Failure : Type} {setting : Setting Node Leaf Failure} {region : Set Node}

/-- A host that does not lead out of a region, though its listings may break off. -/
def Host.StaysIn (host : Host Node Failure) (region : Set Node) : Prop :=
  ∀ relation, ∀ node ∈ region, ∀ other ∈ (host.related relation node).nodes, other ∈ region

theorem Host.staysIn_of_confined {host : Host Node Failure}
    (confined : ∀ relation, Tree.Confined (host.related relation) region) : host.StaysIn region :=
  fun relation node inside => (confined relation node inside).2

/-- Where neither children nor parents lead out of a region, neither do the descendants and siblings
that are derived from them. -/
theorem Host.staysIn_ofLinks [Keyed Node] {children : Node → Listing Node Failure}
    {parent : Node → Except (Fault Failure) (Option Node)}
    (down : ∀ node ∈ region, ∀ below ∈ (children node).nodes, below ∈ region)
    (up : ∀ node ∈ region, ∀ above, parent node = .ok (some above) → above ∈ region)
    (patience : Nat) : (Host.ofLinks patience children parent).StaysIn region := by
  intro relation node inside other listed
  cases relation with
  | children => exact down node inside other listed
  | descendants =>
      apply Tree.mem_region_of_mem_unwind down patience _ listed
      rw [List.forall_mem_singleton]
      exact down node inside
  | siblings =>
      simp only [related, ofLinks, besides] at listed
      split at listed
      · exact absurd listed List.not_mem_nil
      · exact absurd listed List.not_mem_nil
      · next above named =>
          exact down above (up node inside above named) other (List.mem_filter.mp listed).1
  | parent =>
      simp only [related, ofLinks] at listed
      split at listed
      · next above? named =>
          obtain rfl : above? = some other := Option.mem_toList.mp listed
          exact up node inside other named
      · exact absurd listed List.not_mem_nil

variable [Keyed Node] (closed : setting.host.StaysIn region)

include closed

theorem Axis.mem_region_of_mem_moved {axis : Axis} {nodes : List Node}
    (inside : ∀ node ∈ nodes, node ∈ region) :
    ∀ node ∈ axis.moved setting.host nodes, node ∈ region := by
  intro node member
  obtain ⟨above, present, reached⟩ := List.mem_flatMap.mp (Frontier.mem_of_mem_keepFirst member)
  obtain ⟨relation, _, listed⟩ := List.mem_flatMap.mp reached
  exact closed relation above (inside above present) node listed

/-- Where the host stays within a region, so does what a step selects. -/
theorem Predicate.mem_region_of_mem_selected {step : Predicate Leaf} {nodes : List Node}
    (inside : ∀ node ∈ nodes, node ∈ region) :
    ∀ node ∈ step.selected setting.host setting.answer nodes, node ∈ region := by
  intro node member
  cases step with
  | traversal axis inner =>
      have moves : ∀ count, ∀ node ∈ (axis.moved setting.host)^[count] nodes, node ∈ region := by
        intro count
        induction count with
        | zero => exact inside
        | succ count ih =>
            rw [Function.iterate_succ_apply']
            exact Axis.mem_region_of_mem_moved closed ih
      rw [selected] at member
      split at member
      · obtain ⟨count, reached, _⟩ := mem_firstMatch.mp member
        exact moves (count + 1) node reached
      · exact moves 1 node (List.mem_filter.mp member).1
  | _ => exact inside node (List.mem_filter.mp member).1

theorem Program.inside_of_stepPart_yields {index : Nat} {last : Bool}
    {step? : Option (Predicate Leaf)} {frontier found : Frontier Node}
    (inside : frontier.Inside region)
    (yields : (stepPart setting index last step? frontier).Yields found) :
    found.Inside region := by
  cases step? with
  | none => exact absurd yields Run.Yields.not_throw
  | some step =>
      obtain ⟨selected, stepped, reported⟩ := yields.of_bind
      obtain ⟨label, _, sent⟩ := reported.of_bind
      obtain ⟨_, _, rest⟩ := sent.of_bind
      have result : found = selected := by
        split at rest
        · obtain ⟨_, _, ended⟩ := rest.of_bind
          exact ended.of_pure
        · exact rest.of_pure
      rw [result, Frontier.Inside, Predicate.nodes_of_step_yields stepped]
      exact Predicate.mem_region_of_mem_selected closed inside

/-- Where the host stays within a region, so does every path that comes to a result. -/
theorem Path.inside_of_run_yields {path : Path Leaf} {start found : Frontier Node}
    (inside : start.Inside region) (yields : (path.run setting start).Yields found) :
    found.Inside region := by
  induction path using induct generalizing start found with
  | simple steps =>
      rw [run, Program.simple_eq_sequence] at yields
      refine yields.of_sequence (fun part member frontier next within stepped => ?_) inside
      obtain ⟨step?, among, index, last, rfl⟩ := Program.mem_stepParts member
      exact Program.inside_of_stepPart_yields closed within stepped
  | union delegates ih =>
      rw [run, Program.union_eq_sequence, runs_eq_map, List.map_map] at yields
      refine yields.of_sequence (fun part member before next within added => ?_)
        Frontier.inside_empty
      obtain ⟨delegate, among, rfl⟩ := List.mem_map.mp member
      obtain ⟨result, ended, taken⟩ := added.of_bind
      exact taken.of_pure ▸ within.insertAll (ih delegate among inside ended)
  | exclusion base excluded baseIH _ =>
      rw [run, Program.exclusion_eq_sequence, runs_eq_map, List.map_map] at yields
      refine yields.of_sequence (fun part member before next within ended => ?_) inside
      rcases List.mem_cons.mp member with rfl | later
      · exact baseIH within ended
      · obtain ⟨path, among, rfl⟩ := List.mem_map.mp later
        obtain ⟨result, _, taken⟩ := ended.of_bind
        exact taken.of_pure ▸ within.removeAll result.nodes
  | chain links ih =>
      rw [run, Program.chain_eq_sequence, runs_eq_map] at yields
      refine yields.of_sequence (fun part member before next within ended => ?_) inside
      obtain ⟨link, among, rfl⟩ := List.mem_map.mp member
      exact ih link among within ended
  | traced title body ih =>
      rw [run] at yields
      exact ih inside yields.of_traced
  | stray operand? => exact absurd yields Run.Yields.not_throw

omit closed in
/-- Nothing is found from nowhere. -/
theorem Path.eq_empty_of_run_yields {path : Path Leaf} {found : Frontier Node}
    (yields : (path.run setting ∅).Yields found) : found = ∅ := by
  have nowhere : setting.host.StaysIn (∅ : Set Node) :=
    fun _ _ outside => absurd outside (Set.notMem_empty _)
  have none := inside_of_run_yields nowhere Frontier.inside_empty yields
  exact Frontier.ext_nodes (List.eq_nil_iff_forall_not_mem.mpr none)

end TreeQuery
