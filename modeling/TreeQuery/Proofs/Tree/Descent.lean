import Mathlib.Order.Filter.AtTopBot.Basic
import Mathlib.Order.Filter.Finite
import TreeQuery.Proofs.Tree.Preorder

/-! # Walking down comes to an end

Below the nodes of an enclosed region the stack of unfinished listings runs empty, also when nodes
hang on several others and are met more than once, and when listings break off. So a host that
derives descendants and siblings from children and parents has listings that come to an end
(`TreeQuery.Tree.Enclosed.eventually_halting_related`).
-/

namespace TreeQuery.Tree

open Filter

variable {Node Failure : Type} {children : Node → Listing Node Failure} {region : Set Node}

/-- What a stack hands out stays within a region that children do not lead out of. -/
theorem mem_region_of_mem_unwind
    (within : ∀ node ∈ region, ∀ below ∈ (children node).nodes, below ∈ region) (moves : Nat)
    {stack : List (Listing Node Failure)}
    (inside : ∀ listing ∈ stack, ∀ node ∈ listing.nodes, node ∈ region) {found : Node}
    (member : found ∈ (Host.unwind children moves stack).nodes) : found ∈ region := by
  induction moves generalizing stack with
  | zero => exact absurd member List.not_mem_nil
  | succ moves ih =>
      match stack with
      | [] => exact absurd member List.not_mem_nil
      | ⟨[], some fault⟩ :: stack => exact absurd member List.not_mem_nil
      | ⟨[], none⟩ :: stack => exact ih (fun listing below => inside listing (.tail _ below)) member
      | ⟨node :: rest, fault?⟩ :: stack =>
          have here : node ∈ region := inside _ List.mem_cons_self node List.mem_cons_self
          rcases List.mem_cons.mp member with rfl | later
          · exact here
          · apply ih _ later
            intro listing held
            rcases List.mem_cons.mp held with rfl | held
            · exact within node here
            · rcases List.mem_cons.mp held with rfl | below
              · intro other among
                exact inside _ List.mem_cons_self other (.tail _ among)
              · exact inside listing (.tail _ below)

namespace Enclosed

/-- With moves enough the descendants of every node are listed to the end. -/
theorem eventually_halting_descend (enclosed : Enclosed children region) :
    ∀ᶠ patience in atTop, Halting (Host.descend patience children) region := by
  obtain ⟨preorder, unfolds⟩ := enclosed.exists_unfolds
  have each : ∀ node ∈ region, ∀ᶠ patience in atTop,
      (Host.descend patience children node).fault? ≠ some .exhausted := by
    intro node inside
    filter_upwards [eventually_ge_atTop _] with patience enough spent
    rw [(unfolds.descend_eq enclosed.halting patience inside).2 enough,
      Listing.fault?_relayed_eq_exhausted_iff] at spent
    have comes := Listing.error_mem_of_upToFault spent
    obtain ⟨lower, below, breaks⟩ := unfolds.exists_fault enclosed inside comes
    exact (enclosed.halting lower below).1 breaks
  have all := (eventually_all_finite enclosed.finite).mpr each
  refine all.mono fun patience ends node inside => ⟨ends node inside, fun found member => ?_⟩
  apply mem_region_of_mem_unwind (fun node here => (enclosed.halting node here).2) patience _ member
  rw [List.forall_mem_singleton]
  exact (enclosed.halting node inside).2

variable [Keyed Node] {parent : Node → Except (Fault Failure) (Option Node)}

/-- With moves enough all that a host of children and parents lists comes to an end. -/
theorem eventually_halting_related (enclosed : Enclosed children region)
    (upward : Halting ((Host.ofLinks 0 children parent).related .parent) region) :
    ∀ᶠ patience in atTop, ∀ relation,
      Halting ((Host.ofLinks patience children parent).related relation) region := by
  refine enclosed.eventually_halting_descend.mono fun patience descends relation => ?_
  cases relation with
  | children => exact enclosed.halting
  | descendants => exact descends
  | parent => exact upward
  | siblings =>
      intro node inside
      have way := upward node inside
      simp only [Host.related, Host.ofLinks, Host.besides] at way ⊢
      cases up : parent node with
      | error fault =>
          rw [up] at way
          exact ⟨mt Listing.fault?_relayed_eq_exhausted_iff.mp way.1, way.2⟩
      | ok above? =>
          cases above? with
          | none =>
              have nothing : ∀ other ∈ ([] : List Node), other ∈ region :=
                fun _ member => absurd member List.not_mem_nil
              exact ⟨(Option.some_ne_none _).symm, nothing⟩
          | some above =>
              rw [up] at way
              have beside := enclosed.halting above (way.2 above (List.mem_singleton_self above))
              refine ⟨mt Listing.fault?_relayed_eq_exhausted_iff.mp beside.1, fun other member => ?_⟩
              exact beside.2 other (List.mem_filter.mp member).1

end Enclosed

end TreeQuery.Tree
