import TreeQuery.Proofs.Navigation.Renaming
import TreeQuery.Proofs.Tree.Descent

/-! # Trees over renamed nodes

When children and parents are the same under other names, then so is all that a host derives from
them, the descendants found by walking down among it, however far the walk gets
(`TreeQuery.Host.ofLinks_renamed`).
-/

namespace TreeQuery

variable {Node Other Failure : Type} {rename : Node → Other} {region : Set Node}
  {children : Node → Listing Node Failure} {kids : Other → Listing Other Failure}

/-- A stack of the same listings under other names hands out the same nodes under other names. -/
theorem Host.unwind_renamed
    (below : ∀ node ∈ region, kids (rename node) = (children node).renamed rename ∧
      ∀ found ∈ (children node).nodes, found ∈ region) (moves : Nat)
    {stack : List (Listing Node Failure)}
    (inside : ∀ listing ∈ stack, ∀ node ∈ listing.nodes, node ∈ region) :
    unwind kids moves (stack.map (Listing.renamed rename)) =
      (unwind children moves stack).renamed rename := by
  induction moves generalizing stack with
  | zero => rfl
  | succ moves ih =>
      match stack with
      | [] => rfl
      | ⟨[], some fault⟩ :: stack => rfl
      | ⟨[], none⟩ :: stack => exact ih fun listing held => inside listing (.tail _ held)
      | ⟨node :: rest, fault?⟩ :: stack =>
          obtain ⟨top, others⟩ := List.forall_mem_cons.mp inside
          obtain ⟨here, later⟩ := List.forall_mem_cons.mp top
          obtain ⟨renamed, within⟩ := below node here
          have held : ∀ listing ∈ children node :: ⟨rest, fault?⟩ :: stack,
              ∀ other ∈ listing.nodes, other ∈ region := by
            rw [List.forall_mem_cons, List.forall_mem_cons]
            exact ⟨within, later, others⟩
          have next := ih held
          rw [List.map_cons, ← renamed] at next
          exact congrArg (Listing.cons (rename node)) next

variable [Keyed Node] [Keyed Other] {parent : Node → Except (Fault Failure) (Option Node)}
  {parents : Other → Except (Fault Failure) (Option Other)}

/-- A host of the same children and parents under other names has the same relations. -/
theorem Host.ofLinks_renamed (keeps : KeepsKeys rename region)
    (below : ∀ node ∈ region, kids (rename node) = (children node).renamed rename ∧
      ∀ found ∈ (children node).nodes, found ∈ region)
    (above : ∀ node ∈ region, parents (rename node) = (parent node).map (Option.map rename) ∧
      ∀ upper, parent node = .ok (some upper) → upper ∈ region) (patience : Nat) :
    Host.Renamed rename region (.ofLinks patience children parent)
      (.ofLinks patience kids parents) := by
  intro relation node inside
  obtain ⟨up, within⟩ := above node inside
  cases relation with
  | children => exact below node inside
  | descendants =>
      have held : ∀ listing ∈ [children node], ∀ found ∈ listing.nodes, found ∈ region :=
        List.forall_mem_singleton.mpr (below node inside).2
      refine ⟨?_, fun found member => ?_⟩
      · have same := unwind_renamed below patience held
        rw [List.map_singleton, ← (below node inside).1] at same
        exact congrArg Listing.relayed same
      · exact Tree.mem_region_of_mem_unwind (fun node here => (below node here).2) patience held
          member
  | siblings =>
      simp only [related, ofLinks, besides, up]
      cases found : parent node with
      | error fault => exact ⟨rfl, fun _ member => absurd member List.not_mem_nil⟩
      | ok above? =>
          cases above? with
          | none => exact ⟨rfl, fun _ member => absurd member List.not_mem_nil⟩
          | some upper =>
              obtain ⟨same, others⟩ := below upper (within upper found)
              refine ⟨?_, fun other member => others other (List.mem_filter.mp member).1⟩
              simp only [Except.map, Option.map, same, Listing.filter, Listing.relayed,
                Listing.renamed, List.filter_map, Listing.mk.injEq, and_true]
              congr 1
              apply List.filter_congr
              intro other member
              exact decide_eq_decide.mpr (not_congr (keeps other (others other member) node inside))
  | parent =>
      simp only [related, ofLinks, up]
      cases found : parent node with
      | error fault => exact ⟨rfl, fun _ member => absurd member List.not_mem_nil⟩
      | ok above? =>
          cases above? with
          | none => exact ⟨rfl, fun _ member => absurd member List.not_mem_nil⟩
          | some upper =>
              exact ⟨rfl, List.forall_mem_singleton.mpr (within upper found)⟩

end TreeQuery
