import TreeQuery.Proofs.Tree.Preorder

/-! # Walking down a tree

A host that knows only children derives descendants with a stack of unfinished listings. Where no
listing breaks off, what the stack hands out is a walk: each node of a forest, followed at once by
the walk through its children. A walk meets every node below the forest, and the nodes of one
generation in the order in which repeated moves to the children find them. In a region where every
node is listed as a child once, a walk meets no node twice, so the number of nodes bounds the moves
of the stack (`TreeQuery.Tree.IsTree.descend_settles`).
-/

namespace TreeQuery.Tree

variable {Node Failure : Type} {children : Node → Listing Node Failure} {region : Set Node}

/-- The nodes of a forest, each followed by the walk through its children. -/
inductive Walk (children : Node → Listing Node Failure) : List Node → List Node → Prop where
  | nil : Walk children [] []
  | cons {node : Node} {kids rest inner outer : List Node} :
      children node = ⟨kids, none⟩ → Walk children kids inner → Walk children rest outer →
        Walk children (node :: rest) (node :: (inner ++ outer))

def offspring (children : Node → Listing Node Failure) (forest : List Node) : List Node :=
  forest.flatMap fun node => (children node).nodes

/-- The generations of two forests side by side are side by side. -/
theorem iterate_offspring_append (count : Nat) (first second : List Node) :
    (offspring children)^[count] (first ++ second) =
      (offspring children)^[count] first ++ (offspring children)^[count] second := by
  induction count generalizing first second with
  | zero => rfl
  | succ count ih =>
      have split : offspring children (first ++ second) =
          offspring children first ++ offspring children second := List.flatMap_append
      rw [Function.iterate_succ_apply, split, ih]
      rfl

namespace Walk

variable {forest listing : List Node}

/-- A walk meets the nodes at any depth below the forest. -/
theorem mem_iff (walk : Walk children forest listing) {below : Node} :
    below ∈ listing ↔ ∃ above ∈ forest, ∃ depth, Descends children above depth below := by
  induction walk with
  | nil => simp
  | @cons node kids rest inner outer listed _ _ innerIH outerIH =>
      have kidsOf : (children node).nodes = kids := by rw [listed]
      rw [List.mem_cons, List.mem_append, innerIH, outerIH]
      constructor
      · rintro (rfl | ⟨kid, member, depth, descends⟩ | ⟨above, member, deeper⟩)
        · exact ⟨below, List.mem_cons_self, 0, .here⟩
        · exact ⟨node, List.mem_cons_self, depth + 1, descends.of_child (kidsOf ▸ member)⟩
        · exact ⟨above, List.mem_cons_of_mem _ member, deeper⟩
      · rintro ⟨above, member, depth, descends⟩
        rcases List.mem_cons.mp member with rfl | later
        · cases depth with
          | zero =>
              cases descends
              exact .inl rfl
          | succ depth =>
              obtain ⟨kid, first, lower⟩ := descends.exists_child
              exact .inr (.inl ⟨kid, kidsOf ▸ first, depth, lower⟩)
        · exact .inr (.inr ⟨above, later, depth, descends⟩)

/-- Every generation of the forest is met in its order. -/
theorem iterate_offspring_sublist (walk : Walk children forest listing) (count : Nat) :
    ((offspring children)^[count] forest).Sublist listing := by
  induction walk generalizing count with
  | nil =>
      have still : offspring children [] = [] := rfl
      rw [Function.iterate_fixed still]
  | @cons node kids rest inner outer listed _ _ innerIH outerIH =>
      cases count with
      | zero =>
          have later : rest.Sublist outer := outerIH 0
          exact (later.trans (List.sublist_append_right inner outer)).cons_cons node
      | succ count =>
          have next : offspring children (node :: rest) = kids ++ offspring children rest := by
            rw [offspring, List.flatMap_cons, listed]
            rfl
          rw [Function.iterate_succ_apply, next, iterate_offspring_append]
          exact ((innerIH count).append (outerIH (count + 1))).cons node

/-- A walk through a forest goes through its nodes one after the other. -/
theorem flatMap {ι : Type} {node : ι → Node} {reached : ι → List Node} {indices : List ι}
    (walks : ∀ index ∈ indices, Walk children [node index] (reached index)) :
    Walk children (indices.map node) (indices.flatMap reached) := by
  induction indices with
  | nil => exact .nil
  | cons index rest ih =>
      rw [List.forall_mem_cons] at walks
      have here := walks.1
      rw [List.map_cons, List.flatMap_cons]
      generalize reached index = first at here
      cases here with
      | cons listed below beside =>
          cases beside
          rw [List.append_nil]
          exact .cons listed below (ih walks.2)

/-- There is one walk through a forest at most. -/
theorem eq_of_walk (walk : Walk children forest listing) {other : List Node}
    (again : Walk children forest other) : listing = other := by
  induction walk generalizing other with
  | nil =>
      cases again
      rfl
  | cons listed _ _ innerIH outerIH =>
      cases again with
      | cons listedAgain inner outer =>
          cases listed.symm.trans listedAgain
          rw [innerIH inner, outerIH outer]

/-- From a forest there is a walk if there is one from below each of its nodes. -/
theorem exists_of_forall (each : ∀ node ∈ forest, (children node).fault? = none ∧
    ∃ inner, Walk children (children node).nodes inner) :
    ∃ listing, Walk children forest listing := by
  induction forest with
  | nil => exact ⟨[], .nil⟩
  | cons node rest ih =>
      obtain ⟨⟨ends, inner, below⟩, later⟩ := List.forall_mem_cons.mp each
      obtain ⟨outer, beside⟩ := ih later
      have whole : children node = ⟨(children node).nodes, none⟩ := by rw [← ends]
      exact ⟨node :: (inner ++ outer), .cons whole below beside⟩

/-- What comes with the nodes of a forest and below them is the walk. -/
theorem interleave_eq {preorder : Node → List (Except (Fault Failure) Node)}
    (unfolds : Unfolds children region preorder) (confined : Confined children region)
    (walk : Walk children forest listing) (inside : ∀ node ∈ forest, node ∈ region) :
    (⟨forest, none⟩ : Listing Node Failure).interleave preorder = listing.map .ok := by
  induction walk with
  | nil => rfl
  | @cons node kids rest inner outer listed _ _ innerIH outerIH =>
      obtain ⟨here, later⟩ := List.forall_mem_cons.mp inside
      have kidsInside := (confined node here).2
      rw [listed] at kidsInside
      have below := unfolds node here
      rw [listed, innerIH kidsInside] at below
      have beside := outerIH later
      rw [Listing.interleave_cons, below, beside, List.map_cons, List.map_append]

/-- The descendants of a node are the walk through its children. -/
theorem descend_eq (grounded : Grounded children region) {node : Node} (inside : node ∈ region)
    (walk : Walk children (children node).nodes listing) {patience : Nat}
    (patient : 2 * listing.length + 2 ≤ patience) :
    Host.descend patience children node = ⟨listing, none⟩ := by
  obtain ⟨preorder, unfolds⟩ := grounded.enclosed.exists_unfolds
  have ends := grounded.confined node inside
  have whole : children node = ⟨(children node).nodes, none⟩ := by rw [← ends.1]
  have comes := unfolds node inside
  rw [whole, walk.interleave_eq unfolds grounded.confined ends.2] at comes
  have settles := (unfolds.descend_eq grounded.enclosed.halting patience inside).2
  rw [comes, Listing.upToFault_map_ok] at settles
  exact settles patient

end Walk

/-- From a forest of a grounded region there is a walk. -/
theorem Grounded.exists_walk (grounded : Grounded children region) {forest : List Node}
    (inside : ∀ node ∈ forest, node ∈ region) : ∃ listing, Walk children forest listing := by
  have below : ∀ node ∈ region, (children node).fault? = none ∧
      ∃ inner, Walk children (children node).nodes inner := by
    intro node here
    refine ⟨(grounded.confined node here).1, ?_⟩
    induction node, here using grounded.enclosed.induction_on with
    | step node here lower =>
        apply Walk.exists_of_forall
        intro kid listed
        have under := (grounded.confined node here).2 kid listed
        exact ⟨(grounded.confined kid under).1, lower kid listed⟩
  exact Walk.exists_of_forall fun node member => below node (inside node member)

/-- A grounded region in which every node is listed as a child at most once. -/
structure IsTree (children : Node → Listing Node Failure) (region : Set Node) : Prop
    extends Grounded children region where
  once : ∀ node ∈ region, (children node).nodes.Nodup
  single : ∀ left ∈ region, ∀ right ∈ region, ∀ node, node ∈ (children left).nodes →
    node ∈ (children right).nodes → left = right

/-- Nodes of a forest that have nothing below them in common. -/
def Apart (children : Node → Listing Node Failure) (forest : List Node) : Prop :=
  forest.Nodup ∧ ∀ left ∈ forest, ∀ right ∈ forest, ∀ below leftDepth rightDepth,
    Descends children left leftDepth below → Descends children right rightDepth below →
      left = right

theorem Apart.tail {node : Node} {rest : List Node} (apart : Apart children (node :: rest)) :
    Apart children rest := by
  refine ⟨(List.nodup_cons.mp apart.1).2, ?_⟩
  intro left leftMember right rightMember
  exact apart.2 left (.tail _ leftMember) right (.tail _ rightMember)

namespace IsTree

/-- Of two nodes above a third the one further up is above the other. -/
theorem descends_of_add (tree : IsTree children region) {left right below : Node}
    (leftInside : left ∈ region) (rightInside : right ∈ region) {depth more : Nat}
    (near : Descends children left depth below)
    (far : Descends children right (more + depth) below) :
    Descends children right more left := by
  induction near with
  | here => exact far
  | child higher listed ih =>
      cases far with
      | child further again =>
          have leftMiddle := higher.mem_region tree.confined leftInside
          have rightMiddle := further.mem_region tree.confined rightInside
          have same := tree.single _ leftMiddle _ rightMiddle _ listed again
          exact ih (same ▸ further)

/-- No child of a node is below another one. -/
theorem eq_of_descends (tree : IsTree children region) {node left right : Node}
    (inside : node ∈ region) (leftListed : left ∈ (children node).nodes)
    (rightListed : right ∈ (children node).nodes) {depth : Nat}
    (descends : Descends children right depth left) : left = right := by
  have lower : right ∈ region := (tree.confined node inside).2 right rightListed
  cases descends with
  | here => rfl
  | child higher listed =>
      have middle := higher.mem_region tree.confined lower
      have same := tree.single _ middle _ inside _ listed leftListed
      subst same
      exact absurd (higher.of_child rightListed).transGen (tree.acyclic _ inside)

theorem apart_children (tree : IsTree children region) {node : Node} (inside : node ∈ region) :
    Apart children (children node).nodes := by
  refine ⟨tree.once node inside, ?_⟩
  intro left leftListed right rightListed below leftDepth rightDepth fromLeft fromRight
  have leftInside := (tree.confined node inside).2 left leftListed
  have rightInside := (tree.confined node inside).2 right rightListed
  rcases Nat.le_total leftDepth rightDepth with deeper | deeper
  · obtain ⟨more, rfl⟩ := Nat.exists_eq_add_of_le' deeper
    have descends := tree.descends_of_add leftInside rightInside fromLeft fromRight
    exact tree.eq_of_descends inside leftListed rightListed descends
  · obtain ⟨more, rfl⟩ := Nat.exists_eq_add_of_le' deeper
    have descends := tree.descends_of_add rightInside leftInside fromRight fromLeft
    exact (tree.eq_of_descends inside rightListed leftListed descends).symm

/-- A walk through nodes with nothing in common meets no node twice. -/
theorem nodup_of_walk (tree : IsTree children region) {forest listing : List Node}
    (walk : Walk children forest listing) (inside : ∀ node ∈ forest, node ∈ region)
    (apart : Apart children forest) : listing.Nodup := by
  induction walk with
  | nil => exact List.nodup_nil
  | @cons node kids rest inner outer listed below beside innerIH outerIH =>
      have here := inside node List.mem_cons_self
      have kidsOf : (children node).nodes = kids := by rw [listed]
      have innerNodup : inner.Nodup := by
        apply innerIH
        · exact kidsOf ▸ (tree.confined node here).2
        · exact kidsOf ▸ tree.apart_children here
      have outerNodup : outer.Nodup := by
        apply outerIH
        · exact fun other member => inside other (.tail _ member)
        · exact apart.tail
      -- What is met inside is below the first node, and nothing below it is met outside.
      have fromNode : ∀ found ∈ inner, ∃ depth, Descends children node (depth + 1) found := by
        intro found member
        obtain ⟨kid, first, depth, descends⟩ := below.mem_iff.mp member
        exact ⟨depth, descends.of_child (kidsOf ▸ first)⟩
      have notOuter : ∀ found ∈ outer, ∀ depth, ¬ Descends children node depth found := by
        intro found member depth descends
        obtain ⟨above, later, other, lower⟩ := beside.mem_iff.mp member
        have same := apart.2 node List.mem_cons_self above (.tail _ later) found depth other
          descends lower
        exact (List.nodup_cons.mp apart.1).1 (same ▸ later)
      rw [List.nodup_cons, List.nodup_append]
      refine ⟨?_, innerNodup, outerNodup, ?_⟩
      · intro again
        rcases List.mem_append.mp again with again | again
        · obtain ⟨depth, descends⟩ := fromNode node again
          exact tree.acyclic node here descends.transGen
        · exact notOuter node again 0 .here
      · rintro found first _ second rfl
        obtain ⟨depth, descends⟩ := fromNode found first
        exact notOuter found second _ descends

/-- With two moves for every node of a tree and two more, the descendants of each are the walk
through its children, in which no node comes twice. -/
theorem descend_settles (tree : IsTree children region) {node : Node} (inside : node ∈ region)
    {patience : Nat} (patient : 2 * region.ncard + 2 ≤ patience) :
    ∃ listing, Walk children (children node).nodes listing ∧ listing.Nodup ∧
      Host.descend patience children node = ⟨listing, none⟩ := by
  have ends := tree.confined node inside
  obtain ⟨listing, walk⟩ := tree.exists_walk ends.2
  have distinct := tree.nodup_of_walk walk ends.2 (tree.apart_children inside)
  have within : ∀ found ∈ listing, found ∈ region := by
    intro found member
    obtain ⟨kid, listed, depth, descends⟩ := walk.mem_iff.mp member
    exact descends.mem_region tree.confined (ends.2 kid listed)
  have length : listing.length ≤ region.ncard := by
    classical
    rw [← List.toFinset_card_of_nodup distinct, ← Set.ncard_coe_finset]
    apply Set.ncard_le_ncard _ tree.finite
    intro found member
    exact within found (List.mem_toFinset.mp member)
  have enough : 2 * listing.length + 2 ≤ patience := by omega
  exact ⟨listing, walk, distinct, walk.descend_eq tree.toGrounded inside enough⟩

theorem confined_descend (tree : IsTree children region) {patience : Nat}
    (patient : 2 * region.ncard + 2 ≤ patience) :
    Confined (Host.descend patience children) region := by
  intro node inside
  obtain ⟨listing, walk, _, settles⟩ := tree.descend_settles inside patient
  rw [settles]
  refine ⟨rfl, ?_⟩
  intro found member
  obtain ⟨kid, listed, depth, descends⟩ := walk.mem_iff.mp member
  exact descends.mem_region tree.confined ((tree.confined node inside).2 kid listed)

end IsTree

end TreeQuery.Tree
