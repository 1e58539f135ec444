import Mathlib.Data.Set.Card
import Mathlib.Logic.Relation
import TreeQuery.Host
import TreeQuery.Value

/-! # Grounded regions of a tree

A region of nodes is grounded when it is finite, the listings of children end there without a fault
and do not lead out of it, and no node is below itself. Nodes may be shared between parents. It is
enclosed if the listings may break off as well. Below a node of an enclosed region there is a
greatest depth (`TreeQuery.Tree.Enclosed.depth_lt_ncard`).
-/

namespace TreeQuery.Tree

variable {Node Failure : Type}

/-- Listings that end without a fault for every node of a region and stay within it. -/
def Confined (list : Node → Listing Node Failure) (region : Set Node) : Prop :=
  ∀ node ∈ region, (list node).fault? = none ∧ ∀ other ∈ (list node).nodes, other ∈ region

theorem Confined.toExcept_eq {list : Node → Listing Node Failure} {region : Set Node}
    (confined : Confined list region) {node : Node} (inside : node ∈ region) :
    (list node).toExcept = .ok (list node).nodes := by
  rw [Listing.toExcept, (confined node inside).1]

/-- Listings that come to an end for every node of a region, if only by breaking off, and stay
within it. -/
def Halting (list : Node → Listing Node Failure) (region : Set Node) : Prop :=
  ∀ node ∈ region, (list node).fault? ≠ some .exhausted ∧ ∀ other ∈ (list node).nodes,
    other ∈ region

theorem Confined.halting {list : Node → Listing Node Failure} {region : Set Node}
    (confined : Confined list region) : Halting list region := by
  intro node inside
  obtain ⟨ends, within⟩ := confined node inside
  rw [ends]
  exact ⟨Option.some_ne_none _ |>.symm, within⟩

/-- A node stands above another that is listed among its children. -/
def IsAbove (children : Node → Listing Node Failure) (above below : Node) : Prop :=
  below ∈ (children above).nodes

/-- A finite region that children do not lead out of, in which no node is below itself. -/
structure Grounded (children : Node → Listing Node Failure) (region : Set Node) : Prop where
  finite : region.Finite
  confined : Confined children region
  acyclic : ∀ node ∈ region, ¬ Relation.TransGen (IsAbove children) node node

/-- A finite region that children do not lead out of, in which no node is below itself. The listings
of children come to an end, but may break off. -/
structure Enclosed (children : Node → Listing Node Failure) (region : Set Node) : Prop where
  finite : region.Finite
  halting : Halting children region
  acyclic : ∀ node ∈ region, ¬ Relation.TransGen (IsAbove children) node node

theorem Grounded.enclosed {children : Node → Listing Node Failure} {region : Set Node}
    (grounded : Grounded children region) : Enclosed children region where
  finite := grounded.finite
  halting := grounded.confined.halting
  acyclic := grounded.acyclic

/-- Where a rank falls on the way from every node to its children, no node is below itself. -/
theorem not_transGen_self_of_rank {children : Node → Listing Node Failure} (rank : Node → Nat)
    (falls : ∀ above below, IsAbove children above below → rank below < rank above) (node : Node) :
    ¬ Relation.TransGen (IsAbove children) node node := by
  have lower : ∀ below, Relation.TransGen (IsAbove children) node below →
      rank below < rank node := by
    intro below reached
    induction reached with
    | single listed => exact falls _ _ listed
    | tail _ listed ih => exact (falls _ _ listed).trans ih
  exact fun circle => Nat.lt_irrefl _ (lower node circle)

/-- One edge more makes a circle exactly if there was one before or the edge leads back to where it
comes from. -/
theorem acyclic_edge_iff {α : Type} {before after : α → α → Prop} {upper lower : α}
    (edge : ∀ {above below}, after above below ↔
      before above below ∨ above = upper ∧ below = lower) :
    (∀ node, ¬ Relation.TransGen after node node) ↔
      (∀ node, ¬ Relation.TransGen before node node) ∧
        ¬ Relation.ReflTransGen before lower upper := by
  have grows : before ≤ after := fun _ _ old => edge.mpr (.inl old)
  constructor
  · intro free
    refine ⟨fun node circle => free node (Relation.TransGen.mono grows _ _ circle), fun back => ?_⟩
    have step : after upper lower := edge.mpr (.inr ⟨rfl, rfl⟩)
    exact free upper (.head' step (Relation.ReflTransGen.mono grows _ _ back))
  · rintro ⟨free, apart⟩
    -- What is newly reached is reached by way of the new edge.
    have reaches : ∀ above below, Relation.TransGen after above below →
        Relation.TransGen before above below ∨
          Relation.ReflTransGen before above upper ∧
            Relation.ReflTransGen before lower below := by
      intro above below reached
      induction reached with
      | single step =>
          rcases edge.mp step with old | ⟨rfl, rfl⟩
          · exact .inl (.single old)
          · exact .inr ⟨.refl, .refl⟩
      | tail _ step ih =>
          rcases edge.mp step with old | ⟨rfl, rfl⟩
          · exact ih.imp (·.tail old) fun ⟨up, down⟩ => ⟨up, down.tail old⟩
          · exact .inr ⟨ih.elim (·.to_reflTransGen) (·.1), .refl⟩
    intro node circle
    rcases reaches node node circle with old | ⟨up, down⟩
    · exact free node old
    · exact apart (down.trans up)

/-- A node reached from another by going down to a child as often as the depth says. -/
inductive Descends (children : Node → Listing Node Failure) (above : Node) : Nat → Node → Prop where
  | here : Descends children above 0 above
  | child {depth : Nat} {middle below : Node} :
      Descends children above depth middle → below ∈ (children middle).nodes →
        Descends children above (depth + 1) below

namespace Descends

variable {children : Node → Listing Node Failure} {above middle below : Node}

/-- What is below a child is one deeper below the node. -/
theorem of_child {depth : Nat} (listed : middle ∈ (children above).nodes)
    (descends : Descends children middle depth below) :
    Descends children above (depth + 1) below := by
  induction descends with
  | here => exact .child .here listed
  | child _ lower ih => exact .child ih lower

/-- Whatever is deeper than a node is below one of its children. -/
theorem exists_child {depth : Nat} (descends : Descends children above (depth + 1) below) :
    ∃ middle ∈ (children above).nodes, Descends children middle depth below := by
  induction depth generalizing below with
  | zero =>
      cases descends with
      | child higher listed =>
          cases higher with
          | here => exact ⟨below, listed, .here⟩
  | succ depth ih =>
      cases descends with
      | child higher listed =>
          obtain ⟨middle, first, later⟩ := ih higher
          exact ⟨middle, first, .child later listed⟩

theorem mem_of_halting {region : Set Node} (halting : Halting children region)
    (inside : above ∈ region) {depth : Nat} (descends : Descends children above depth below) :
    below ∈ region := by
  induction descends with
  | here => exact inside
  | child _ listed ih => exact (halting _ ih).2 _ listed

theorem mem_region {region : Set Node} (confined : Confined children region)
    (inside : above ∈ region) {depth : Nat} (descends : Descends children above depth below) :
    below ∈ region :=
  descends.mem_of_halting confined.halting inside

theorem transGen {depth : Nat} (descends : Descends children above (depth + 1) below) :
    Relation.TransGen (IsAbove children) above below := by
  induction depth generalizing below with
  | zero =>
      cases descends with
      | child higher listed =>
          cases higher with
          | here => exact .single listed
  | succ depth ih =>
      cases descends with
      | child higher listed => exact .tail (ih higher) listed

end Descends

/-- The nodes of a region that are below a node. -/
def beneath (children : Node → Listing Node Failure) (region : Set Node) (above : Node) :
    Set Node :=
  {node ∈ region | Relation.TransGen (IsAbove children) above node}

namespace Enclosed

variable {children : Node → Listing Node Failure} {region : Set Node}

/-- Fewer nodes are beneath a child than beneath its parent. -/
theorem ncard_beneath_lt (enclosed : Enclosed children region) {above below : Node}
    (inside : above ∈ region) (listed : below ∈ (children above).nodes) :
    (beneath children region below).ncard < (beneath children region above).ncard := by
  have lower : below ∈ region := (enclosed.halting above inside).2 below listed
  have step : Relation.TransGen (IsAbove children) above below := .single listed
  have within : beneath children region below ⊆ beneath children region above :=
    fun _ member => ⟨member.1, step.trans member.2⟩
  apply Set.ncard_lt_ncard
  · rw [Set.ssubset_iff_of_subset within]
    exact ⟨below, ⟨lower, step⟩, fun member => enclosed.acyclic below lower member.2⟩
  · exact enclosed.finite.subset fun _ member => member.1

/-- Induction from the children of a node to the node. -/
@[elab_as_elim]
theorem induction_on (enclosed : Enclosed children region)
    {motive : ∀ node, node ∈ region → Prop} {node : Node} (inside : node ∈ region)
    (step : ∀ node inside, (∀ kid (listed : kid ∈ (children node).nodes),
      motive kid ((enclosed.halting node inside).2 kid listed)) → motive node inside) :
    motive node inside := by
  -- Fewer nodes are beneath the children.
  induction count : (beneath children region node).ncard using Nat.strong_induction_on
    generalizing node with
  | _ count ih =>
      subst count
      apply step node inside
      intro kid listed
      exact ih _ (enclosed.ncard_beneath_lt inside listed) _ rfl

/-- Going down uses up nodes beneath. -/
theorem ncard_beneath_add_le (enclosed : Enclosed children region) {above below : Node}
    (inside : above ∈ region) {depth : Nat} (descends : Descends children above depth below) :
    (beneath children region below).ncard + depth ≤ (beneath children region above).ncard := by
  induction descends with
  | here => exact Nat.le_refl _
  | child higher listed ih =>
      have fewer := enclosed.ncard_beneath_lt (higher.mem_of_halting enclosed.halting inside) listed
      omega

/-- Not all nodes of an enclosed region are beneath one of them. -/
theorem ncard_beneath_lt_ncard (enclosed : Enclosed children region) {above : Node}
    (inside : above ∈ region) : (beneath children region above).ncard < region.ncard := by
  have proper : beneath children region above ⊂ region := by
    rw [Set.ssubset_iff_of_subset fun _ member => member.1]
    exact ⟨above, inside, fun member => enclosed.acyclic above inside member.2⟩
  exact Set.ncard_lt_ncard proper enclosed.finite

/-- No depth below a node of an enclosed region reaches the number of its nodes. -/
theorem depth_lt_ncard (enclosed : Enclosed children region) {above below : Node}
    (inside : above ∈ region) {depth : Nat} (descends : Descends children above depth below) :
    depth < region.ncard := by
  have fewer := enclosed.ncard_beneath_lt_ncard inside
  have used := enclosed.ncard_beneath_add_le inside descends
  omega

end Enclosed

end TreeQuery.Tree

namespace TreeQuery.Grove

/-! ### A small grove

One of its nodes hangs on two others, and two of its nodes share an identifier.
-/

def spot (index : Nat) (identifier : String) : Value :=
  .node (.object index) (.identifier identifier)

def children : Value → Listing Value Unit
  | .node (.object 0) _ => ⟨[spot 1 "a", spot 2 "b"], none⟩
  | .node (.object 1) _ => ⟨[spot 3 "x", spot 5 "y"], none⟩
  | .node (.object 2) _ => ⟨[spot 4 "x", spot 5 "y"], none⟩
  | .node (.object 5) _ => ⟨[spot 6 "z"], none⟩
  | _ => .empty

def region : Set Value :=
  {spot 0 "r", spot 1 "a", spot 2 "b", spot 3 "x", spot 4 "x", spot 5 "y", spot 6 "z"}

/-- How many generations there are below a node. -/
def rank : Value → Nat
  | .node (.object 0) _ => 3
  | .node (.object 1) _ | .node (.object 2) _ => 2
  | .node (.object 5) _ => 1
  | _ => 0

theorem rank_lt (above below : Value) (listed : Tree.IsAbove children above below) :
    rank below < rank above := by
  unfold Tree.IsAbove children at listed
  split at listed <;> simp only [Listing.empty, List.mem_cons, List.not_mem_nil, or_false] at listed
  · rcases listed with rfl | rfl <;> exact Nat.lt_add_one _
  · rcases listed with rfl | rfl <;> simp [rank, spot]
  · rcases listed with rfl | rfl <;> simp [rank, spot]
  · subst listed
    exact Nat.zero_lt_one

theorem grounded : Tree.Grounded children region where
  finite := by
    unfold region
    exact Set.toFinite _
  confined := by
    rintro node (rfl | rfl | rfl | rfl | rfl | rfl | rfl) <;>
      simp [children, region, spot, Listing.empty]
  acyclic := fun node _ => Tree.not_transGen_self_of_rank rank rank_lt node

end TreeQuery.Grove
