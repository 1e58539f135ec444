import TreeQuery.Proofs.Tree.Walk

/-! # Children and parents that agree

A host answers two questions about links, who the children of a node are and who its parent is. In a
region where the answers agree and no node is above itself the nodes make trees. What a host derives
then has a meaning in terms of parents alone: descendants are the nodes on whose way up a node lies,
and siblings are the other nodes with the same parent (`TreeQuery.Tree.Kinship.mem_descend_iff`,
`TreeQuery.Tree.Kinship.mem_besides_iff`). No relation leads out of the region
(`TreeQuery.Tree.Kinship.confined_related`).
-/

namespace TreeQuery.Tree

variable {Node Failure : Type}

/-- A node says that another one is its parent. -/
def HasParent (parent : Node → Except (Fault Failure) (Option Node)) (below above : Node) : Prop :=
  parent below = .ok (some above)

/-- A finite region whose nodes are listed by their parents and by nobody else, each of them once,
and in which no node is below itself. -/
structure Kinship (children : Node → Listing Node Failure)
    (parent : Node → Except (Fault Failure) (Option Node)) (region : Set Node) : Prop
    extends Grounded children region where
  upward : ∀ node ∈ region, ∃ above?, parent node = .ok above? ∧
    ∀ above, above? = some above → above ∈ region
  agree : ∀ above ∈ region, ∀ below ∈ region,
    below ∈ (children above).nodes ↔ HasParent parent below above
  once : ∀ node ∈ region, (children node).nodes.Nodup

namespace Kinship

variable {children : Node → Listing Node Failure}
  {parent : Node → Except (Fault Failure) (Option Node)} {region : Set Node}
  (kinship : Kinship children parent region)

include kinship

/-- Parents are in the region. -/
theorem mem_region_of_hasParent {below above : Node} (inside : below ∈ region)
    (under : HasParent parent below above) : above ∈ region := by
  obtain ⟨above?, named, within⟩ := kinship.upward below inside
  rw [HasParent, named, Except.ok.injEq] at under
  exact within above under

/-- A node that is listed says who lists it. -/
theorem hasParent_of_mem {above below : Node} (inside : above ∈ region)
    (listed : below ∈ (children above).nodes) : HasParent parent below above :=
  (kinship.agree above inside below ((kinship.confined above inside).2 below listed)).mp listed

/-- A node that says who its parent is, is listed there. -/
theorem mem_of_hasParent {above below : Node} (inside : below ∈ region)
    (under : HasParent parent below above) : below ∈ (children above).nodes :=
  (kinship.agree above (kinship.mem_region_of_hasParent inside under) below inside).mpr under

/-- A node that two nodes list has both for its parent. -/
theorem isTree : IsTree children region where
  toGrounded := kinship.toGrounded
  once := kinship.once
  single := by
    intro left leftInside right rightInside node leftListed rightListed
    have one := kinship.hasParent_of_mem leftInside leftListed
    have other := kinship.hasParent_of_mem rightInside rightListed
    rw [HasParent, one] at other
    simpa using other

/-- The ways down from a node to its children are the ways up to it. -/
theorem exists_descends_iff {node other : Node} (inside : node ∈ region) :
    (∃ kid ∈ (children node).nodes, ∃ depth, Descends children kid depth other) ↔
      other ∈ region ∧ Relation.TransGen (HasParent parent) other node := by
  constructor
  · rintro ⟨kid, listed, depth, descends⟩
    have within := (kinship.confined node inside).2 kid listed
    refine ⟨descends.mem_region kinship.confined within, ?_⟩
    induction descends with
    | here => exact .single (kinship.hasParent_of_mem inside listed)
    | child higher lower ih =>
        have middle := higher.mem_region kinship.confined within
        exact .head (kinship.hasParent_of_mem middle lower) ih
  · rintro ⟨within, above⟩
    induction above using Relation.TransGen.head_induction_on with
    | single under => exact ⟨_, kinship.mem_of_hasParent within under, 0, .here⟩
    | head under _ ih =>
        obtain ⟨kid, listed, depth, descends⟩ := ih (kinship.mem_region_of_hasParent within under)
        exact ⟨kid, listed, depth + 1, descends.child (kinship.mem_of_hasParent within under)⟩

/-- The descendants of a node are listed once each, and are the nodes on whose way up it lies. -/
theorem mem_descend_iff {node : Node} (inside : node ∈ region) {patience : Nat}
    (patient : 2 * region.ncard + 2 ≤ patience) :
    let descendants := Host.descend patience children node
    descendants.fault? = none ∧ descendants.nodes.Nodup ∧ ∀ other, other ∈ descendants.nodes ↔
      other ∈ region ∧ Relation.TransGen (HasParent parent) other node := by
  obtain ⟨listing, walk, distinct, settles⟩ := kinship.isTree.descend_settles inside patient
  dsimp only
  rw [settles]
  exact ⟨rfl, distinct, fun other => walk.mem_iff.trans (kinship.exists_descends_iff inside)⟩

variable [Keyed Node]

/-- The children of the parent of a node are the node and, around it, its siblings. -/
theorem besides_eq (unique : Set.InjOn Keyed.key region) {node above : Node}
    (inside : node ∈ region) (under : HasParent parent node above) :
    ∃ before after, (children above).nodes = before ++ node :: after ∧
      Host.besides children parent node = ⟨before ++ after, none⟩ := by
  have higher := kinship.mem_region_of_hasParent inside under
  obtain ⟨before, after, split⟩ := List.append_of_mem (kinship.mem_of_hasParent inside under)
  have ends := kinship.confined above higher
  have distinct := kinship.once above higher
  rw [split, List.nodup_middle, List.nodup_cons] at distinct
  -- Nodes of the region have keys of their own, so keys tell the node apart from all others.
  have kept : ∀ nodes : List Node, (∀ other ∈ nodes, other ∈ before ++ after) →
      nodes.filter (fun sibling => decide (Keyed.key sibling ≠ Keyed.key node)) = nodes := by
    intro nodes among
    rw [List.filter_eq_self]
    intro other member
    apply decide_eq_true
    intro same
    have listed : other ∈ (children above).nodes := by
      have present := among other member
      rw [split]
      simp only [List.mem_append, List.mem_cons] at present ⊢
      tauto
    have again := unique (ends.2 other listed) inside same
    exact distinct.1 (again ▸ among other member)
  refine ⟨before, after, split, ?_⟩
  have front := kept before fun other member => List.mem_append_left after member
  have back := kept after fun other member => List.mem_append_right before member
  unfold HasParent at under
  simp only [Host.besides, under, Listing.filter, Listing.relayed, split, ends.1,
    List.filter_append, List.filter_cons, front, back]
  simp

/-- The siblings of a node are the other nodes with the same parent. -/
theorem mem_besides_iff (unique : Set.InjOn Keyed.key region) {node : Node}
    (inside : node ∈ region) :
    (Host.besides children parent node).fault? = none ∧
      ∀ other, other ∈ (Host.besides children parent node).nodes ↔
        other ∈ region ∧ other ≠ node ∧
          ∃ above, HasParent parent node above ∧ HasParent parent other above := by
  obtain ⟨above?, named, -⟩ := kinship.upward node inside
  cases above? with
  | none =>
      simp [Host.besides, HasParent, named, Listing.empty, Listing.relayed]
  | some above =>
      have higher := kinship.mem_region_of_hasParent inside named
      obtain ⟨before, after, split, besides⟩ := kinship.besides_eq unique inside named
      have distinct := kinship.once above higher
      rw [split, List.nodup_middle, List.nodup_cons] at distinct
      refine ⟨by rw [besides], fun other => ?_⟩
      have listed : other ∈ (children above).nodes ↔ other = node ∨ other ∈ before ++ after := by
        rw [split]
        simp only [List.mem_append, List.mem_cons]
        tauto
      have only : ∀ upper, HasParent parent node upper ↔ upper = above := by
        intro upper
        rw [HasParent, named]
        simp [eq_comm]
      simp only [besides, only, exists_eq_left]
      constructor
      · intro member
        have present := listed.mpr (.inr member)
        refine ⟨(kinship.confined above higher).2 other present, ?_, ?_⟩
        · rintro rfl
          exact distinct.1 member
        · exact kinship.hasParent_of_mem higher present
      · rintro ⟨within, apart, under⟩
        exact (listed.mp (kinship.mem_of_hasParent within under)).resolve_left apart

/-- The way up stays in the region. -/
theorem confined_parent {patience : Nat} :
    Confined ((Host.ofLinks patience children parent).related .parent) region := by
  intro node inside
  obtain ⟨above?, named, within⟩ := kinship.upward node inside
  cases above? with
  | none => simp [Host.related, Host.ofLinks, named]
  | some above => simpa [Host.related, Host.ofLinks, named] using within above rfl

/-- All that a host of children and parents lists stays within the region where they agree. -/
theorem confined_related (unique : Set.InjOn Keyed.key region) {patience : Nat}
    (patient : 2 * region.ncard + 2 ≤ patience) (relation : Relation) :
    Confined ((Host.ofLinks patience children parent).related relation) region := by
  cases relation with
  | children => exact kinship.confined
  | descendants => exact kinship.isTree.confined_descend patient
  | siblings =>
      intro node inside
      obtain ⟨ends, beside⟩ := kinship.mem_besides_iff unique inside
      exact ⟨ends, fun other listed => ((beside other).mp listed).1⟩
  | parent => exact kinship.confined_parent

end Kinship

end TreeQuery.Tree

namespace TreeQuery.Grove

/-- A part of the grove that is a tree of its own. -/
def part : Set Value := {spot 2 "b", spot 4 "x", spot 5 "y", spot 6 "z"}

/-- The parents in the part of the grove. -/
def parent : Value → Except (Fault Unit) (Option Value)
  | .node (.object 4) _ | .node (.object 5) _ => .ok (some (spot 2 "b"))
  | .node (.object 6) _ => .ok (some (spot 5 "y"))
  | _ => .ok none

theorem part_isTree : Tree.IsTree children part where
  finite := by
    unfold part
    exact Set.toFinite _
  confined := by
    rintro node (rfl | rfl | rfl | rfl) <;> simp [children, part, spot, Listing.empty]
  acyclic := fun node _ => Tree.not_transGen_self_of_rank rank rank_lt node
  once := by
    rintro node (rfl | rfl | rfl | rfl) <;> simp [children, spot, Listing.empty]
  single := by
    rintro left (rfl | rfl | rfl | rfl) right (rfl | rfl | rfl | rfl) node first second <;>
      simp_all [children, spot, Listing.empty]

theorem part_keys : Set.InjOn (Keyed.key : Value → _) part := by
  rintro left (rfl | rfl | rfl | rfl) right (rfl | rfl | rfl | rfl) same
  all_goals first | rfl | exact absurd (Key.identifier.inj same) (by decide)

theorem part_ncard_le : part.ncard ≤ 4 := by
  classical
  have same : part = ({spot 2 "b", spot 4 "x", spot 5 "y", spot 6 "z"} : Finset Value) := by
    simp [part]
  rw [same, Set.ncard_coe_finset]
  exact Finset.card_le_four

theorem part_kinship : Tree.Kinship children parent part where
  toGrounded := part_isTree.toGrounded
  once := part_isTree.once
  upward := by
    rintro node (rfl | rfl | rfl | rfl) <;> simp [parent, part, spot]
  agree := by
    rintro above (rfl | rfl | rfl | rfl) below (rfl | rfl | rfl | rfl) <;>
      simp [Tree.HasParent, parent, children, spot, Listing.empty]

end TreeQuery.Grove
