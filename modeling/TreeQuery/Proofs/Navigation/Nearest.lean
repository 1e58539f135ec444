import TreeQuery.Proofs.Navigation.Refinement
import TreeQuery.Proofs.Tree.Kinship

/-! # Searching below a node

There are two searches for what passes a test below a node. One deepens, a generation at a time, and
stops at the first match. The other asks for all descendants at once and filters them. In a tree
whose nodes have keys of their own the first finds the matches of least depth and no others, in the
order of the second, and it finds none only where the second finds none
(`TreeQuery.Path.search_descendants_finds_nearest`).
-/

namespace TreeQuery

open Frontier (keepFirst)

variable {Node Leaf Failure : Type}

/-- A node that passes a test and is below another, no deeper than any node below it that passes. -/
def Tree.Nearest (children : Node → Listing Node Failure) (accepts : Node → Bool)
    (above found : Node) : Prop :=
  ∃ depth, Descends children above (depth + 1) found ∧ accepts found = true ∧
    ∀ other otherDepth, Descends children above (otherDepth + 1) other → accepts other = true →
      depth ≤ otherDepth

variable [Keyed Node]

/-- The same setting over a host that knows only children and parents. Its patience serves moving on
as well as walking down. -/
def Setting.linked (setting : Setting Node Leaf Failure) (patience : Nat)
    (children : Node → Listing Node Failure)
    (parent : Node → Except (Fault Failure) (Option Node)) : Setting Node Leaf Failure :=
  { setting with host := .ofLinks patience children parent, patience := patience }

variable {setting : Setting Node Leaf Failure} {region : Set Node}

namespace Axis

variable {host : Host Node Failure}

omit [Keyed Node] in
theorem reached_descendants (node : Node) :
    descendants.reached host node = (host.children node).nodes := by
  rw [reached, relations, List.flatMap_singleton]
  rfl

omit [Keyed Node] in
theorem reached_allDescendants (node : Node) :
    allDescendants.reached host node = (host.descendants node).nodes := by
  rw [reached, relations, List.flatMap_singleton]
  rfl

/-- Where every key has one node only, an axis leads to all that is reached. -/
theorem mem_moved {axis : Axis}
    (confined : ∀ relation ∈ axis.relations, Tree.Confined (host.related relation) region)
    (unique : Set.InjOn Keyed.key region) {nodes : List Node}
    (inside : ∀ node ∈ nodes, node ∈ region) {other : Node} :
    other ∈ axis.moved host nodes ↔ ∃ node ∈ nodes, other ∈ axis.reached host node := by
  rw [moved, Frontier.mem_keepFirst_iff unique, List.mem_flatMap]
  intro found member
  obtain ⟨node, present, reached⟩ := List.mem_flatMap.mp member
  exact reached_mem_region confined (inside node present) reached

/-- Where every key has one node only, repeated moves down lead to all nodes at their depth. -/
theorem mem_iterate_moved_descendants (confined : Tree.Confined host.children region)
    (unique : Set.InjOn Keyed.key region) {nodes : List Node}
    (inside : ∀ node ∈ nodes, node ∈ region) {count : Nat} {below : Node} :
    below ∈ (moved host descendants)^[count] nodes ↔
      ∃ above ∈ nodes, Tree.Descends host.children above count below := by
  have single : descendants.relations = [.children] := rfl
  have ends : ∀ relation ∈ descendants.relations, Tree.Confined (host.related relation) region := by
    rw [single, List.forall_mem_singleton]
    exact confined
  constructor
  · exact descends_of_mem_iterate_moved single
  · rintro ⟨above, present, descends⟩
    induction descends with
    | here => exact present
    | @child count middle below _ listed ih =>
        have within : ∀ node ∈ (moved host descendants)^[count] nodes, node ∈ region := by
          intro node member
          obtain ⟨top, first, lower⟩ := descends_of_mem_iterate_moved single member
          exact lower.mem_region confined (inside top first)
        rw [Function.iterate_succ_apply', mem_moved ends unique within]
        rw [← reached_descendants] at listed
        exact ⟨middle, ih, listed⟩

end Axis

namespace Tree.IsTree

variable {host : Host Node Failure}

/-- From one node of a tree, repeated moves down lead through its generations. -/
theorem iterate_moved_eq (tree : IsTree host.children region)
    (unique : Set.InjOn Keyed.key region) {node : Node} (inside : node ∈ region) (count : Nat) :
    (Axis.moved host .descendants)^[count] [node] = (offspring host.children)^[count] [node] := by
  induction count with
  | zero => rfl
  | succ count ih =>
      have ends := tree.confined node inside
      obtain ⟨listing, walk⟩ := tree.exists_walk ends.2
      have distinct := tree.nodup_of_walk walk ends.2 (tree.apart_children inside)
      have first : offspring host.children [node] = (host.children node).nodes :=
        List.flatMap_singleton ..
      have ordered : ((offspring host.children)^[count + 1] [node]).Sublist listing := by
        rw [Function.iterate_succ_apply, first]
        exact walk.iterate_offspring_sublist count
      have within : ∀ found ∈ (offspring host.children)^[count + 1] [node], found ∈ region := by
        intro found member
        obtain ⟨kid, listed, depth, descends⟩ := walk.mem_iff.mp (ordered.subset member)
        exact descends.mem_region tree.confined (ends.2 kid listed)
      have same : ((offspring host.children)^[count] [node]).flatMap
          (Axis.descendants.reached host) = (offspring host.children)^[count + 1] [node] := by
        rw [Function.iterate_succ_apply']
        exact List.flatMap_congr fun above _ => Axis.reached_descendants above
      rw [Function.iterate_succ_apply', ih, Axis.moved, same]
      exact Frontier.keepFirst_eq_self_of_nodup unique within (distinct.sublist ordered)

end Tree.IsTree

section Search

variable {children : Node → Listing Node Failure} {test : Predicate Leaf} {patience : Nat}
  (accepts : setting.sink.Accepts) (tree : Tree.IsTree children region)
  (parent : Node → Except (Fault Failure) (Option Node))
  (labelled : ∃ text, test.label = .ok text) (answers : test.Answers setting.answer region)
  (patient : 2 * region.ncard + 2 ≤ patience)

include accepts tree labelled answers patient in
/-- A search down a tree settles on the nodes that its traversal selects. -/
theorem Path.search_settles (axis : Axis) (down : axis.relations ⊆ [.children, .descendants])
    {start : List Node} (inside : ∀ node ∈ start, node ∈ region) :
    ((search axis test).navigate (setting.linked patience children parent) start).Settles
      fun found => found.nodes = (Predicate.traversal axis test).selected
        (Host.ofLinks patience children parent) setting.answer (keepFirst start) := by
  have fit : (Predicate.traversal axis test).Fit (Host.ofLinks patience children parent)
      setting.answer region := by
    apply Predicate.Fit.traversal labelled answers
    · intro relation asked
      have known := down asked
      simp only [List.mem_cons, List.not_mem_nil, or_false] at known
      rcases known with rfl | rfl
      · exact tree.confined
      · exact tree.confined_descend patient
    · intro upward
      have known := down upward
      simp at known
  apply Fit.navigate_settles
  · exact accepts
  · exact tree.toGrounded
  · have enough : region.ncard ≤ patience := by omega
    exact enough
  · exact .search fit
  · exact inside

/-- Where every key has one node only, the move to all descendants leads to all nodes below. -/
theorem Axis.mem_moved_allDescendants (tree : Tree.IsTree children region)
    (patient : 2 * region.ncard + 2 ≤ patience) (unique : Set.InjOn Keyed.key region)
    {nodes : List Node} (inside : ∀ node ∈ nodes, node ∈ region) {below : Node} :
    below ∈ moved (Host.ofLinks patience children parent) allDescendants nodes ↔
      ∃ above ∈ nodes, ∃ depth, Tree.Descends children above (depth + 1) below := by
  have listed : ∀ above ∈ region,
      below ∈ allDescendants.reached (Host.ofLinks patience children parent) above ↔
        ∃ depth, Tree.Descends children above (depth + 1) below := by
    intro above within
    obtain ⟨listing, walk, _, settles⟩ := tree.descend_settles within patient
    have whole : (Host.descend patience children above).nodes = listing := by rw [settles]
    rw [reached_allDescendants, Host.ofLinks, whole, walk.mem_iff]
    constructor
    · rintro ⟨kid, first, depth, descends⟩
      exact ⟨depth, descends.of_child first⟩
    · rintro ⟨depth, descends⟩
      obtain ⟨kid, first, lower⟩ := descends.exists_child
      exact ⟨kid, first, depth, lower⟩
  have ends : ∀ relation ∈ allDescendants.relations,
      Tree.Confined ((Host.ofLinks patience children parent).related relation) region := by
    rw [relations, List.forall_mem_singleton]
    exact tree.confined_descend patient
  rw [mem_moved ends unique inside]
  constructor
  · rintro ⟨above, present, reached⟩
    exact ⟨above, present, (listed above (inside above present)).mp reached⟩
  · rintro ⟨above, present, lower⟩
    exact ⟨above, present, (listed above (inside above present)).mpr lower⟩

/-- From one node of a tree the move to all descendants leads to what is listed below it. -/
theorem Axis.moved_allDescendants_singleton (tree : Tree.IsTree children region)
    (patient : 2 * region.ncard + 2 ≤ patience) (unique : Set.InjOn Keyed.key region) {node : Node}
    (inside : node ∈ region) :
    moved (Host.ofLinks patience children parent) allDescendants [node] =
      (Host.descend patience children node).nodes := by
  obtain ⟨listing, _, distinct, settles⟩ := tree.descend_settles inside patient
  have confined := (tree.confined_descend patient node inside).2
  rw [settles] at confined ⊢
  have below : (Host.ofLinks patience children parent).descendants node = ⟨listing, none⟩ := settles
  rw [moved, List.flatMap_singleton, reached_allDescendants, below]
  exact Frontier.keepFirst_eq_self_of_nodup unique confined distinct

include tree in
/-- From one node of a tree the first match down is made of the nearest nodes accepted. -/
theorem Tree.IsTree.mem_firstMatch_iff (unique : Set.InjOn Keyed.key region)
    (passes : Node → Bool) {node : Node} (inside : node ∈ region) (found : Node) :
    found ∈ firstMatch (Axis.moved (Host.ofLinks patience children parent) .descendants) passes
        [node] ↔ Nearest children passes node found := by
  have within : ∀ other ∈ [node], other ∈ region := List.forall_mem_singleton.mpr inside
  have reached : ∀ {count : Nat} {below : Node},
      below ∈ (Axis.moved (Host.ofLinks patience children parent) .descendants)^[count] [node] ↔
        Descends children node count below := by
    intro count below
    rw [Axis.mem_iterate_moved_descendants tree.confined unique within]
    simp only [List.mem_singleton, exists_eq_left]
    rfl
  simp only [mem_firstMatch, reached, Nearest]
  constructor
  · rintro ⟨depth, descends, passed, least⟩
    exact ⟨depth, descends, passed, fun other otherDepth => least otherDepth other⟩
  · rintro ⟨depth, descends, passed, least⟩
    exact ⟨depth, descends, passed, fun otherDepth other => least other otherDepth⟩

include tree patient in
/-- From one node of a tree the first match down keeps the order of all descendants. -/
theorem Tree.IsTree.firstMatch_sublist (unique : Set.InjOn Keyed.key region)
    (passes : Node → Bool) {node : Node} (inside : node ∈ region) :
    (firstMatch (Axis.moved (Host.ofLinks patience children parent) .descendants) passes
      [node]).Sublist
        ((Axis.moved (Host.ofLinks patience children parent) .allDescendants [node]).filter
          passes) := by
  obtain ⟨listing, walk, _, settles⟩ := tree.descend_settles inside patient
  rw [Axis.moved_allDescendants_singleton parent tree patient unique inside, settles]
  apply TreeQuery.firstMatch_sublist
  intro count
  have generations : (Axis.moved (Host.ofLinks patience children parent) .descendants)^[count + 1]
      [node] = (offspring children)^[count + 1] [node] := by
    apply iterate_moved_eq tree unique inside
  have first : offspring children [node] = (children node).nodes := List.flatMap_singleton ..
  have ordered := walk.iterate_offspring_sublist count
  rw [← first, ← Function.iterate_succ_apply] at ordered
  rw [generations]
  exact ordered

include tree patient in
/-- A first match down is among all descendants accepted, and there is one if there are any. -/
theorem Tree.IsTree.firstMatch_subset (unique : Set.InjOn Keyed.key region)
    (passes : Node → Bool) {nodes : List Node} (inside : ∀ node ∈ nodes, node ∈ region) :
    let near := firstMatch (Axis.moved (Host.ofLinks patience children parent) .descendants)
      passes nodes
    let flat := (Axis.moved (Host.ofLinks patience children parent) .allDescendants nodes).filter
      passes
    near ⊆ flat ∧ (near = [] → flat = []) := by
  have moves : ∀ {count : Nat} {below : Node},
      below ∈ (Axis.moved (Host.ofLinks patience children parent) .descendants)^[count] nodes ↔
        ∃ above ∈ nodes, Descends children above count below := by
    intro count below
    apply Axis.mem_iterate_moved_descendants tree.confined unique inside
  have all : ∀ {below : Node},
      below ∈ Axis.moved (Host.ofLinks patience children parent) .allDescendants nodes ↔
        ∃ above ∈ nodes, ∃ depth, Descends children above (depth + 1) below :=
    Axis.mem_moved_allDescendants parent tree patient unique inside
  constructor
  · intro found member
    obtain ⟨depth, reached, passed, _⟩ := mem_firstMatch.mp member
    obtain ⟨above, present, descends⟩ := moves.mp reached
    exact List.mem_filter.mpr ⟨all.mpr ⟨above, present, depth, descends⟩, passed⟩
  · intro nothing
    rw [firstMatch_eq_nil_iff] at nothing
    rw [List.filter_eq_nil_iff]
    intro found member passed
    obtain ⟨above, present, depth, descends⟩ := all.mp member
    have reached := moves.mpr ⟨above, present, descends⟩
    exact List.filter_eq_nil_iff.mp (nothing depth) found reached passed

end Search

namespace Path

/-- **Deepening finds the nearest matches.** In a tree whose nodes have keys of their own, with
patience enough, the search that deepens from a node finds exactly the matches of least depth below
it, in the order in which the search through all descendants finds them. From several nodes the one
search finds nothing exactly when the other finds nothing, and no node that the other does not
find. -/
theorem search_descendants_finds_nearest {children : Node → Listing Node Failure}
    {test : Predicate Leaf} (accepts : setting.sink.Accepts) (tree : Tree.IsTree children region)
    (unique : Set.InjOn Keyed.key region) (parent : Node → Except (Fault Failure) (Option Node))
    (labelled : ∃ text, test.label = .ok text) (answers : test.Answers setting.answer region) :
    ∃ enough, ∀ patience, enough ≤ patience →
      (∀ node ∈ region, ∃ near flat,
        ((search .descendants test).navigate
          (setting.linked patience children parent) [node]).Ends (.ok near) ∧
        ((search .allDescendants test).navigate
          (setting.linked patience children parent) [node]).Ends (.ok flat) ∧
        (∀ found, found ∈ near.nodes ↔
          Tree.Nearest children (test.holds setting.answer) node found) ∧
        near.nodes.Sublist flat.nodes) ∧
      ∀ start : List Node, (∀ node ∈ start, node ∈ region) → ∃ near flat,
        ((search .descendants test).navigate
          (setting.linked patience children parent) start).Ends (.ok near) ∧
        ((search .allDescendants test).navigate
          (setting.linked patience children parent) start).Ends (.ok flat) ∧
        (near = ∅ ↔ flat = ∅) ∧ ∀ found ∈ near.nodes, found ∈ flat.nodes := by
  refine ⟨2 * region.ncard + 2, fun patience patient => ?_⟩
  have searches : ∀ axis : Axis, axis.relations ⊆ [.children, .descendants] →
      ∀ start : List Node, (∀ node ∈ start, node ∈ region) →
        ((search axis test).navigate (setting.linked patience children parent) start).Settles
          fun found => found.nodes = (Predicate.traversal axis test).selected
            (Host.ofLinks patience children parent) setting.answer (keepFirst start) :=
    fun axis down start inside =>
      search_settles accepts tree parent labelled answers patient axis down inside
  have near := searches .descendants (by simp [Axis.relations])
  have flat := searches .allDescendants (by simp [Axis.relations])
  constructor
  · intro node inside
    have within : ∀ other ∈ [node], other ∈ region := List.forall_mem_singleton.mpr inside
    obtain ⟨near, nearEnds, nearest⟩ := near [node] within
    obtain ⟨flat, flatEnds, all⟩ := flat [node] within
    refine ⟨near, flat, nearEnds, flatEnds, ?_, ?_⟩
    · intro found
      rw [nearest]
      exact tree.mem_firstMatch_iff parent unique (test.holds setting.answer) inside found
    · rw [nearest, all]
      exact tree.firstMatch_sublist parent patient unique (test.holds setting.answer) inside
  · intro start inside
    obtain ⟨near, nearEnds, nearest⟩ := near start inside
    obtain ⟨flat, flatEnds, all⟩ := flat start inside
    have within : ∀ node ∈ keepFirst start, node ∈ region :=
      fun node member => inside node (Frontier.mem_of_mem_keepFirst member)
    have both := tree.firstMatch_subset parent patient unique (test.holds setting.answer) within
    have subset : near.nodes ⊆ flat.nodes := by
      rw [nearest, all]
      exact both.1
    refine ⟨near, flat, nearEnds, flatEnds, ⟨?_, ?_⟩, fun found member => subset member⟩
    · rintro rfl
      apply Frontier.ext_nodes
      rw [all]
      exact both.2 nearest.symm
    · rintro rfl
      apply Frontier.ext_nodes
      exact List.subset_nil.mp subset

end Path

end TreeQuery

namespace TreeQuery.Grove

/-- In the part of the grove, for its lowest node, which is not in the first generation below the top
of the part. -/
theorem search_part_finds_nearest :
    ∃ enough, ∀ patience, enough ≤ patience →
      (∀ node ∈ part, ∃ near flat,
        ((Path.search .descendants (named "z")).navigate
          (setting.linked patience children fun _ => .ok none) [node]).Ends (.ok near) ∧
        ((Path.search .allDescendants (named "z")).navigate
          (setting.linked patience children fun _ => .ok none) [node]).Ends (.ok flat) ∧
        (∀ found, found ∈ near.nodes ↔
          Tree.Nearest children ((named "z").holds setting.answer) node found) ∧
        near.nodes.Sublist flat.nodes) ∧
      ∀ start : List Value, (∀ node ∈ start, node ∈ part) → ∃ near flat,
        ((Path.search .descendants (named "z")).navigate
          (setting.linked patience children fun _ => .ok none) start).Ends (.ok near) ∧
        ((Path.search .allDescendants (named "z")).navigate
          (setting.linked patience children fun _ => .ok none) start).Ends (.ok flat) ∧
        (near = ∅ ↔ flat = ∅) ∧ ∀ found ∈ near.nodes, found ∈ flat.nodes := by
  apply Path.search_descendants_finds_nearest
  · exact fun _ _ => rfl
  · exact part_isTree
  · exact part_keys
  · exact ⟨_, rfl⟩
  · exact fun _ _ => ⟨_, rfl⟩

end TreeQuery.Grove
