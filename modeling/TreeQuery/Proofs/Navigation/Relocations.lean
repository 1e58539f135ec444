import TreeQuery.Proofs.Navigation.Nearest
import TreeQuery.Proofs.Navigation.Refinement
import TreeQuery.Proofs.Run.Muted
import TreeQuery.Proofs.Trace.Transparency

/-! # Relocations that agree

Where children and parents agree, the four relocations of a host that derives descendants and
siblings fit together. Down and up again leads to the starts that have children, up and down again
to a node among its siblings, and descendants and siblings are what their names say
(`TreeQuery.Path.relocations_agree`).
-/

namespace TreeQuery

open Frontier (keepFirst)

variable {Node Leaf Failure : Type} [Keyed Node]

namespace Frontier

/-- A node that is found several times in a row is kept once. -/
theorem keepFirst_map_const {α : Type} (node : Node) (elements : List α)
    (some : elements ≠ []) : keepFirst (elements.map fun _ => node) = [node] := by
  obtain ⟨first, rest, rfl⟩ := List.exists_cons_of_ne_nil some
  rw [List.map_cons, keepFirst, List.cons.injEq, List.filter_eq_nil_iff]
  refine ⟨rfl, fun other member => ?_⟩
  obtain ⟨_, _, rfl⟩ := List.mem_map.mp (mem_of_mem_keepFirst member)
  simp

/-- Nodes that are found from each of their elements are those that have some, in their order. -/
theorem keepFirst_flatMap_const {α : Type} (elements : Node → List α) (nodes : List Node) :
    keepFirst (nodes.flatMap fun node => (elements node).map fun _ => node) =
      keepFirst (nodes.filter fun node => !(elements node).isEmpty) := by
  induction nodes with
  | nil => rfl
  | cons node rest ih =>
      rw [List.flatMap_cons]
      by_cases none : elements node = []
      · rw [none, List.map_nil, List.nil_append, ih, List.filter_cons_of_neg (by simp [none])]
      · have kept : (node :: rest).filter (fun node => !(elements node).isEmpty) =
            [node] ++ rest.filter fun node => !(elements node).isEmpty :=
          List.filter_cons_of_pos (by simpa using none)
        have single := keepFirst_map_const node (elements node) none
        have keys : ∀ key, key ∈ ((elements node).map fun _ => node).map Keyed.key ↔
            key ∈ [node].map Keyed.key := by
          intro key
          rw [← mem_keys_keepFirst, single]
        rw [kept, keepFirst_append, single, ih, keepFirst_append, without_congr keys]
        rfl

end Frontier

namespace Path

/-- In every run in which no line can be refused, since the sink takes every line or trace output is
off, navigation ends with the nodes. -/
def Finds (setting : Setting Node Leaf Failure) (path : Path Leaf) (start found : List Node) :
    Prop :=
  ∀ journal : Journal Node Leaf, setting.sink.Accepts ∨ journal.active = false →
    ∃ frontier : Frontier Node,
      ((path.navigate setting start).perform journal).1 = .ok frontier ∧ frontier.nodes = found

variable {setting : Setting Node Leaf Failure} {region : Set Node}

/-- In a grounded region a fit path without titles finds what it denotes. -/
theorem Fit.finds (grounded : Tree.Grounded setting.host.children region)
    (patient : region.ncard ≤ setting.patience) {path : Path Leaf} (untraced : path.untraced = path)
    (fit : path.Fit setting.host setting.answer region) {start : List Node}
    (inside : ∀ node ∈ start, node ∈ region) :
    path.Finds setting start (path.meaning setting.host setting.answer start) := by
  rintro journal (accepts | off)
  · obtain ⟨frontier, ends, finds⟩ := fit.navigate_settles accepts grounded patient inside
    exact ⟨frontier, ends journal, finds⟩
  · have settles : (path.navigate (setting.reporting .accepting) start).Settles fun frontier =>
        frontier.nodes = path.meaning setting.host setting.answer start := by
      apply Fit.navigate_settles
      · exact fun _ _ => rfl
      · exact grounded
      · exact patient
      · exact fit
      · exact inside
    obtain ⟨frontier, ends, finds⟩ := settles
    exact ⟨frontier, navigate_endsMuted untraced ends journal off, finds⟩

/-- Moves along one axis and then along another. -/
def relocating (first second : Axis) : Path Leaf :=
  .simple [some (.traversal first .any), some (.traversal second .any)]

theorem meaning_relocating (host : Host Node Failure)
    (answer : Leaf → Node → Except (Fault Failure) Value) {first second : Axis}
    (once : first.deepens = false) (also : second.deepens = false) (start : List Node) :
    (relocating first second).meaning host answer start =
      second.moved host (first.moved host (keepFirst start)) := by
  have selects : ∀ {axis : Axis}, axis.deepens = false → ∀ nodes : List Node,
      (Predicate.traversal axis .any).selected host answer nodes = axis.moved host nodes := by
    intro axis single nodes
    have all : ∀ node ∈ axis.moved host nodes,
        (Predicate.any : Predicate Leaf).holds answer node = true := fun _ _ => rfl
    rw [Predicate.selected, single, if_neg Bool.false_ne_true, List.filter_eq_self.mpr all]
  simp only [relocating, meaning, List.foldl_cons, List.foldl_nil, Option.elim_some, selects once,
    selects also]

end Path

section Kinship

open TreeQuery.Tree (HasParent Kinship)

variable {setting : Setting Node Leaf Failure} {region : Set Node}
  {children : Node → Listing Node Failure}
  {parent : Node → Except (Fault Failure) (Option Node)} {patience : Nat}

namespace Path

/-- Moving down or up once each fails nowhere where children and parents agree. -/
theorem Fit.relocating (kinship : Kinship children parent region)
    (answer : Leaf → Node → Except (Fault Failure) Value) {first second : Axis}
    (one : first = .children ∨ first = .parent) (other : second = .children ∨ second = .parent) :
    (relocating first second).Fit (.ofLinks patience children parent) answer region := by
  have moves : ∀ axis : Axis, axis = .children ∨ axis = .parent →
      (Predicate.traversal axis .any).Fit (Host.ofLinks patience children parent) answer
        region := by
    rintro axis (rfl | rfl)
    · refine ⟨⟨_, rfl⟩, fun _ _ => ⟨_, rfl⟩, ?_, fun upward => by cases upward⟩
      exact List.forall_mem_singleton.mpr kinship.confined
    · refine ⟨⟨_, rfl⟩, fun _ _ => ⟨_, rfl⟩, ?_, fun upward => by cases upward⟩
      exact List.forall_mem_singleton.mpr kinship.confined_parent
  apply Fit.simple
  rw [List.forall_mem_cons, List.forall_mem_singleton]
  exact ⟨⟨_, rfl, moves first one⟩, _, rfl, moves second other⟩

/-- Down and up again leads to the nodes that have a child. -/
theorem moved_children_parent (kinship : Kinship children parent region)
    (unique : Set.InjOn Keyed.key region) {start : List Node}
    (inside : ∀ node ∈ start, node ∈ region) :
    let host := Host.ofLinks patience children parent
    Axis.parent.moved host (Axis.children.moved host (keepFirst start)) =
      (keepFirst start).filter fun node => !(children node).nodes.isEmpty := by
  intro host
  have down : ∀ node, Axis.children.reached host node = (children node).nodes := fun node =>
    List.flatMap_singleton _ _
  have up : ∀ above ∈ region, (children above).nodes.flatMap (Axis.parent.reached host) =
      (children above).nodes.map fun _ => above := by
    intro above higher
    rw [← List.flatMap_pure_eq_map]
    apply List.flatMap_congr
    intro below listed
    have under := kinship.hasParent_of_mem higher listed
    unfold HasParent at under
    simp [Axis.reached, Axis.relations, Host.related, host, Host.ofLinks, under]
  have within : ∀ node ∈ keepFirst start, node ∈ region := fun node member =>
    inside node (Frontier.mem_of_mem_keepFirst member)
  have below : ∀ node ∈ (keepFirst start).flatMap (Axis.children.reached host), node ∈ region := by
    intro node member
    obtain ⟨above, present, listed⟩ := List.mem_flatMap.mp member
    rw [down] at listed
    exact (kinship.confined above (within above present)).2 node listed
  have alike : ∀ left ∈ (keepFirst start).flatMap (Axis.children.reached host),
      ∀ right ∈ (keepFirst start).flatMap (Axis.children.reached host),
        Keyed.key left = Keyed.key right →
          Axis.parent.reached host left = Axis.parent.reached host right := by
    intro left first right second same
    rw [unique (below left first) (below right second) same]
  rw [Axis.moved, Axis.moved, Frontier.keepFirst_flatMap_keepFirst alike, List.flatMap_assoc]
  have back : ((keepFirst start).flatMap fun node =>
      (Axis.children.reached host node).flatMap (Axis.parent.reached host)) =
        (keepFirst start).flatMap fun node => (children node).nodes.map fun _ => node := by
    apply List.flatMap_congr
    intro node member
    rw [down, up node (within node member)]
  rw [back, Frontier.keepFirst_flatMap_const, ← Frontier.filter_keepFirst,
    Frontier.keepFirst_keepFirst]
  intro left first right second same
  rw [unique (within left first) (within right second) same]

/-- Up and down again leads to the children of the parent. -/
theorem moved_parent_children (kinship : Kinship children parent region)
    (unique : Set.InjOn Keyed.key region) {node above : Node} (inside : node ∈ region)
    (under : HasParent parent node above) :
    let host := Host.ofLinks patience children parent
    Axis.children.moved host (Axis.parent.moved host (keepFirst [node])) =
      (children above).nodes := by
  intro host
  have higher := kinship.mem_region_of_hasParent inside under
  have up : Axis.parent.moved host (keepFirst [node]) = [above] := by
    unfold HasParent at under
    simp [Axis.moved, Axis.reached, Axis.relations, Host.related, host, Host.ofLinks, under,
      keepFirst]
  have down : [above].flatMap (Axis.children.reached host) = (children above).nodes := by
    rw [List.flatMap_singleton]
    exact List.flatMap_singleton _ _
  rw [up, Axis.moved, down]
  exact Frontier.keepFirst_eq_self_of_nodup unique (kinship.confined above higher).2
    (kinship.once above higher)

/-- **The relocations agree.** In a finite region where the links of children and parents agree and
every node has a key of its own, with patience enough, moving down and up again leads to the starts
that have a child, in their order, and moving up and down again leads from a node with a parent to
the node and its siblings, in the order in which the parent lists them. Siblings of a node are the
other nodes with the same parent, so two nodes are siblings of each other. Descendants of a node are
the nodes on whose way up it lies, each of them listed once. -/
theorem relocations_agree (setting : Setting Node Leaf Failure)
    (kinship : Kinship children parent region) (unique : Set.InjOn Keyed.key region) :
    ∃ enough, ∀ patience, enough ≤ patience →
      let linked := setting.linked patience children parent
      (∀ start : List Node, (∀ node ∈ start, node ∈ region) →
        (relocating .children .parent).Finds linked start
          ((keepFirst start).filter fun node => !(children node).nodes.isEmpty)) ∧
      ∀ node ∈ region,
        let siblings := linked.host.siblings node
        let descendants := linked.host.descendants node
        (siblings.fault? = none ∧ ∀ other, other ∈ siblings.nodes ↔
          other ∈ region ∧ other ≠ node ∧
            ∃ above, HasParent parent node above ∧ HasParent parent other above) ∧
        (∀ other ∈ region,
          other ∈ siblings.nodes ↔ node ∈ (linked.host.siblings other).nodes) ∧
        (∀ above, HasParent parent node above → ∃ before after,
          (children above).nodes = before ++ node :: after ∧ siblings.nodes = before ++ after ∧
            (relocating .parent .children).Finds linked [node] (before ++ node :: after)) ∧
        descendants.fault? = none ∧ descendants.nodes.Nodup ∧ ∀ other,
          other ∈ descendants.nodes ↔
            other ∈ region ∧ Relation.TransGen (HasParent parent) other node := by
  refine ⟨2 * region.ncard + 2, fun patience patient => ?_⟩
  intro linked
  have finds : ∀ {first second : Axis}, first = .children ∨ first = .parent →
      second = .children ∨ second = .parent → ∀ {start : List Node},
      (∀ node ∈ start, node ∈ region) → (relocating first second).Finds linked start
        (second.moved linked.host (first.moved linked.host (keepFirst start))) := by
    intro first second one other start inside
    have once : ∀ axis : Axis, axis = .children ∨ axis = .parent → axis.deepens = false := by
      rintro axis (rfl | rfl) <;> rfl
    rw [← meaning_relocating linked.host linked.answer (once first one) (once second other)]
    apply Fit.finds
    · exact kinship.toGrounded
    · change region.ncard ≤ patience
      omega
    · rfl
    · exact Fit.relocating kinship linked.answer one other
    · exact inside
  refine ⟨fun start inside => ?_, fun node inside => ?_⟩
  · rw [← moved_children_parent kinship unique inside]
    exact finds (.inl rfl) (.inr rfl) inside
  · intro siblings descendants
    have beside := kinship.mem_besides_iff unique inside
    refine ⟨beside, ?_, ?_, kinship.mem_descend_iff inside patient⟩
    · intro other within
      have back := kinship.mem_besides_iff unique within
      refine ((beside.2 other).trans ?_).trans (back.2 node).symm
      constructor
      · rintro ⟨-, apart, above, one, also⟩
        exact ⟨inside, apart.symm, above, also, one⟩
      · rintro ⟨-, apart, above, one, also⟩
        exact ⟨within, apart.symm, above, also, one⟩
    · intro above under
      obtain ⟨before, after, split, listed⟩ := kinship.besides_eq unique inside under
      refine ⟨before, after, split, congrArg Listing.nodes listed, ?_⟩
      rw [← split, ← moved_parent_children kinship unique inside under]
      exact finds (.inr rfl) (.inl rfl) (List.forall_mem_singleton.mpr inside)

end Path

end Kinship

end TreeQuery

namespace TreeQuery.Grove

open TreeQuery.Tree (HasParent)

/-- In the part of the grove, where one node has a sibling and another one is a grandchild. -/
theorem part_relocations_agree :
    Tree.Kinship children parent part ∧ Set.InjOn Keyed.key part ∧
      ∃ enough, ∀ patience, enough ≤ patience →
        let linked := setting.linked patience children parent
        (Path.relocating .children .parent).Finds linked
          [spot 6 "z", spot 5 "y", spot 2 "b"] [spot 5 "y", spot 2 "b"] ∧
        (∀ other, other ∈ (linked.host.siblings (spot 4 "x")).nodes ↔
          other ∈ part ∧ other ≠ spot 4 "x" ∧
            ∃ above, HasParent parent (spot 4 "x") above ∧ HasParent parent other above) ∧
        (∀ other, other ∈ (linked.host.descendants (spot 2 "b")).nodes ↔
          other ∈ part ∧ Relation.TransGen (HasParent parent) other (spot 2 "b")) := by
  refine ⟨part_kinship, part_keys, ?_⟩
  obtain ⟨enough, agree⟩ := Path.relocations_agree setting part_kinship part_keys
  refine ⟨enough, fun patience patient => ?_⟩
  obtain ⟨downUp, related⟩ := agree patience patient
  refine ⟨?_, ?_, ?_⟩
  · exact downUp [spot 6 "z", spot 5 "y", spot 2 "b"] (by simp [part])
  · exact (related (spot 4 "x") (by simp [part])).1.2
  · exact (related (spot 2 "b") (by simp [part])).2.2.2.2.2

end TreeQuery.Grove
