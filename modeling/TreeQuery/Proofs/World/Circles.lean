import Mathlib.Data.Set.Finite.Basic
import TreeQuery.Adapter
import TreeQuery.Proofs.Forest.Circles
import TreeQuery.Proofs.Navigation.Termination
import TreeQuery.Proofs.World.History

/-! # Circles of members

A new member is above none but members without a parent and below none, so that planting never makes
a circle. Attaching does, when a member without a parent is attached to itself or below itself,
which nothing forbids, and no later deed undoes it. So a world has no circles just if no deed ever
closed one, and then whatever goes up or down among its members comes to an end
(`TreeQuery.World.circleFree_iff_spares`).
-/

namespace TreeQuery

/-- A deed that concerns no objects outside the forest. -/
def Deed.OnMembers : Deed → Prop
  | .plant _ _ _ _ _ | .attach _ _ => True
  | .put _ | .set _ _ _ => False

namespace World

variable {world : World}

/-- A deed that attaches a member without a parent to itself or to a member below itself. -/
def Closes (world : World) : Deed → Prop
  | .attach parent child => ∃ index, child.place? = some (.member index) ∧
      world.forest.parent? index = none ∧ Relation.ReflTransGen world.forest.Holds index parent
  | _ => False

/-- Deeds none of which closes a circle when its turn comes. -/
def Spares (world : World) : List Deed → Prop
  | [] => True
  | deed :: rest => ¬ world.Closes deed ∧ (world.after deed).Spares rest

section Steps

/-- A world while a member is planted: the new one, which comes after all others, has no parent,
and there are no more circles than before. -/
structure Planting (world grown : World) : Prop where
  present : world.forest.members.size < grown.forest.members.size
  linked : grown.forest.Linked
  free : grown.forest.parent? world.forest.members.size = none
  same : grown.forest.CircleFree ↔ world.forest.CircleFree

theorem Planting.sprout (linked : world.forest.Linked) (name kind : Value)
    (identifier? : Option String) (attributes : List (String × Value)) :
    Planting world
      { world with forest := world.forest.sprout name kind identifier? attributes } where
  present := by simp
  linked := linked.sprout name kind identifier? attributes
  free := by
    rw [Forest.parent?_sprout, Forest.parent?, Array.getElem?_eq_none (Nat.le_refl _)]
    rfl
  same := Forest.circleFree_sprout name kind identifier? attributes

/-- What is attached to a new member has been there before, so it is not above the new member. -/
theorem Planting.attach {before grown : World} (planting : Planting world before) {child : Value}
    (known : world.Knows child)
    (done : before.attach world.forest.members.size child = .ok grown) : Planting world grown := by
  rcases attach_cases done with ⟨index, place, below, rootless, rfl⟩ | ⟨index, _, adopted⟩
  · have older : index < world.forest.members.size := known index place
    have apart : ¬ Relation.ReflTransGen before.forest.Holds index world.forest.members.size :=
      fun reaches => Nat.ne_of_lt older (planting.linked.eq_of_reaches planting.free reaches)
    exact
      { present := by simpa using planting.present
        linked := planting.linked.link planting.present below rootless
        free := by
          rw [Forest.parent?_link, if_neg fun both => Nat.ne_of_gt older both.1, planting.free]
        same := by
          rw [Forest.circleFree_link_iff planting.present, and_iff_left apart, planting.same] }
  · constructor
    · simpa [adopted] using planting.present
    · rw [adopted]
      exact planting.linked.adopt _ _
    · rw [adopted, Forest.parent?_adopt, planting.free]
    · rw [adopted, Forest.circleFree_adopt, planting.same]

theorem circleFree_plant (linked : world.forest.Linked) (name kind : Value)
    (identifier? : Option String) (attributes : List (String × Value)) {children : List Value}
    (known : ∀ child ∈ children, world.Knows child) :
    (world.plant name kind identifier? attributes children).1.forest.CircleFree ↔
      world.forest.CircleFree :=
  (attachAll_induct (motive := Planting world)
    (fun _ child member _ planting done => planting.attach (known child member) done)
    (.sprout linked name kind identifier? attributes)).same

/-- Attaching makes a circle exactly if it closes one. -/
theorem circleFree_attach {parent : Nat} (present : parent < world.forest.members.size)
    (child : Value) : (world.after (.attach parent child)).forest.CircleFree ↔
      world.forest.CircleFree ∧ ¬ world.Closes (.attach parent child) := by
  rw [after]
  split
  · next grown done =>
    rcases attach_cases done with ⟨index, place, below, free, rfl⟩ | ⟨index, place, adopted⟩
    · rw [Forest.circleFree_link_iff present]
      have closes : world.Closes (.attach parent child) ↔
          Relation.ReflTransGen world.forest.Holds index parent := by
        constructor
        · rintro ⟨other, otherPlace, _, reaches⟩
          cases place.symm.trans otherPlace
          exact reaches
        · exact fun reaches => ⟨index, place, free, reaches⟩
      rw [closes]
    · have apart : ¬ world.Closes (.attach parent child) := by
        rintro ⟨other, otherPlace, _⟩
        cases place.symm.trans otherPlace
      rw [adopted, Forest.circleFree_adopt, and_iff_left apart]
  · next refused done =>
    have apart : ¬ world.Closes (.attach parent child) := by
      rintro ⟨index, place, free, reaches⟩
      have below : index < world.forest.members.size := by
        rcases Relation.ReflTransGen.cases_head reaches with rfl | ⟨_, listed, _⟩
        · exact present
        · exact Forest.lt_size_of_mem_children listed
      cases done.symm.trans (attach_of_free place below free)
    rw [and_iff_left apart]

/-- A deed leaves circles exactly if there were some or it closes one. -/
theorem Permits.circleFree_after {deed : Deed} (permitted : world.Permits deed)
    (linked : world.forest.Linked) : (world.after deed).forest.CircleFree ↔
      world.forest.CircleFree ∧ ¬ world.Closes deed := by
  cases deed with
  | plant name kind identifier? attributes children =>
      rw [after, circleFree_plant linked name kind identifier? attributes permitted]
      exact (and_iff_left not_false).symm
  | attach parent child => exact circleFree_attach permitted child
  | put | set => exact (and_iff_left not_false).symm

/-- Deeds leave circles exactly if there were some or one of them closes one. -/
theorem PermitsAll.circleFree_afterAll {deeds : List Deed} (permitted : world.PermitsAll deeds)
    (linked : world.forest.Linked) : (world.afterAll deeds).forest.CircleFree ↔
      world.forest.CircleFree ∧ world.Spares deeds := by
  induction deeds generalizing world with
  | nil => exact (and_iff_left trivial).symm
  | cons deed rest ih =>
      have later := permitted.1.grows.linked linked
      rw [afterAll_cons, ih permitted.2 later, permitted.1.circleFree_after linked, and_assoc]
      rfl

end Steps

/-- A world without objects outside the forest. -/
structure HoldsMembersOnly (world : World) : Prop where
  nothing : world.things = #[]
  pure : ∀ upper object, .object object ∉ world.forest.children upper

namespace HoldsMembersOnly

/-- Without objects outside the forest there is none that could be attached. -/
theorem attach (only : world.HoldsMembersOnly) {parent : Nat} {child : Value} {grown : World}
    (done : world.attach parent child = .ok grown) : grown.HoldsMembersOnly := by
  rcases attach_cases done with ⟨index, _, _, _, rfl⟩ | ⟨index, place, _⟩
  · refine ⟨only.nothing, fun upper object listed => ?_⟩
    rw [Forest.children_link] at listed
    split at listed
    · rcases List.mem_append.mp listed with old | new
      · exact only.pure upper object old
      · cases List.mem_singleton.mp new
    · exact only.pure upper object listed
  · have missing : world.attributeOf? child "parent" = none := by
      rw [attributeOf?, place, only.nothing]
      rfl
    rw [World.attach, place, missing] at done
    cases done

theorem after (only : world.HoldsMembersOnly) {deed : Deed} (onMembers : deed.OnMembers) :
    (world.after deed).HoldsMembersOnly := by
  cases deed with
  | plant name kind identifier? attributes children =>
      refine attachAll_induct (fun before child _ grown holds done => holds.attach done) ?_
      refine ⟨only.nothing, fun upper object => ?_⟩
      rw [Forest.children_sprout]
      exact only.pure upper object
  | attach parent child =>
      rw [World.after]
      split
      · next done => exact only.attach done
      · exact only
  | put | set => exact onMembers.elim

theorem afterAll (only : world.HoldsMembersOnly) {deeds : List Deed}
    (onMembers : ∀ deed ∈ deeds, deed.OnMembers) : (world.afterAll deeds).HoldsMembersOnly := by
  induction deeds generalizing world with
  | nil => exact only
  | cons deed rest ih =>
      rw [List.forall_mem_cons] at onMembers
      exact ih (only.after onMembers.1) onMembers.2

theorem empty : World.HoldsMembersOnly {} :=
  ⟨rfl, fun _ _ => List.not_mem_nil⟩

end HoldsMembersOnly

section Hosting

/-- Whatever its identifier, an object is another value than all others. -/
theorem value_injective (world : World) : Function.Injective world.value := by
  have placed : ∀ place, (world.value place).place? = some place := by
    intro place
    cases place <;> rfl
  intro left right same
  have places := congrArg Value.place? same
  rw [placed, placed] at places
  exact Option.some.inj places

theorem member_injective (world : World) : Function.Injective world.member :=
  fun _ _ same => Place.member.inj (world.value_injective same)

/-- The values that the members of a world are. -/
def memberValues (world : World) : Set Value :=
  world.member '' Set.Iio world.forest.members.size

theorem ncard_memberValues (world : World) :
    world.memberValues.ncard = world.forest.members.size := by
  rw [memberValues, Set.ncard_image_of_injective _ world.member_injective, Set.ncard_Iio_nat]

/-- Nodes are objects already, so a list hands them out as they are. -/
theorem objects_map_value (world : World) (owner : Key) (places : List Place) :
    Value.objects owner (places.map world.value) = places.map world.value := by
  have nodes : ∀ item ∈ places.map world.value, ∀ key, item.owned key = item := by
    intro item member key
    obtain ⟨place, _, rfl⟩ := List.mem_map.mp member
    cases place <;> rfl
  generalize places.map world.value = items at nodes
  rw [Value.objects]
  conv_rhs => rw [← List.zipIdx_map_fst 0 items]
  apply List.map_congr_left
  rintro ⟨item, position⟩ member
  exact nodes item (List.fst_mem_of_mem_zipIdx member) _

/-- The children of a member as its host lists them. -/
theorem children_standard {index : Nat} (present : index < world.forest.members.size)
    (patience : Nat) : (world.host patience .standard).children (world.member index) =
      ⟨(world.forest.children index).map world.value, none⟩ := by
  have place : (world.member index).place? = some (.member index) := rfl
  have kept : world.attributeOf (world.member index) "children" =
      .own (.held (.member index) "children")
        (.list ((world.forest.children index).map world.value)) := by
    rw [attributeOf, attributeOf?, place, Forest.children]
    dsimp only
    rw [Array.getElem?_eq_getElem present]
    rfl
  have items : ∀ key nodes, (Value.own key (.list nodes)).items? =
      some (Value.objects key nodes) := fun _ _ => rfl
  change world.listChildren (world.attributeOf (world.member index) "children") = _
  rw [kept, listChildren, items, objects_map_value]
  cases world.forest.children index <;> rfl

variable {patience : Nat}

/-- What a host lists as a child of a member is a member that has it as its parent. -/
theorem mem_children_standard (only : world.HoldsMembersOnly) (linked : world.forest.Linked)
    {upper : Nat} (present : upper < world.forest.members.size) {node : Value} :
    node ∈ ((world.host patience .standard).children (world.member upper)).nodes ↔
      ∃ lower < world.forest.members.size, world.forest.Holds upper lower ∧
        world.member lower = node := by
  rw [children_standard present, List.mem_map]
  constructor
  · rintro ⟨place, listed, rfl⟩
    cases place with
    | member lower =>
        exact ⟨lower, Forest.lt_size_of_parent? (linked.holds_iff.mp listed), listed, rfl⟩
    | object index => exact absurd listed (only.pure upper index)
  · rintro ⟨lower, _, listed, rfl⟩
    exact ⟨.member lower, listed, rfl⟩

/-- What is below a member in its host is a member below it in the forest. -/
theorem below_standard (only : world.HoldsMembersOnly) (linked : world.forest.Linked)
    {upper : Nat} (present : upper < world.forest.members.size) {node : Value}
    (below : Relation.TransGen (Tree.IsAbove (world.host patience .standard).children)
      (world.member upper) node) :
    ∃ lower < world.forest.members.size, Relation.TransGen world.forest.Holds upper lower ∧
      world.member lower = node := by
  induction below with
  | single listed =>
      obtain ⟨lower, known, holds, rfl⟩ := (mem_children_standard only linked present).mp listed
      exact ⟨lower, known, .single holds, rfl⟩
  | tail _ listed ih =>
      obtain ⟨middle, between, reaches, rfl⟩ := ih
      obtain ⟨lower, known, holds, rfl⟩ := (mem_children_standard only linked between).mp listed
      exact ⟨lower, known, reaches.tail holds, rfl⟩

/-- To its host a world of members without circles is a tree. -/
theorem isTree_standard (only : world.HoldsMembersOnly) (linked : world.forest.Linked)
    (free : world.forest.CircleFree) (patience : Nat) :
    Tree.IsTree (world.host patience .standard).children world.memberValues where
  finite := (Set.finite_Iio _).image _
  confined := by
    rintro _ ⟨upper, present, rfl⟩
    refine ⟨by rw [children_standard present], fun node listed => ?_⟩
    obtain ⟨lower, known, _, rfl⟩ := (mem_children_standard only linked present).mp listed
    exact ⟨lower, known, rfl⟩
  acyclic := by
    rintro _ ⟨upper, present, rfl⟩ circle
    obtain ⟨lower, _, reaches, same⟩ := below_standard only linked present circle
    cases world.member_injective same
    exact free _ reaches
  once := by
    rintro _ ⟨upper, present, rfl⟩
    rw [children_standard present]
    refine List.Nodup.map world.value_injective (List.nodup_iff_count_le_one.mpr fun place => ?_)
    cases place with
    | member lower =>
        rw [linked upper lower]
        split <;> omega
    | object index =>
        rw [List.count_eq_zero.mpr (only.pure upper index)]
        exact Nat.zero_le 1
  single := by
    rintro _ ⟨left, leftPresent, rfl⟩ _ ⟨right, rightPresent, rfl⟩ node inLeft inRight
    obtain ⟨lower, _, first, rfl⟩ := (mem_children_standard only linked leftPresent).mp inLeft
    obtain ⟨other, _, second, same⟩ := (mem_children_standard only linked rightPresent).mp inRight
    cases world.member_injective same
    cases (linked.holds_iff.mp first).symm.trans (linked.holds_iff.mp second)
    rfl

end Hosting

/-- Searches down from the members of a world that come to an end. -/
structure SearchesEnd (world : World) : Prop where
  /-- All descendants of a member are listed. -/
  descendants : ∀ index < world.forest.members.size, ∀ patience,
    2 * world.forest.members.size + 2 ≤ patience →
      ((world.host patience .standard).descendants (world.member index)).fault? = none
  /-- A deepening step from any members is not given up, whatever its test. -/
  deepening : ∀ {Leaf : Type} (setting : Setting Value Leaf Failure) (patience : Nat)
    (test : Predicate Leaf) (start : List Value), setting.host = world.host patience .standard →
      setting.Answering → world.forest.members.size < setting.patience →
      (∀ node ∈ start, node ∈ world.memberValues) → ∀ before,
        (((Predicate.traversal .descendants test).step setting (.ofList start)).perform before).1 ≠
          .error .exhausted

theorem SearchesEnd.of_circleFree (only : world.HoldsMembersOnly) (linked : world.forest.Linked)
    (free : world.forest.CircleFree) : world.SearchesEnd where
  descendants index present patience patient := by
    have tree := isTree_standard only linked free patience
    rw [← world.ncard_memberValues] at patient
    obtain ⟨listing, _, _, settles⟩ := tree.descend_settles ⟨index, present, rfl⟩ patient
    exact congrArg Listing.fault? settles
  deepening setting patience test start hosted answering patient inside before := by
    have tree := isTree_standard only linked free patience
    rw [← hosted] at tree
    have within : (Frontier.ofList start).Inside world.memberValues :=
      fun node member => inside node (Frontier.mem_of_mem_ofList member)
    have low : (Frontier.ofList start).Low setting.host.children world.forest.members.size := by
      intro node member depth below descends
      rw [← world.ncard_memberValues]
      exact (tree.enclosed.depth_lt_ncard (within node member) descends).le
    exact (Predicate.step_descendants_finishes answering tree.enclosed.halting test within low
      patient).ne_exhausted before

/-- **Only closing deeds make circles.** However members were planted and attached, and whatever was
refused in between, no member is below itself exactly if no deed attached a member to itself or to
one below it. Exactly then every way up ends at a root, exactly then all walks come to an end, and
then searches for descendants come to an end too. -/
theorem circleFree_iff_spares {deeds : List Deed} (onMembers : ∀ deed ∈ deeds, deed.OnMembers)
    (permitted : World.PermitsAll {} deeds) :
    let world := World.afterAll {} deeds
    (world.forest.CircleFree ↔ World.Spares {} deeds) ∧
      (world.forest.CircleFree ↔ world.forest.Rooted) ∧
      (world.forest.CircleFree ↔
        ∀ index < world.forest.members.size, (world.forest.walk index).fault? = none) ∧
      (world.forest.CircleFree → world.SearchesEnd) := by
  intro world
  have linked : world.forest.Linked := permitted.linked
  have only : world.HoldsMembersOnly := HoldsMembersOnly.empty.afterAll onMembers
  have decided : world.forest.CircleFree ↔ World.Spares {} deeds := by
    rw [permitted.circleFree_afterAll .empty]
    exact and_iff_right Forest.circleFree_empty
  exact ⟨decided, linked.circleFree_iff_rooted, linked.circleFree_iff_walks only.pure,
    .of_circleFree only linked⟩

section Hedge

/-- The second member has the first as its child. The third was refused the first and then gets the
second. -/
def hedge : List Deed :=
  [.plant (.text "a") .null none [] [],
    .plant (.text "b") .null none [] [.node (.member 0) (.identifier "n1")],
    .plant (.text "c") .null none [] [.node (.member 0) (.identifier "n1")],
    .attach 2 (.node (.member 1) (.identifier "n2"))]

/-- The last deed spares the hedge a circle, since the third member has no parent. -/
theorem hedge_circleFree :
    (∀ deed ∈ hedge, deed.OnMembers) ∧ World.PermitsAll {} hedge ∧ World.Spares {} hedge ∧
      (World.afterAll {} hedge).forest.CircleFree ∧ (World.afterAll {} hedge).forest.Rooted ∧
      (∀ index < 3, ((World.afterAll {} hedge).forest.walk index).fault? = none) ∧
      (World.afterAll {} hedge).SearchesEnd ∧
      ((World.afterAll {} hedge).forest.walk 2).nodes = [2, 1, 0] := by
  have onMembers : ∀ deed ∈ hedge, deed.OnMembers := by
    simp [hedge, Deed.OnMembers]
  have known : ∀ world : World, 0 < world.forest.members.size →
      ∀ child ∈ [Value.node (.member 0) (.identifier "n1")], world.Knows child := by
    intro world present
    rw [List.forall_mem_singleton]
    rintro index ⟨⟩
    exact present
  have permitted : World.PermitsAll {} hedge := by
    have last : 2 < (World.afterAll {} (hedge.take 3)).forest.members.size := by decide
    exact ⟨List.forall_mem_nil _, known _ (by decide), known _ (by decide), last, trivial⟩
  have spares : World.Spares {} hedge := by
    refine ⟨not_false, not_false, not_false, ?_, trivial⟩
    rintro ⟨index, ⟨⟩, _, reaches⟩
    have before : World.PermitsAll {} (hedge.take 3) :=
      ⟨permitted.1, permitted.2.1, permitted.2.2.1, trivial⟩
    have free : (World.afterAll {} (hedge.take 3)).forest.parent? 2 = none := by decide
    cases before.linked.eq_of_reaches free reaches
  obtain ⟨decided, rooted, walks, searches⟩ := circleFree_iff_spares onMembers permitted
  have free := decided.mpr spares
  refine ⟨onMembers, permitted, spares, free, rooted.mp free, walks.mp free, searches free, ?_⟩
  decide

/-- A stack on which a node lists itself again and again is never empty. -/
theorem fault?_unwind_of_self {Node Failure : Type} {children : Node → Listing Node Failure}
    {node : Node} (listed : children node = ⟨[node], none⟩) (moves : Nat)
    (stack : List (Listing Node Failure)) :
    (Host.unwind children moves (⟨[node], none⟩ :: stack)).fault? = some .exhausted := by
  induction moves generalizing stack with
  | zero => rfl
  | succ moves ih =>
      rw [Host.unwind, listed, Listing.cons]
      exact ih (⟨[], none⟩ :: stack)

/-- A member can be attached to itself. Then it is its own parent and its own child, no way up from
it ends, and neither its walk nor its descendants do, however long one waits. -/
theorem attached_to_itself_circles :
    let deeds : List Deed :=
      [.plant (.text "a") .null none [] [], .attach 0 (.node (.member 0) (.identifier "n1"))]
    let world := World.afterAll {} deeds
    (∀ deed ∈ deeds, deed.OnMembers) ∧ World.PermitsAll {} deeds ∧
      Relation.TransGen world.forest.Holds 0 0 ∧ ¬ world.forest.Rooted ∧
      (∀ depth, (world.forest.walkTo depth 0).fault? = some .exhausted) ∧
      ∀ patience, ((world.host patience .standard).descendants (world.member 0)).fault? =
        some .exhausted := by
  intro deeds world
  have present : 0 < (World.afterAll {} (deeds.take 1)).forest.members.size := by decide
  have permitted : World.PermitsAll {} deeds := ⟨List.forall_mem_nil _, present, trivial⟩
  have listed : world.forest.children 0 = [.member 0] := by decide
  have holds : world.forest.Holds 0 0 := by
    rw [Forest.Holds, listed]
    exact List.mem_cons_self
  refine ⟨by simp [deeds, Deed.OnMembers], permitted, .single holds, ?_, ?_, ?_⟩
  · rw [← permitted.linked.circleFree_iff_rooted]
    exact fun free => free 0 (.single holds)
  · intro depth
    induction depth with
    | zero => rfl
    | succ depth ih =>
        rw [Forest.walkTo, listed, List.map_singleton]
        simp only [Listing.cons, Listing.concat, List.foldr_cons, Listing.append, ih]
  · intro patience
    have again : (world.host patience .standard).children (world.member 0) =
        ⟨[world.member 0], none⟩ := by
      rw [children_standard (by decide), listed]
      rfl
    have endless := fault?_unwind_of_self again patience []
    rw [← again] at endless
    exact Listing.fault?_relayed_eq_exhausted_iff.mpr endless

end Hedge

end World

end TreeQuery
