import Mathlib.Data.Fintype.Card
import Mathlib.Order.Interval.Set.Nat
import Mathlib.Order.WellFounded
import TreeQuery.Proofs.Forest.Links
import TreeQuery.Proofs.Tree.Grounded

/-! # Forests without circles

Attaching a member makes a circle of children exactly if it is attached to itself or to a member
below itself (`TreeQuery.Forest.circleFree_link_iff`), and no other change of a forest makes one. A
forest has no circles just if every way up ends at a root, and just if every walk comes to an end
(`TreeQuery.Forest.Linked.circleFree_iff_walks`).
-/

namespace TreeQuery

/-- Listings that follow each other end without a fault exactly if each of them does. -/
theorem Listing.fault?_concat_eq_none {Node Failure : Type}
    {listings : List (Listing Node Failure)} :
    (concat listings).fault? = none ↔ ∀ listing ∈ listings, listing.fault? = none := by
  induction listings with
  | nil => exact iff_of_true rfl (List.forall_mem_nil _)
  | cons first rest ih =>
      rw [List.forall_mem_cons, ← ih, concat, List.foldr_cons, append, ← concat]
      cases first.fault? <;> simp

/-- Listings that end without a fault hand out the nodes of one after those of the other. -/
theorem Listing.nodes_concat {Node Failure : Type} {listings : List (Listing Node Failure)}
    (ends : ∀ listing ∈ listings, listing.fault? = none) :
    (concat listings).nodes = listings.flatMap Listing.nodes := by
  induction listings with
  | nil => rfl
  | cons first rest ih =>
      rw [List.forall_mem_cons] at ends
      rw [concat, List.foldr_cons, append, ends.1, ← concat, List.flatMap_cons, ← ih ends.2]

namespace Forest

variable {forest : Forest}

/-- A member has another among its children. -/
def Holds (forest : Forest) (upper lower : Nat) : Prop :=
  .member lower ∈ forest.children upper

/-- No member is below itself. -/
def CircleFree (forest : Forest) : Prop :=
  ∀ index, ¬ Relation.TransGen forest.Holds index index

theorem circleFree_congr {other : Forest}
    (same : ∀ upper lower, other.Holds upper lower ↔ forest.Holds upper lower) :
    other.CircleFree ↔ forest.CircleFree := by
  have equal : other.Holds = forest.Holds := by
    funext upper lower
    exact propext (same upper lower)
  rw [CircleFree, CircleFree, equal]

theorem circleFree_empty : ({} : Forest).CircleFree := by
  intro index circle
  obtain ⟨_, _, listed⟩ := Relation.TransGen.tail'_iff.mp circle
  exact absurd listed List.not_mem_nil

theorem circleFree_sprout (name kind : Value) (identifier? : Option String)
    (attributes : List (String × Value)) :
    (forest.sprout name kind identifier? attributes).CircleFree ↔ forest.CircleFree := by
  apply circleFree_congr
  intro upper lower
  rw [Holds, Holds, children_sprout]

/-- An object from outside is below a member, but no member is below it. -/
theorem circleFree_adopt (parent object : Nat) :
    (forest.adopt parent (.object object)).CircleFree ↔ forest.CircleFree := by
  apply circleFree_congr
  intro upper lower
  rw [Holds, Holds, children_adopt]
  split
  · rw [List.mem_append, List.mem_singleton]
    exact or_iff_left Place.noConfusion
  · rfl

/-- Linking a member closes a circle exactly if its new parent is the member itself or below it. -/
theorem circleFree_link_iff {parent child : Nat} (above : parent < forest.members.size) :
    (forest.link parent child).CircleFree ↔
      forest.CircleFree ∧ ¬ Relation.ReflTransGen forest.Holds child parent := by
  apply Tree.acyclic_edge_iff
  intro upper lower
  rw [Holds, Holds, children_link]
  by_cases listing : upper = parent
  · subst upper
    simp [above]
  · simp [listing]

theorem Linked.holds_iff (linked : forest.Linked) {upper lower : Nat} :
    forest.Holds upper lower ↔ forest.parent? lower = some upper :=
  linked.mem_children_iff

/-- A member without a parent is below no other. -/
theorem Linked.eq_of_reaches (linked : forest.Linked) {upper lower : Nat}
    (free : forest.parent? lower = none) (below : Relation.ReflTransGen forest.Holds upper lower) :
    upper = lower := by
  rcases Relation.ReflTransGen.cases_tail below with same | ⟨middle, _, listed⟩
  · exact same.symm
  · rw [linked.holds_iff.mp listed] at free
    cases free

/-- The way up from every member ends at one that has no parent. -/
def Rooted (forest : Forest) : Prop :=
  ∀ index, ∃ root, Relation.ReflTransGen (fun lower upper => forest.parent? lower = some upper)
    index root ∧ forest.parent? root = none

theorem CircleFree.rooted (free : forest.CircleFree) (linked : forest.Linked) : forest.Rooted := by
  let Above (upper lower : Fin forest.members.size) : Prop :=
    Relation.TransGen forest.Holds upper lower
  have transitive : IsTrans (Fin forest.members.size) Above :=
    ⟨fun _ _ _ first second => first.trans second⟩
  have irreflexive : Std.Irrefl Above := ⟨fun member => free member⟩
  have founded : WellFounded Above := Finite.wellFounded_of_trans_of_irrefl Above
  have upward : ∀ member : Fin forest.members.size,
      ∃ root, Relation.ReflTransGen (fun lower upper => forest.parent? lower = some upper)
        member root ∧ forest.parent? root = none := by
    intro member
    induction member using founded.induction with
    | _ member ih =>
        cases above : forest.parent? member with
        | none => exact ⟨member, .refl, above⟩
        | some upper =>
            have listed : forest.Holds upper member := linked.holds_iff.mpr above
            have present := lt_size_of_mem_children listed
            obtain ⟨root, way, top⟩ := ih ⟨upper, present⟩ (.single listed)
            exact ⟨root, .head above way, top⟩
  intro index
  by_cases present : index < forest.members.size
  · exact upward ⟨index, present⟩
  · refine ⟨index, .refl, ?_⟩
    rw [parent?, Array.getElem?_eq_none (Nat.le_of_not_lt present)]
    rfl

/-- On a circle the way up goes round and round. -/
theorem Linked.circleFree_iff_rooted (linked : forest.Linked) :
    forest.CircleFree ↔ forest.Rooted := by
  refine ⟨fun free => free.rooted linked, fun rooted index circle => ?_⟩
  obtain ⟨root, way, top⟩ := rooted index
  have around : Relation.TransGen forest.Holds root root := by
    clear top
    induction way with
    | refl => exact circle
    | tail _ above ih =>
        obtain ⟨last, below, listed⟩ := Relation.TransGen.tail'_iff.mp ih
        cases above.symm.trans (linked.holds_iff.mp listed)
        exact .head' listed below
  obtain ⟨last, _, listed⟩ := Relation.TransGen.tail'_iff.mp around
  cases top.symm.trans (linked.holds_iff.mp listed)

/-- The members among the children of a member. -/
def kin (forest : Forest) (index : Nat) : Listing Nat Place :=
  ⟨(forest.children index).filterMap fun child => match child with
    | .member lower => some lower
    | .object _ => none, none⟩

theorem mem_kin {upper lower : Nat} :
    lower ∈ (forest.kin upper).nodes ↔ forest.Holds upper lower := by
  rw [kin, List.mem_filterMap, Holds]
  constructor
  · rintro ⟨place, listed, same⟩
    cases place with
    | member index =>
        cases same
        exact listed
    | object index => cases same
  · exact fun listed => ⟨.member lower, listed, rfl⟩

/-- Without objects from outside, the children of a member are members. -/
theorem children_eq_map_kin (pure : ∀ upper object, .object object ∉ forest.children upper)
    (index : Nat) : forest.children index = (forest.kin index).nodes.map .member := by
  have members : ∀ child ∈ forest.children index, (match child with
      | Place.member lower => some lower
      | .object _ => none).map Place.member = some child := by
    intro child listed
    cases child with
    | member lower => rfl
    | object other => exact absurd listed (pure index other)
  rw [kin, List.map_filterMap, List.filterMap_congr members, List.filterMap_some]

/-- The members of a forest without circles are a grounded region. -/
theorem CircleFree.grounded (free : forest.CircleFree) (linked : forest.Linked) :
    Tree.Grounded forest.kin (Set.Iio forest.members.size) where
  finite := Set.finite_Iio _
  confined := fun _ _ =>
    ⟨rfl, fun _ below => lt_size_of_parent? (linked.holds_iff.mp (mem_kin.mp below))⟩
  acyclic := by
    have same : Tree.IsAbove forest.kin = forest.Holds := by
      funext upper lower
      exact propext mem_kin
    rw [same]
    exact fun index _ => free index

/-- A walk breaks off at objects from outside, and without them ends unless it is too long. -/
theorem fault?_walkTo_succ (pure : ∀ upper object, .object object ∉ forest.children upper)
    {depth index : Nat} : (forest.walkTo (depth + 1) index).fault? = none ↔
      ∀ lower, forest.Holds index lower → (forest.walkTo depth lower).fault? = none := by
  rw [walkTo, Listing.cons, Listing.fault?_concat_eq_none, List.forall_mem_map]
  constructor
  · exact fun each lower listed => each (.member lower) listed
  · intro each child listed
    cases child with
    | member lower => exact each lower listed
    | object index' => exact absurd listed (pure index index')

/-- Without objects from outside, a walk that ends hands out a member and the walks from those among
its children. -/
theorem nodes_walkTo_succ (pure : ∀ upper object, .object object ∉ forest.children upper)
    {depth index : Nat}
    (ends : ∀ lower, forest.Holds index lower → (forest.walkTo depth lower).fault? = none) :
    (forest.walkTo (depth + 1) index).nodes =
      index :: (forest.kin index).nodes.flatMap fun lower => (forest.walkTo depth lower).nodes := by
  rw [walkTo, children_eq_map_kin pure, List.map_map, Listing.cons, Listing.nodes_concat,
    List.flatMap_map]
  · rfl
  · rw [List.forall_mem_map]
    exact fun lower listed => ends lower (mem_kin.mp listed)

/-- Without objects from outside, a forest has no circles exactly if the walks from all its members
end. -/
theorem Linked.circleFree_iff_walks (linked : forest.Linked)
    (pure : ∀ upper object, .object object ∉ forest.children upper) :
    forest.CircleFree ↔ ∀ index < forest.members.size, (forest.walk index).fault? = none := by
  constructor
  · intro free
    have enclosed := (free.grounded linked).enclosed
    -- What is below a member is fewer than all members, and less from each member to its children.
    have ends : ∀ depth, ∀ index < forest.members.size,
        (Tree.beneath forest.kin (Set.Iio forest.members.size) index).ncard < depth →
          (forest.walkTo depth index).fault? = none := by
      intro depth
      induction depth with
      | zero => exact fun _ _ few => absurd few (Nat.not_lt_zero _)
      | succ depth ih =>
          intro index present few
          rw [fault?_walkTo_succ pure]
          intro lower listed
          apply ih lower (lt_size_of_parent? (linked.holds_iff.mp listed))
          have fewer := enclosed.ncard_beneath_lt present (mem_kin.mpr listed)
          exact Nat.lt_of_lt_of_le fewer (Nat.le_of_lt_succ few)
    intro index present
    apply ends _ index present
    have fewer := enclosed.ncard_beneath_lt_ncard present
    rwa [Set.ncard_Iio_nat] at fewer
  · intro walks index circle
    -- A walk on a circle is too long for every depth.
    have endless : ∀ depth index, Relation.TransGen forest.Holds index index →
        (forest.walkTo depth index).fault? ≠ none := by
      intro depth
      induction depth with
      | zero => exact fun _ _ => Option.some_ne_none _
      | succ depth ih =>
          intro index circle ends
          obtain ⟨lower, listed, back⟩ := Relation.TransGen.head'_iff.mp circle
          exact ih lower (.tail' back listed) (fault?_walkTo_succ pure |>.mp ends lower listed)
    obtain ⟨_, listed, _⟩ := Relation.TransGen.head'_iff.mp circle
    exact endless _ index circle (walks index (lt_size_of_mem_children listed))

end Forest

end TreeQuery
