import TreeQuery.World

/-! # Links in both directions

A forest writes each link down twice: the parent lists the child, and the child knows the parent.
The two agree in the forest without members, and planting a member, linking one that has no parent
and adopting an object from outside keep them in agreement
(`TreeQuery.Forest.Linked.link` and the like). Attaching to a member is one of the last two
(`TreeQuery.World.attach_cases`).
-/

namespace TreeQuery

namespace Forest

variable {forest : Forest}

/-- Every member stands once among the children of its parent, and nowhere else. -/
def Linked (forest : Forest) : Prop :=
  ∀ parent child, (forest.children parent).count (.member child) =
    if forest.parent? child = some parent then 1 else 0

section Sprouting

variable (name kind : Value) (identifier? : Option String) (attributes : List (String × Value))

/-- A sprout is one more member, whether it brings an identifier or not. -/
theorem members_sprout (forest : Forest) : ∃ identifier,
    (forest.sprout name kind identifier? attributes).members =
      forest.members.push ⟨name, kind, identifier, attributes, none, []⟩ := by
  cases identifier? with
  | none => exact ⟨_, rfl⟩
  | some identifier => exact ⟨identifier, rfl⟩

@[simp] theorem size_sprout :
    (forest.sprout name kind identifier? attributes).members.size = forest.members.size + 1 := by
  obtain ⟨identifier, grown⟩ := members_sprout name kind identifier? attributes forest
  rw [grown, Array.size_push]

/-- A sprout has no parent, and no other member gets or loses one. -/
@[simp] theorem parent?_sprout (index : Nat) :
    (forest.sprout name kind identifier? attributes).parent? index = forest.parent? index := by
  obtain ⟨identifier, grown⟩ := members_sprout name kind identifier? attributes forest
  rw [parent?, parent?, grown, Array.getElem?_push]
  split
  · next last =>
    rw [last, Array.getElem?_eq_none (Nat.le_refl _)]
    rfl
  · rfl

/-- A sprout has no children, and no other member gets or loses one. -/
@[simp] theorem children_sprout (index : Nat) :
    (forest.sprout name kind identifier? attributes).children index = forest.children index := by
  obtain ⟨identifier, grown⟩ := members_sprout name kind identifier? attributes forest
  rw [children, children, grown, Array.getElem?_push]
  split
  · next last =>
    rw [last, Array.getElem?_eq_none (Nat.le_refl _)]
    rfl
  · rfl

end Sprouting

section Linking

@[simp] theorem size_adopt (parent : Nat) (child : Place) :
    (forest.adopt parent child).members.size = forest.members.size :=
  Array.size_modify

@[simp] theorem size_link (parent child : Nat) :
    (forest.link parent child).members.size = forest.members.size :=
  Array.size_modify.trans Array.size_modify

/-- Nobody's parent changes when a member adopts a child. -/
@[simp] theorem parent?_adopt (parent : Nat) (child : Place) (index : Nat) :
    (forest.adopt parent child).parent? index = forest.parent? index := by
  simp only [parent?, adopt, Array.getElem?_modify]
  split
  · cases forest.members[index]? <;> rfl
  · rfl

/-- Only the member that adopts a child changes its children. -/
theorem children_adopt (parent : Nat) (child : Place) (index : Nat) :
    (forest.adopt parent child).children index =
      if index = parent ∧ index < forest.members.size then forest.children index ++ [child]
      else forest.children index := by
  simp only [children, adopt, Array.getElem?_modify]
  by_cases present : index < forest.members.size
  · by_cases above : parent = index <;> simp_all [eq_comm]
  · simp_all
    omega

/-- Whoever has a parent is a member. -/
theorem lt_size_of_parent? {child parent : Nat} (above : forest.parent? child = some parent) :
    child < forest.members.size := by
  refine Nat.lt_of_not_le fun outside => ?_
  rw [parent?, Array.getElem?_eq_none outside] at above
  cases above

/-- Whoever has children is a member. -/
theorem lt_size_of_mem_children {parent : Nat} {child : Place}
    (listed : child ∈ forest.children parent) : parent < forest.members.size := by
  refine Nat.lt_of_not_le fun outside => ?_
  rw [children, Array.getElem?_eq_none outside] at listed
  exact absurd listed List.not_mem_nil

end Linking

namespace Linked

/-- Linked members are those whose parent is known. -/
theorem mem_children_iff (linked : forest.Linked) {parent child : Nat} :
    .member child ∈ forest.children parent ↔ forest.parent? child = some parent := by
  rw [← List.count_pos_iff, linked parent child]
  split
  · next above => exact iff_of_true Nat.zero_lt_one above
  · next apart => exact iff_of_false (Nat.lt_irrefl 0) apart

theorem empty : ({} : Forest).Linked := by
  intro parent child
  rfl

theorem sprout (linked : forest.Linked) (name kind : Value) (identifier? : Option String)
    (attributes : List (String × Value)) :
    (forest.sprout name kind identifier? attributes).Linked := by
  intro parent child
  rw [children_sprout, parent?_sprout]
  exact linked parent child

/-- Linking a member that has no parent keeps both directions in agreement. -/
theorem link (linked : forest.Linked) {parent child : Nat}
    (above : parent < forest.members.size) (below : child < forest.members.size)
    (free : forest.parent? child = none) : (forest.link parent child).Linked := by
  intro upper lower
  rw [children_link, parent?_link]
  have before := linked upper lower
  by_cases listing : upper = parent
  · subst upper
    simp only [above, and_self, ↓reduceIte, List.count_append, before]
    by_cases listed : lower = child
    · subst lower
      simp [below, free]
    · have other : List.count (Place.member lower) [.member child] = 0 := by
        rw [List.count_eq_zero, List.mem_singleton]
        exact fun same => listed (Place.member.inj same)
      simp only [listed, false_and, ↓reduceIte, other, Nat.add_zero]
  · simp only [listing, false_and, ↓reduceIte, before]
    by_cases listed : lower = child
    · subst lower
      simp [below, free, Ne.symm listing]
    · simp only [listed, false_and, ↓reduceIte]

/-- Objects from outside have no part in the links between members. -/
theorem adopt (linked : forest.Linked) (parent object : Nat) :
    (forest.adopt parent (.object object)).Linked := by
  intro upper lower
  rw [children_adopt, parent?_adopt, ← linked upper lower]
  split
  · rw [List.count_append]
    have other : List.count (Place.member lower) [.object object] = 0 := by
      rw [List.count_eq_zero, List.mem_singleton]
      exact Place.noConfusion
    rw [other, Nat.add_zero]
  · rfl

end Linked

end Forest

namespace World

variable {world : World}

/-- The parent of a member as an attribute: nothing for a member without one. -/
theorem attributeOf?_parent {child : Value} {index : Nat}
    (place : child.place? = some (.member index)) :
    world.attributeOf? child "parent" = if index < world.forest.members.size then
      some (((world.forest.parent? index).map world.member).getD .null) else none := by
  rw [attributeOf?, place]
  dsimp only
  by_cases present : index < world.forest.members.size
  · rw [if_pos present, Forest.parent?, Array.getElem?_eq_getElem present]
    rfl
  · rw [if_neg present, Array.getElem?_eq_none (Nat.le_of_not_lt present)]
    rfl

/-- What attaching a child does: a member without a parent is linked, and an object from outside is
adopted. -/
theorem attach_cases {grown : World} {parent : Nat} {child : Value}
    (done : world.attach parent child = .ok grown) :
    (∃ index, child.place? = some (.member index) ∧ index < world.forest.members.size ∧
      world.forest.parent? index = none ∧
      grown = { world with forest := world.forest.link parent index }) ∨
    ∃ index, child.place? = some (.object index) ∧
      grown.forest = world.forest.adopt parent (.object index) := by
  rw [attach] at done
  split at done
  · next place above placed found =>
    split at done
    · next nothing =>
      cases done
      cases place with
      | member index =>
          rw [attributeOf?_parent placed] at found
          split at found
          · next present =>
            refine .inl ⟨index, placed, present, ?_, rfl⟩
            cases free : world.forest.parent? index with
            | none => rfl
            | some upper =>
                rw [free, Option.some.injEq] at found
                rw [← found] at nothing
                cases nothing
          · cases found
      | object index => exact .inr ⟨index, placed, rfl⟩
    · cases done
  · cases done

/-- A member that has no parent can be attached. -/
theorem attach_of_free {parent index : Nat} {child : Value}
    (place : child.place? = some (.member index)) (present : index < world.forest.members.size)
    (free : world.forest.parent? index = none) :
    world.attach parent child = .ok { world with forest := world.forest.link parent index } := by
  rw [attach, attributeOf?_parent place, if_pos present, place, free]
  rfl

/-- What attaching each of several children keeps holds after attaching them all, also when one of
them was refused. -/
theorem attachAll_induct {motive : World → Prop} {parent : Nat} {children : List Value}
    (step : ∀ before, ∀ child ∈ children, ∀ grown, motive before →
      before.attach parent child = .ok grown → motive grown)
    (holds : motive world) : motive (world.attachAll parent children).1 := by
  induction children generalizing world with
  | nil => exact holds
  | cons child rest ih =>
      rw [attachAll]
      split
      · next grown done =>
        refine ih (fun before other member => step before other (.tail _ member)) ?_
        exact step world child List.mem_cons_self grown holds done
      · exact holds

end World

end TreeQuery
