import TreeQuery.Proofs.Forest.Links

/-! # Histories of worlds

A world comes about by deeds: members are planted with their children, children are attached, and
objects are put beside the forest and get attributes. A deed may be refused in the middle, and what
it did until then stays done. However deeds follow each other, the forest only grows
(`TreeQuery.World.PermitsAll.grows`): links between members agree in both directions, and no member
loses its parent.
-/

namespace TreeQuery

/-- Something done to host objects. -/
inductive Deed where
  | plant (name kind : Value) (identifier? : Option String) (attributes : List (String × Value))
      (children : List Value)
  | attach (parent : Nat) (child : Value)
  | put (thing : Thing)
  | set (index : Nat) (name : String) (value : Value)

namespace Forest

/-- A forest that comes out of another when members are planted, members without a parent are linked
and objects from outside are adopted. -/
inductive Grows (start : Forest) : Forest → Prop where
  | refl : Grows start start
  | sprout {forest : Forest} (name kind : Value) (identifier? : Option String)
      (attributes : List (String × Value)) (before : Grows start forest) :
      Grows start (forest.sprout name kind identifier? attributes)
  | link {forest : Forest} {parent child : Nat} (above : parent < forest.members.size)
      (below : child < forest.members.size) (free : forest.parent? child = none)
      (before : Grows start forest) : Grows start (forest.link parent child)
  | adopt {forest : Forest} (parent object : Nat) (before : Grows start forest) :
      Grows start (forest.adopt parent (.object object))

namespace Grows

variable {start forest later : Forest}

theorem trans (first : Grows start forest) (second : Grows forest later) : Grows start later := by
  induction second with
  | refl => exact first
  | sprout name kind identifier? attributes _ ih =>
      exact ih.sprout name kind identifier? attributes
  | link above below free _ ih => exact ih.link above below free
  | adopt parent object _ ih => exact ih.adopt parent object

theorem size_le (grows : Grows start forest) : start.members.size ≤ forest.members.size := by
  induction grows with
  | refl => exact Nat.le_refl _
  | sprout _ _ _ _ _ ih => exact Nat.le_trans ih (by simp)
  | link _ _ _ _ ih => exact Nat.le_trans ih (by simp)
  | adopt _ _ _ ih => exact Nat.le_trans ih (by simp)

theorem linked (grows : Grows start forest) (before : start.Linked) : forest.Linked := by
  induction grows with
  | refl => exact before
  | sprout name kind identifier? attributes _ ih => exact ih.sprout name kind identifier? attributes
  | link above below free _ ih => exact ih.link above below free
  | adopt parent object _ ih => exact ih.adopt parent object

/-- A member keeps the parent that it has. -/
theorem parent?_eq_some (grows : Grows start forest) {child parent : Nat}
    (above : start.parent? child = some parent) : forest.parent? child = some parent := by
  induction grows with
  | refl => exact above
  | sprout _ _ _ _ _ ih => rw [parent?_sprout, ih]
  | link _ _ free _ ih =>
      rw [parent?_link, if_neg, ih]
      rintro ⟨rfl, _⟩
      rw [ih] at free
      cases free
  | adopt _ _ _ ih => rw [parent?_adopt, ih]

end Grows

end Forest

namespace World

/-- A value that is none but one of the members there are, if it is a member. -/
def Knows (world : World) (value : Value) : Prop :=
  ∀ index, value.place? = some (.member index) → index < world.forest.members.size

/-- What a deed leaves. A child that is refused is not attached, and neither are those after it. -/
def after (world : World) : Deed → World
  | .plant name kind identifier? attributes children =>
      (world.plant name kind identifier? attributes children).1
  | .attach parent child => match world.attach parent child with
      | .ok grown => grown
      | .error _ => world
  | .put thing => (world.addThing thing).1
  | .set index name value => world.setAttribute index name value

/-- What deeds leave that are done one after the other. -/
def afterAll (world : World) (deeds : List Deed) : World := deeds.foldl after world

/-- A deed that can be done: children are attached to a member, and a new member is given none but
values that there are before. -/
def Permits (world : World) : Deed → Prop
  | .plant _ _ _ _ children => ∀ child ∈ children, world.Knows child
  | .attach parent _ => parent < world.forest.members.size
  | .put _ | .set _ _ _ => True

/-- Deeds of which each can be done when its turn comes. -/
def PermitsAll (world : World) : List Deed → Prop
  | [] => True
  | deed :: rest => world.Permits deed ∧ (world.after deed).PermitsAll rest

variable {world grown : World}

theorem afterAll_cons (world : World) (deed : Deed) (rest : List Deed) :
    world.afterAll (deed :: rest) = (world.after deed).afterAll rest :=
  rfl

theorem afterAll_append (world : World) (first second : List Deed) :
    world.afterAll (first ++ second) = (world.afterAll first).afterAll second :=
  List.foldl_append

theorem permitsAll_append {first second : List Deed} :
    world.PermitsAll (first ++ second) ↔
      world.PermitsAll first ∧ (world.afterAll first).PermitsAll second := by
  induction first generalizing world with
  | nil => exact ⟨fun second => ⟨trivial, second⟩, And.right⟩
  | cons deed rest ih =>
      rw [List.cons_append, PermitsAll, PermitsAll, ih, and_assoc]
      rfl

/-- A value that is known stays so when no member is lost. -/
theorem Knows.mono {value : Value} (known : world.Knows value)
    (more : world.forest.members.size ≤ grown.forest.members.size) : grown.Knows value :=
  fun index place => Nat.lt_of_lt_of_le (known index place) more

theorem knows_member {index : Nat} (present : index < world.forest.members.size) :
    world.Knows (world.member index) := by
  rintro _ ⟨⟩
  exact present

/-- Attaching to a member is a growth of the forest. -/
theorem grows_of_attach {parent : Nat} {child : Value}
    (present : parent < world.forest.members.size)
    (done : world.attach parent child = .ok grown) : world.forest.Grows grown.forest := by
  rcases attach_cases done with ⟨index, _, below, free, rfl⟩ | ⟨index, _, adopted⟩
  · exact Forest.Grows.refl.link present below free
  · rw [adopted]
    exact Forest.Grows.refl.adopt parent index

/-- A member without a parent is linked when it is attached to another, or to itself. -/
theorem after_attach_of_free (parent : Nat) {child : Nat}
    (present : child < world.forest.members.size) (free : world.forest.parent? child = none) :
    world.after (.attach parent (world.member child)) =
      { world with forest := world.forest.link parent child } := by
  rw [after, attach_of_free rfl present free]

/-- Nothing comes of attaching a member that has a parent. -/
theorem after_attach_of_parent (parent : Nat) {child upper : Nat}
    (under : world.forest.parent? child = some upper) :
    world.after (.attach parent (world.member child)) = world := by
  have place : (world.member child).place? = some (.member child) := rfl
  rw [after, attach, attributeOf?_parent place, if_pos (Forest.lt_size_of_parent? under), under]
  rfl

/-- Planting is a growth of the forest by at least one member, also when a child is refused. -/
theorem grows_plant (name kind : Value) (identifier? : Option String)
    (attributes : List (String × Value)) (children : List Value) :
    world.forest.members.size <
        (world.plant name kind identifier? attributes children).1.forest.members.size ∧
      world.forest.Grows (world.plant name kind identifier? attributes children).1.forest := by
  have sprouted : world.forest.Grows (world.forest.sprout name kind identifier? attributes) :=
    Forest.Grows.refl.sprout name kind identifier? attributes
  -- The new member stays in its place while its children are attached to it.
  let Planted (grown : World) : Prop :=
    world.forest.members.size < grown.forest.members.size ∧ world.forest.Grows grown.forest
  have attached : Planted (world.plant name kind identifier? attributes children).1 := by
    refine attachAll_induct ?_ ⟨by simp, sprouted⟩
    rintro before child _ after ⟨present, grows⟩ done
    have more := grows_of_attach present done
    exact ⟨Nat.lt_of_lt_of_le present more.size_le, grows.trans more⟩
  exact attached

/-- A member is planted after all others. -/
theorem eq_size_of_plant {name kind : Value} {identifier? : Option String}
    {attributes : List (String × Value)} {children : List Value} {index : Nat}
    (planted : (world.plant name kind identifier? attributes children).2 = .ok index) :
    index = world.forest.members.size := by
  rw [plant] at planted
  dsimp only at planted
  generalize (attachAll _ _ children).2 = outcome at planted
  cases outcome with
  | ok done =>
      cases planted
      rfl
  | error refused => cases planted

theorem Permits.grows {deed : Deed} (permitted : world.Permits deed) :
    world.forest.Grows (world.after deed).forest := by
  cases deed with
  | plant name kind identifier? attributes children =>
      exact (grows_plant name kind identifier? attributes children).2
  | attach parent child =>
      rw [after]
      split
      · next done => exact grows_of_attach permitted done
      · exact .refl
  | put | set => exact .refl

theorem PermitsAll.grows {deeds : List Deed} (permitted : world.PermitsAll deeds) :
    world.forest.Grows (world.afterAll deeds).forest := by
  induction deeds generalizing world with
  | nil => exact .refl
  | cons deed rest ih => exact permitted.1.grows.trans (ih permitted.2)

/-- In a world that came about by deeds, links agree in both directions. -/
theorem PermitsAll.linked {deeds : List Deed} (permitted : World.PermitsAll {} deeds) :
    (World.afterAll {} deeds).forest.Linked :=
  permitted.grows.linked .empty

end World

end TreeQuery
