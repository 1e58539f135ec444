import TreeQuery.Proofs.Session.Quiet
import TreeQuery.Proofs.World.History
import TreeQuery.Session.Execute

/-! # Refused constructions

A member is planted with children that are attached to it one after the other. A child that is not
free by its turn is refused, because it had a parent before or because it stands in the list twice,
and the new member is not handed out. The children in front of the refused one stay attached to it:
they have a parent that nobody can name and cannot be attached anywhere else
(`TreeQuery.World.Permits.plant_refused`). So a refused construction leaves what there was as it was
exactly if the first child already is refused. Attaching a single child, by contrast, changes
nothing unless it succeeds.
-/

namespace TreeQuery

/-- The child that could not be attached. -/
def AttachError.child : AttachError → Value
  | .attached child _ | .parentless child => child

namespace World

variable {world grown : World}

/-- An object that can be attached: its attribute for a parent holds nothing. -/
def Free (world : World) (child : Value) : Prop :=
  ∃ place above, child.place? = some place ∧ world.attributeOf? child "parent" = some above ∧
    above.isNull = true

/-- Children that can be attached one after the other: all are free, and none occurs twice. -/
def Attachable (world : World) (children : List Value) : Prop :=
  (∀ child ∈ children, world.Free child) ∧ (children.map Value.place?).Nodup

section Freedom

variable {child other : Value} {place : Place}

theorem Free.attach_eq (free : world.Free child) (placed : child.place? = some place)
    (upper : Nat) : world.attach upper child = .ok (world.link upper place) := by
  obtain ⟨_, above, _, found, nothing⟩ := free
  rw [attach, placed, found]
  exact if_pos nothing

theorem attach_of_not_free (taken : ¬ world.Free child) (upper : Nat) :
    ∃ refused, world.attach upper child = .error refused ∧ refused.child = child := by
  rw [attach]
  split
  · next place above placed found =>
    split
    · next nothing => exact absurd ⟨place, above, placed, found, nothing⟩ taken
    · exact ⟨_, rfl, rfl⟩
  · exact ⟨_, rfl, rfl⟩

theorem not_free_of_placeless (placeless : child.place? = none) : ¬ world.Free child := by
  rintro ⟨_, _, placed, _⟩
  cases placeless.symm.trans placed

theorem free_member_iff {index : Nat} (placed : child.place? = some (.member index)) :
    world.Free child ↔
      index < world.forest.members.size ∧ world.forest.parent? index = none := by
  rw [Free, attributeOf?_parent placed]
  constructor
  · rintro ⟨_, above, _, found, nothing⟩
    split at found
    · next present =>
      refine ⟨present, ?_⟩
      cases free : world.forest.parent? index with
      | none => rfl
      | some upper =>
          rw [free, Option.some.injEq] at found
          rw [← found] at nothing
          cases nothing
    · cases found
  · rintro ⟨present, free⟩
    exact ⟨_, .null, placed, by rw [if_pos present, free]; rfl, rfl⟩

theorem attributeOf?_parent_object {index : Nat} (placed : child.place? = some (.object index)) :
    world.attributeOf? child "parent" =
      world.things[index]?.bind fun thing => thing.attributes.lookup "parent" := by
  rw [attributeOf?, placed]
  dsimp only
  congr 1
  funext thing
  split <;> simp

/-- Whether an object from outside is free depends on the objects outside only. -/
theorem free_object_congr {index : Nat} (placed : child.place? = some (.object index))
    (same : grown.things[index]? = world.things[index]?) : grown.Free child ↔ world.Free child := by
  rw [Free, Free, attributeOf?_parent_object placed, attributeOf?_parent_object placed, same]

/-- A member that is linked is not free any more, and everything else is free or not as it was. -/
theorem free_link_member_iff {linked : Nat} (upper : Nat) (other : Value) :
    (world.link upper (.member linked)).Free other ↔
      world.Free other ∧ other.place? ≠ some (.member linked) := by
  cases there : other.place? with
  | none =>
      refine iff_of_false (not_free_of_placeless there) ?_
      exact fun both => not_free_of_placeless there both.1
  | some spot =>
      cases spot with
      | member index =>
          have parents := world.forest.parent?_link upper linked index
          rw [free_member_iff there, free_member_iff there, link, parents, Forest.size_link]
          by_cases same : index = linked
          · simp +contextual [same]
          · simp [same]
      | object index =>
          have apart : some (Place.object index) ≠ some (.member linked) := by simp
          have same : (world.link upper (.member linked)).Free other ↔ world.Free other :=
            free_object_congr there rfl
          rw [same, and_iff_left apart]

/-- An object that is linked is not free any more, and everything else is free or not as it was. -/
theorem free_link_object_iff {linked : Nat} (upper : Nat) (other : Value) :
    (world.link upper (.object linked)).Free other ↔
      world.Free other ∧ other.place? ≠ some (.object linked) := by
  have things : ∀ index, (world.link upper (.object linked)).things[index]? =
      if linked = index then world.things[index]?.map fun thing =>
        Thing.mk thing.sort (setEntry "parent" (world.member upper) thing.attributes)
      else world.things[index]? := fun _ => Array.getElem?_modify
  cases there : other.place? with
  | none =>
      refine iff_of_false (not_free_of_placeless there) ?_
      exact fun both => not_free_of_placeless there both.1
  | some spot =>
      cases spot with
      | member index =>
          have apart : some (Place.member index) ≠ some (.object linked) := by simp
          rw [free_member_iff there, free_member_iff there, link, Forest.size_adopt,
            Forest.parent?_adopt, and_iff_left apart]
          rfl
      | object index =>
          by_cases same : linked = index
          · subst same
            refine iff_of_false ?_ fun both => both.2 rfl
            rintro ⟨_, above, _, found, nothing⟩
            rw [attributeOf?_parent_object there, things, if_pos rfl,
              Option.bind_eq_some_iff] at found
            obtain ⟨_, known, found⟩ := found
            obtain ⟨_, _, rfl⟩ := Option.map_eq_some_iff.mp known
            rw [lookup_setEntry_self, Option.some.injEq] at found
            rw [← found] at nothing
            cases nothing
          · rw [free_object_congr there ((things index).trans (if_neg same)), and_iff_left]
            simpa using Ne.symm same

/-- What is linked is not free any more, and everything else is free or not as it was. -/
theorem free_link_iff (upper : Nat) (place : Place) (other : Value) :
    (world.link upper place).Free other ↔ world.Free other ∧ other.place? ≠ some place := by
  cases place with
  | member linked => exact free_link_member_iff upper other
  | object linked => exact free_link_object_iff upper other

theorem attachable_nil : world.Attachable [] :=
  ⟨List.forall_mem_nil _, List.nodup_nil⟩

/-- Children can be attached one after the other if the first can be and then the others can. -/
theorem attachable_cons_iff (placed : child.place? = some place) (free : world.Free child)
    (upper : Nat) (rest : List Value) :
    world.Attachable (child :: rest) ↔ (world.link upper place).Attachable rest := by
  have apart : child.place? ∉ rest.map Value.place? ↔
      ∀ other ∈ rest, other.place? ≠ some place := by
    simp [placed]
  simp only [Attachable, List.forall_mem_cons, List.map_cons, List.nodup_cons, apart,
    free_link_iff]
  constructor
  · rintro ⟨⟨_, all⟩, different, distinct⟩
    exact ⟨fun other member => ⟨all other member, different other member⟩, distinct⟩
  · rintro ⟨all, distinct⟩
    exact ⟨⟨free, fun other member => (all other member).1⟩,
      fun other member => (all other member).2, distinct⟩

end Freedom

section Attaching

variable {start : World} {upper : Nat} {child : Value} {others children front : List Value}
  {place : Place}

@[simp] theorem size_link : (world.link upper place).forest.members.size =
    world.forest.members.size := by
  cases place with
  | member linked => exact Forest.size_link upper linked
  | object linked => exact Forest.size_adopt upper _

theorem children_link (index : Nat) : (world.link upper place).forest.children index =
    if index = upper ∧ index < world.forest.members.size then
      world.forest.children index ++ [place]
    else world.forest.children index := by
  cases place with
  | member linked => exact Forest.children_link _ upper linked index
  | object linked => exact Forest.children_adopt upper _ index

theorem parent?_link (index : Nat) : (world.link upper place).forest.parent? index =
    if place = .member index ∧ index < world.forest.members.size then some upper
    else world.forest.parent? index := by
  cases place with
  | member linked =>
      simp only [Place.member.injEq, @eq_comm _ linked]
      exact Forest.parent?_link _ upper linked index
  | object linked => exact (Forest.parent?_adopt upper _ index).trans (if_neg nofun).symm

/-- What is left when children have been attached to a member: it lists them after those that it
had, each of them has it as its parent, and everything else is as it was. -/
structure Attached (start : World) (upper : Nat) (children : List Value) (grown : World) :
    Prop where
  size : grown.forest.members.size = start.forest.members.size
  lists : ∀ index, grown.forest.children index =
    if index = upper then start.forest.children index ++ children.filterMap Value.place?
    else start.forest.children index
  parents : ∀ index, grown.forest.parent? index =
    if some (.member index) ∈ children.map Value.place? then some upper
    else start.forest.parent? index
  free : ∀ other, grown.Free other ↔ start.Free other ∧ other.place? ∉ children.map Value.place?

namespace Attached

theorem nil : Attached start upper [] start where
  size := rfl
  lists index := by simp
  parents index := by simp
  free other := by simp

theorem cons (present : upper < start.forest.members.size)
    (placed : child.place? = some place) (free : start.Free child)
    (rest : Attached (start.link upper place) upper others grown) :
    Attached start upper (child :: others) grown where
  size := rest.size.trans size_link
  lists index := by
    rw [rest.lists, children_link, List.filterMap_cons_some placed]
    by_cases above : index = upper
    · subst above
      simp [present]
    · simp [above]
  parents index := by
    rw [rest.parents, parent?_link, List.map_cons, placed]
    by_cases same : place = .member index
    · subst same
      have known : index < start.forest.members.size := ((free_member_iff placed).mp free).1
      simp [known]
    · simp [same, Ne.symm same]
  free other := by
    rw [rest.free, free_link_iff, List.map_cons, placed, List.mem_cons, not_or, and_assoc]

end Attached

/-- Attaching children gets as far as each is free by its turn. The first one that is not is
refused. -/
theorem attachAll_cases (present : upper < world.forest.members.size) (children : List Value) :
    let done := world.attachAll upper children
    ∃ front, world.Attachable front ∧ Attached world upper front done.1 ∧
      (children = front ∧ done.2 = .ok () ∨
        ∃ refused back, children = front ++ refused.child :: back ∧
          ¬ done.1.Free refused.child ∧ done.2 = .error refused) := by
  induction children generalizing world with
  | nil => exact ⟨[], attachable_nil, .nil, .inl ⟨rfl, rfl⟩⟩
  | cons child rest ih =>
      by_cases free : world.Free child
      · obtain ⟨place, _, placed, _⟩ := id free
        obtain ⟨front, attachable, attached, ends⟩ := @ih (world.link upper place) (by simpa)
        rw [attachAll, free.attach_eq placed]
        refine ⟨child :: front, (attachable_cons_iff placed free upper front).mpr attachable,
          .cons present placed free attached, ?_⟩
        rcases ends with ⟨rfl, done⟩ | ⟨refused, back, rfl, taken, done⟩
        · exact .inl ⟨rfl, done⟩
        · exact .inr ⟨refused, back, rfl, taken, done⟩
      · obtain ⟨refused, failed, rfl⟩ := attach_of_not_free free upper
        rw [attachAll, failed]
        exact ⟨[], attachable_nil, .nil, .inr ⟨refused, rest, rfl, free, rfl⟩⟩

end Attaching

section Planting

variable {name kind : Value} {identifier? : Option String} {attributes : List (String × Value)}
  {children front : List Value}

/-- What a construction leaves behind that has attached some children, whether it was refused then
or not: a new member that lists them and is the parent of each. The other members list what they
listed and have the parents that they had, and only the attached children are not free any more. -/
structure LeftBehind (world grown : World) (front : List Value) : Prop where
  attachable : world.Attachable front
  planted : grown.forest.children world.forest.members.size = front.filterMap Value.place?
  lists : ∀ index < world.forest.members.size,
    grown.forest.children index = world.forest.children index
  parents : ∀ index < world.forest.members.size, grown.forest.parent? index =
    if some (.member index) ∈ front.map Value.place? then some world.forest.members.size
    else world.forest.parent? index
  free : ∀ child, world.Knows child →
    (grown.Free child ↔ world.Free child ∧ child.place? ∉ front.map Value.place?)

/-- The members that were there have the same parents and the same children. -/
def SameLinks (world grown : World) : Prop :=
  ∀ index < world.forest.members.size, grown.forest.parent? index = world.forest.parent? index ∧
    grown.forest.children index = world.forest.children index

/-- Whatever could be attached still can be. -/
def StaysFree (world grown : World) : Prop :=
  ∀ child, world.Knows child → world.Free child → grown.Free child

namespace LeftBehind

/-- Links are as they were unless a member was attached. -/
theorem sameLinks_iff (left : world.LeftBehind grown front)
    (known : ∀ child ∈ front, world.Knows child) :
    world.SameLinks grown ↔ ∀ index, some (.member index) ∉ front.map Value.place? := by
  constructor
  · intro same index attached
    obtain ⟨child, member, placed⟩ := List.mem_map.mp attached
    have present := known child member index placed
    have rootless := ((free_member_iff placed).mp (left.attachable.1 child member)).2
    have moved := (left.parents index present).symm.trans (same index present).1
    rw [if_pos attached, rootless] at moved
    cases moved
  · intro none index present
    exact ⟨(left.parents index present).trans (if_neg (none index)), left.lists index present⟩

/-- What was free is free unless a child was attached. -/
theorem staysFree_iff (left : world.LeftBehind grown front)
    (known : ∀ child ∈ front, world.Knows child) : world.StaysFree grown ↔ front = [] := by
  constructor
  · intro stays
    refine List.eq_nil_iff_forall_not_mem.mpr fun child member => ?_
    have free := stays child (known child member) (left.attachable.1 child member)
    exact ((left.free child (known child member)).mp free).2 (List.mem_map_of_mem member)
  · rintro rfl child member free
    exact (left.free child member).mpr ⟨free, List.not_mem_nil⟩

end LeftBehind

/-- What is known is free or not, whether a new member is there or not. -/
theorem free_sprout_iff {child : Value} (known : world.Knows child) :
    Free { world with forest := world.forest.sprout name kind identifier? attributes } child ↔
      world.Free child := by
  cases placed : child.place? with
  | none => exact iff_of_false (not_free_of_placeless placed) (not_free_of_placeless placed)
  | some place =>
      cases place with
      | member index =>
          have present := known index placed
          rw [free_member_iff placed, free_member_iff placed, Forest.parent?_sprout,
            Forest.size_sprout]
          exact and_congr_left' (iff_of_true (Nat.lt_succ_of_lt present) present)
      | object index => exact free_object_congr placed rfl

/-- Children that a new member is given one after the other while it is planted. -/
theorem LeftBehind.of_attached (known : ∀ child ∈ front, world.Knows child)
    (attachable : Attachable
      { world with forest := world.forest.sprout name kind identifier? attributes } front)
    (attached : Attached
      { world with forest := world.forest.sprout name kind identifier? attributes }
      world.forest.members.size front grown) : world.LeftBehind grown front where
  attachable := ⟨fun child member => (free_sprout_iff (known child member)).mp
    (attachable.1 child member), attachable.2⟩
  planted := by
    have childless : world.forest.children world.forest.members.size = [] := by
      rw [Forest.children, Array.getElem?_eq_none (Nat.le_refl _)]
      rfl
    rw [attached.lists, if_pos rfl, Forest.children_sprout, childless, List.nil_append]
  lists index present := by
    rw [attached.lists, if_neg (Nat.ne_of_lt present), Forest.children_sprout]
  parents index present := by
    rw [attached.parents, Forest.parent?_sprout]
  free child member := by
    rw [attached.free, free_sprout_iff member]

/-- A child that is not free, or that occurs among those in front of it, cannot be attached after
them. -/
theorem not_attachable_of_blocked {child : Value} {back : List Value}
    (blocked : ¬ world.Free child ∨ child.place? ∈ front.map Value.place?) :
    ¬ world.Attachable (front ++ child :: back) := by
  rintro ⟨all, distinct⟩
  have listed : child ∈ front ++ child :: back := by simp
  rcases blocked with taken | again
  · exact taken (all child listed)
  · rw [List.map_append, List.nodup_append] at distinct
    exact distinct.2.2 child.place? again child.place? (by simp) rfl

/-- Planting gets as far as each child is free by its turn. -/
theorem Permits.plant_cases
    (permitted : world.Permits (.plant name kind identifier? attributes children)) :
    let done := world.plant name kind identifier? attributes children
    ∃ front, (∀ child ∈ front, world.Knows child) ∧ world.LeftBehind done.1 front ∧
      (children = front ∧ done.2 = .ok world.forest.members.size ∨
        ∃ refused back, children = front ++ refused.child :: back ∧
          (¬ world.Free refused.child ∨ refused.child.place? ∈ front.map Value.place?) ∧
          done.2 = .error refused) := by
  intro done
  have known : ∀ child ∈ children, world.Knows child := permitted
  let start : World :=
    { world with forest := world.forest.sprout name kind identifier? attributes }
  have outcome : done.2 = (start.attachAll world.forest.members.size children).2.map
      fun _ => world.forest.members.size := rfl
  have present : world.forest.members.size < start.forest.members.size := by simp [start]
  obtain ⟨front, attachable, attached, ends⟩ := attachAll_cases present children
  rcases ends with ⟨rfl, ended⟩ | ⟨refused, back, rfl, taken, ended⟩
  · rw [ended] at outcome
    exact ⟨children, known, .of_attached known attachable attached, .inl ⟨rfl, outcome⟩⟩
  · rw [ended] at outcome
    rw [List.forall_mem_append, List.forall_mem_cons] at known
    have left : world.LeftBehind done.1 front := .of_attached known.1 attachable attached
    refine ⟨front, known.1, left, .inr ⟨refused, back, rfl, ?_, outcome⟩⟩
    have free : done.1.Free refused.child ↔ _ := left.free refused.child known.2.1
    by_cases unfree : world.Free refused.child
    · refine .inr (Classical.byContradiction fun apart => taken ?_)
      exact free.mpr ⟨unfree, apart⟩
    · exact .inl unfree

/-- **A refused construction keeps the children in front of the refused one.** Let a member be
planted with children that were all there before. It is handed out exactly if they were all free
and none of them occurs twice. Otherwise the first child is refused that was not free or occurs
among those in front of it, and exactly those in front of it are left attached to the new member. So
the links of the members that were there are as before exactly if there is no member in front of the
refused child, and whatever was free can still be attached exactly if there is nothing in front of
it. -/
theorem Permits.plant_refused
    (permitted : world.Permits (.plant name kind identifier? attributes children)) :
    let done := world.plant name kind identifier? attributes children
    (done.2 = .ok world.forest.members.size ↔ world.Attachable children) ∧
    ∀ refused, done.2 = .error refused → ∃ front back,
      children = front ++ refused.child :: back ∧
      (¬ world.Free refused.child ∨ refused.child.place? ∈ front.map Value.place?) ∧
      world.LeftBehind done.1 front ∧
      (world.SameLinks done.1 ↔ ∀ index, some (.member index) ∉ front.map Value.place?) ∧
      (world.StaysFree done.1 ↔ front = []) := by
  intro done
  obtain ⟨front, known, left, ends⟩ := permitted.plant_cases
  rcases ends with ⟨rfl, ended⟩ | ⟨refused, back, rfl, blocked, ended⟩
  · rw [ended]
    exact ⟨iff_of_true rfl left.attachable, nofun⟩
  · rw [ended]
    refine ⟨iff_of_false nofun (not_attachable_of_blocked blocked), ?_⟩
    rintro _ ⟨⟩
    exact ⟨front, back, rfl, blocked, left, left.sameLinks_iff known, left.staysFree_iff known⟩

end Planting

section Orchard

/-- The member that was planted at a position, as those are identified that bring no identifier. -/
def numbered (index : Nat) : Value :=
  .node (.member index) (.identifier (Forest.generated (index + 1)))

/-- The first member is a child of the second, and the third one is free. -/
def orchard : World :=
  World.afterAll {} [.plant (.text "x") .null none [] [],
    .plant (.text "p") .null none [] [numbered 0], .plant (.text "f") .null none [] []]

/-- In the orchard a construction with the free member and then the attached one is refused. Its
free child is lost to it. -/
theorem orchard_plant_refused :
    let done := orchard.plant (.text "q") .null none [] [numbered 2, numbered 0]
    orchard.Permits (.plant (.text "q") .null none [] [numbered 2, numbered 0]) ∧
      ¬ orchard.Attachable [numbered 2, numbered 0] ∧ ¬ orchard.StaysFree done.1 ∧
      orchard.forest.parent? 2 = none ∧ done.1.forest.parent? 2 = some 3 := by
  intro done
  have permitted :
      orchard.Permits (.plant (.text "q") .null none [] [numbered 2, numbered 0]) := by
    rw [Permits, List.forall_mem_cons, List.forall_mem_singleton]
    refine ⟨?_, ?_⟩ <;> rintro index ⟨⟩ <;> decide
  obtain ⟨handed, left⟩ := permitted.plant_refused
  have refused : done.2 = .error (.attached (numbered 0) (numbered 1)) := by rfl
  obtain ⟨front, back, split, -, -, -, stays⟩ := left _ refused
  refine ⟨permitted, fun attachable => ?_, fun stayed => ?_, by decide, by decide⟩
  · cases refused.symm.trans (handed.mpr attachable)
  · rw [stays.mp stayed] at split
    have heads := congrArg (fun children => children.head?.bind Value.place?) split
    cases heads

end Orchard

end World

namespace Session

/-- The orchard planted in a session. -/
def planted : Session :=
  [Instruction.plant "x" (.text "x") .null none [] [],
    .plant "p" (.text "p") .null none [some "x"] [],
    .plant "f" (.text "f") .null none [] []].foldl
      (fun session instruction => ((execute instruction).perform session).2) {}

/-- What is left of the session after a construction that is refused because of its second child. -/
def plantedInVain : Except (Fault Failure) Answer × Session :=
  (execute (.plant "q" (.text "q") .null none [some "f", some "x"] [])).perform planted

/-- The first child of the refused construction had no parent and has one afterwards, so that it
cannot be attached any more where it could be before. -/
theorem free_child_is_taken :
    (match plantedInVain.1 with | .ok _ => "" | .error fault => fault.message) =
        "MemoryNode('x') is already attached to MemoryNode('p')" ∧
      planted.world.forest.parent? 2 = none ∧ plantedInVain.2.world.forest.parent? 2 = some 3 ∧
      ((execute (.addChild (some "p") (some "f"))).perform planted).1.isOk = true ∧
      ((execute (.addChild (some "p") (some "f"))).perform plantedInVain.2).1.isOk = false := by
  decide +kernel

end Session

end TreeQuery
