import Mathlib.Data.List.Nodup
import TreeQuery.Proofs.Tree.Renaming
import TreeQuery.Proofs.World.Circles

/-! # Identifiers of members

A member is told from others by its identifier, which it brings or which is generated for it from a
number that grows. Generated identifiers differ from each other, but nothing keeps a member from
bringing one of them. Where the identifiers brought are distinct, all are, just if none of them is
generated in the same session, and then no collection and no navigation takes two members for one
(`TreeQuery.World.identifiersApart_iff`).
-/

namespace TreeQuery

/-- The identifier that a planted member brings, if any. -/
def Deed.given? : Deed → Option String
  | .plant _ _ identifier? _ _ => identifier?
  | _ => none

/-- How many numbers a deed draws for identifiers. -/
def Deed.draws : Deed → Nat
  | .plant _ _ none _ _ => 1
  | _ => 0

/-- The identifiers that a deed gives to members when the next number is the given one. -/
def Deed.takes (number : Nat) : Deed → List String
  | .plant _ _ identifier? _ _ => [identifier?.getD (Forest.generated number)]
  | _ => []

namespace Forest

variable {forest : Forest}

def identifiers (forest : Forest) : List String :=
  forest.members.toList.map Member.identifier

theorem generated_injective : Function.Injective generated := by
  intro left right same
  have texts : toString left = toString right := (String.append_right_inj "n").mp same
  rw [Nat.toString_eq_ofList_toDigits, Nat.toString_eq_ofList_toDigits, String.ofList_inj] at texts
  have numbers := congrArg (Nat.ofDigitChars 10 · 0) texts
  rwa [Nat.ofDigitChars_ten_toDigits, Nat.ofDigitChars_ten_toDigits] at numbers

/-- What members have is what each of them has. -/
theorem identifiers_congr {other : Forest} (same : ∀ index : Nat,
    other.members[index]?.map Member.identifier = forest.members[index]?.map Member.identifier) :
    other.identifiers = forest.identifiers := by
  apply List.ext_getElem?
  intro index
  rw [identifiers, identifiers, List.getElem?_map, List.getElem?_map, Array.getElem?_toList,
    Array.getElem?_toList, same]

theorem identifiers_adopt (parent : Nat) (child : Place) :
    (forest.adopt parent child).identifiers = forest.identifiers := by
  apply identifiers_congr
  intro index
  rw [adopt, Array.getElem?_modify]
  split
  · rw [Option.map_map]
    rfl
  · rfl

theorem identifiers_link (parent child : Nat) :
    (forest.link parent child).identifiers = forest.identifiers := by
  rw [link, identifiers_adopt]
  apply identifiers_congr
  intro index
  rw [setParent, Array.getElem?_modify]
  split
  · rw [Option.map_map]
    rfl
  · rfl

end Forest

namespace World

variable {world : World}

/-- A world with the same identifiers, and with the same number for the next. -/
def SameIdentifiers (world grown : World) : Prop :=
  grown.forest.identifiers = world.forest.identifiers ∧
    grown.forest.nextIdentifier = world.forest.nextIdentifier

/-- Links have no part in identifiers. -/
theorem sameIdentifiers_attach {parent : Nat} {child : Value} {grown : World}
    (done : world.attach parent child = .ok grown) : world.SameIdentifiers grown := by
  rcases attach_cases done with ⟨index, _, _, _, rfl⟩ | ⟨index, _, adopted⟩
  · exact ⟨Forest.identifiers_link _ _, rfl⟩
  · rw [SameIdentifiers, adopted]
    exact ⟨Forest.identifiers_adopt _ _, rfl⟩

theorem sameIdentifiers_attachAll (world : World) (parent : Nat) (children : List Value) :
    world.SameIdentifiers (world.attachAll parent children).1 :=
  attachAll_induct (motive := world.SameIdentifiers)
    (fun _ _ _ _ same done => by
      obtain ⟨identifiers, next⟩ := sameIdentifiers_attach done
      exact ⟨identifiers.trans same.1, next.trans same.2⟩)
    ⟨rfl, rfl⟩

/-- A deed gives its identifiers after all others, and draws its numbers. -/
theorem identifiers_after (world : World) (deed : Deed) :
    (world.after deed).forest.identifiers =
        world.forest.identifiers ++ deed.takes world.forest.nextIdentifier ∧
      (world.after deed).forest.nextIdentifier = world.forest.nextIdentifier + deed.draws := by
  cases deed with
  | plant name kind identifier? attributes children =>
      obtain ⟨same, next⟩ := sameIdentifiers_attachAll
        { world with forest := world.forest.sprout name kind identifier? attributes }
        world.forest.members.size children
      rw [after, plant]
      dsimp only
      rw [same, next]
      cases identifier? <;> simp [Forest.sprout, Forest.identifiers, Deed.takes, Deed.draws]
  | attach parent child =>
      rw [after]
      split
      · next done =>
        obtain ⟨same, next⟩ := sameIdentifiers_attach done
        exact ⟨same.trans (List.append_nil _).symm, next⟩
      · exact ⟨(List.append_nil _).symm, rfl⟩
  | put | set => exact ⟨(List.append_nil _).symm, rfl⟩

/-- The identifiers that deeds bring along. -/
def given (deeds : List Deed) : List String := deeds.filterMap Deed.given?

/-- How many numbers deeds draw for identifiers. -/
def drawn (deeds : List Deed) : Nat := (deeds.map Deed.draws).sum

/-- Deeds give members the identifiers that they bring along and those of the numbers drawn. -/
theorem identifiers_afterAll (world : World) (deeds : List Deed) :
    (world.afterAll deeds).forest.identifiers.Perm (world.forest.identifiers ++ (given deeds ++
      (List.range' world.forest.nextIdentifier (drawn deeds)).map Forest.generated)) := by
  induction deeds generalizing world with
  | nil =>
      rw [given, drawn]
      simp [afterAll]
  | cons deed rest ih =>
      obtain ⟨taken, next⟩ := identifiers_after world deed
      have later := ih (world.after deed)
      rw [taken, next, List.append_assoc] at later
      refine later.trans (List.Perm.append_left _ ?_)
      cases deed with
      | plant name kind identifier? attributes children =>
          cases identifier? with
          | some identifier =>
              have none : drawn (.plant name kind (some identifier) attributes children :: rest) =
                  drawn rest := by simp [drawn, Deed.draws]
              rw [none]
              exact .refl _
          | none =>
              have one : drawn (.plant name kind none attributes children :: rest) =
                  drawn rest + 1 := by simp [drawn, Deed.draws, Nat.add_comm]
              rw [one, List.range'_succ, List.map_cons]
              have moved : ∀ identifier others, (identifier :: (given rest ++ others)).Perm
                  (given rest ++ identifier :: others) := fun _ _ => List.perm_middle.symm
              exact moved _ _
      | attach | put | set =>
          simp only [Deed.takes, List.nil_append, Deed.draws, Nat.add_zero, drawn, List.map_cons,
            List.sum_cons, Nat.zero_add]
          exact .refl _

/-- Members of which no two have one identifier. -/
def IdentifiersApart (world : World) : Prop :=
  ∀ left < world.forest.members.size, ∀ right < world.forest.members.size,
    world.identifier? (.member left) = world.identifier? (.member right) → left = right

theorem identifiersApart_iff_nodup :
    world.IdentifiersApart ↔ world.forest.identifiers.Nodup := by
  have each : ∀ index, world.forest.identifiers[index]? = world.identifier? (.member index) := by
    intro index
    rw [Forest.identifiers, List.getElem?_map, Array.getElem?_toList]
    rfl
  have length : world.forest.identifiers.length = world.forest.members.size := by
    rw [Forest.identifiers, List.length_map, Array.length_toList]
  rw [List.nodup_iff_getElem?_ne_getElem?, length]
  constructor
  · intro apart left right before present same
    rw [each, each] at same
    exact Nat.ne_of_lt before (apart left (Nat.lt_trans before present) right present same)
  · intro apart left leftPresent right rightPresent same
    rw [← each, ← each] at same
    rcases Nat.lt_trichotomy left right with before | equal | after
    · exact absurd same (apart left right before rightPresent)
    · exact equal
    · exact absurd same.symm (apart right left after leftPresent)

/-- Where the identifiers brought are distinct, all are just if none of them is generated too. -/
theorem identifiersApart_afterAll_iff {deeds : List Deed} (distinct : (given deeds).Nodup) :
    (World.afterAll {} deeds).IdentifiersApart ↔
      ∀ number ∈ List.range' 1 (drawn deeds), Forest.generated number ∉ given deeds := by
  have numbers : ((List.range' 1 (drawn deeds)).map Forest.generated).Nodup :=
    (List.nodup_range').map Forest.generated_injective
  rw [identifiersApart_iff_nodup, (identifiers_afterAll {} deeds).nodup_iff]
  change (given deeds ++ (List.range' 1 (drawn deeds)).map Forest.generated).Nodup ↔ _
  rw [List.nodup_append, and_iff_right distinct, and_iff_right numbers]
  constructor
  · exact fun apart number drawn known => apart _ known _ (List.mem_map_of_mem drawn) rfl
  · rintro apart identifier known _ generated rfl
    obtain ⟨number, drawn, rfl⟩ := List.mem_map.mp generated
    exact apart number drawn known

end World

/-- Places are told apart by what they are. -/
instance : Keyed Place where
  Key := Place
  key := id

namespace Forest

variable {Failure : Type}

/-- The children of a place, which has none if it is no member. -/
def below (forest : Forest) : Place → Listing Place Failure
  | .member index => ⟨forest.children index, none⟩
  | .object _ => .empty

/-- The parent of a place, which has none if it is no member. -/
def above (forest : Forest) : Place → Except (Fault Failure) (Option Place)
  | .member index => .ok ((forest.parent? index).map .member)
  | .object _ => .ok none

/-- The tree of a forest, in which each member is its place. -/
def host (forest : Forest) (patience : Nat) : Host Place Failure :=
  .ofLinks patience forest.below forest.above

end Forest

namespace World

variable {world : World}

section Places

/-- The places of the members of a world. -/
def memberPlaces (world : World) : Set Place :=
  Place.member '' Set.Iio world.forest.members.size

/-- Apart identifiers make keys that tell members apart as their places do. -/
theorem IdentifiersApart.keepsKeys (apart : world.IdentifiersApart) :
    KeepsKeys world.value world.memberPlaces := by
  rintro _ ⟨left, leftPresent, rfl⟩ _ ⟨right, rightPresent, rfl⟩
  constructor
  · intro same
    have texts : ((world.forest.members[left]?.map Member.identifier).getD "") =
        ((world.forest.members[right]?.map Member.identifier).getD "") := Key.identifier.inj same
    refine congrArg Place.member (apart left leftPresent right rightPresent ?_)
    rw [identifier?, identifier?]
    rw [Array.getElem?_eq_getElem leftPresent, Array.getElem?_eq_getElem rightPresent] at texts ⊢
    exact congrArg some texts
  · intro same
    have equal : Place.member left = Place.member right := same
    rw [equal]

theorem IdentifiersApart.injOn_key (apart : world.IdentifiersApart) :
    Set.InjOn Keyed.key world.memberValues := by
  rintro _ ⟨left, leftPresent, rfl⟩ _ ⟨right, rightPresent, rfl⟩ same
  have places : Place.member left = Place.member right :=
    (apart.keepsKeys _ ⟨left, leftPresent, rfl⟩ _ ⟨right, rightPresent, rfl⟩).mp same
  exact congrArg world.value places

/-- The parent of a member as its host names it. -/
theorem parent_standard {index : Nat} (present : index < world.forest.members.size)
    (patience : Nat) : (world.host patience .standard).parent (world.member index) =
      .ok ((world.forest.parent? index).map world.member) := by
  change Except.ok (world.attributeOf (world.member index) "parent").parent? = _
  rw [attributeOf, attributeOf?_parent rfl, if_pos present]
  cases world.forest.parent? index <;> rfl

/-- To its host a world of members is its forest, whose members go by their values. -/
theorem host_renamed (only : world.HoldsMembersOnly) (linked : world.forest.Linked)
    (apart : world.IdentifiersApart) (patience : Nat) :
    Host.Renamed world.value world.memberPlaces (world.forest.host patience)
      (world.host patience .standard) := by
  refine Host.ofLinks_renamed apart.keepsKeys ?_ ?_ patience
  · rintro _ ⟨index, present, rfl⟩
    refine ⟨children_standard present patience, fun place listed => ?_⟩
    cases place with
    | member lower => exact ⟨lower, Forest.lt_size_of_parent? (linked.holds_iff.mp listed), rfl⟩
    | object object => exact absurd listed (only.pure index object)
  · rintro _ ⟨index, present, rfl⟩
    rw [Forest.above]
    refine ⟨(parent_standard present patience).trans ?_, fun upper up => ?_⟩
    · cases world.forest.parent? index <;> rfl
    · cases above : world.forest.parent? index with
      | none =>
          rw [above] at up
          cases up
      | some parent =>
          rw [above] at up
          cases up
          exact ⟨parent, Forest.lt_size_of_mem_children (linked.holds_iff.mpr above), rfl⟩

end Places

/-- Nodes that no collection and no navigation takes for each other. -/
structure TellsApart (world : World) : Prop where
  /-- A node that is added is there, whatever was added before. -/
  added : ∀ (frontier : Frontier Value) (nodes : List Value), frontier.Inside world.memberValues →
    (∀ node ∈ nodes, node ∈ world.memberValues) → ∀ node,
      node ∈ (frontier.insertAll nodes).nodes ↔ node ∈ frontier.nodes ∨ node ∈ nodes
  /-- Only the nodes that are taken out are no longer there. -/
  removed : ∀ (frontier : Frontier Value) (nodes : List Value), frontier.Inside world.memberValues →
    (∀ node ∈ nodes, node ∈ world.memberValues) → ∀ node,
      node ∈ (frontier.removeAll nodes).nodes ↔ node ∈ frontier.nodes ∧ node ∉ nodes
  /-- A collection only contains the nodes that were added to it. -/
  contained : ∀ frontier : Frontier Value, frontier.Inside world.memberValues →
    ∀ node ∈ world.memberValues, frontier.contains node = true ↔ node ∈ frontier.nodes
  /-- Navigation asks, reports, fails and finds as if every member were told from others by where it
  is. -/
  navigated : ∀ {Leaf : Type} (setting : Setting Value Leaf Failure) (patience : Nat)
    (path : Path Leaf) (start : List Place), setting.host = world.host patience .standard →
      (∀ place ∈ start, place ∈ world.memberPlaces) →
        Run.Mirrors world.value (Frontier.Renamed world.value world.memberPlaces)
          (path.navigate (setting.along world.value (world.forest.host patience)) start)
          (path.navigate setting (start.map world.value))

theorem TellsApart.of_identifiersApart (only : world.HoldsMembersOnly)
    (linked : world.forest.Linked) (apart : world.IdentifiersApart) : world.TellsApart where
  added frontier nodes inside others node := by
    rw [Frontier.nodes_insertAll_eq_keepFirst, Frontier.mem_keepFirst_iff apart.injOn_key,
      List.mem_append]
    intro other member
    exact (List.mem_append.mp member).elim (inside other) (others other)
  removed frontier nodes inside others node := by
    rw [Frontier.nodes_removeAll_eq_without, Frontier.mem_without]
    refine and_congr_right fun member => not_congr ⟨fun gone => ?_, List.mem_map_of_mem⟩
    obtain ⟨other, lost, same⟩ := List.mem_map.mp gone
    rwa [← apart.injOn_key (others other lost) (inside node member) same]
  contained frontier inside node present := by
    rw [Frontier.contains, List.contains_iff_mem, Frontier.keys]
    refine ⟨fun known => ?_, List.mem_map_of_mem⟩
    obtain ⟨other, member, same⟩ := List.mem_map.mp known
    rwa [← apart.injOn_key (inside other member) present same]
  navigated setting patience path start hosted inside := by
    have hosts := host_renamed only linked apart patience
    rw [← hosted] at hosts
    exact path.navigate_renamed apart.keepsKeys hosts inside

/-- Members with one identifier are taken for one when they come together. -/
theorem IdentifiersApart.of_tellsApart (tells : world.TellsApart) : world.IdentifiersApart := by
  intro left leftPresent right rightPresent same
  have values : ∀ index < world.forest.members.size, world.member index ∈ world.memberValues :=
    fun index present => ⟨index, present, rfl⟩
  have alone : (Frontier.ofList [world.member left]).nodes = [world.member left] := rfl
  have inside : (Frontier.ofList [world.member left]).Inside world.memberValues := by
    rw [Frontier.Inside, alone, List.forall_mem_singleton]
    exact values left leftPresent
  have key : Keyed.key (world.member left) = Keyed.key (world.member right) :=
    congrArg (fun identifier? : Option String => Key.identifier (identifier?.getD "")) same
  have known : (Frontier.ofList [world.member left]).contains (world.member right) = true := by
    rw [Frontier.contains, Frontier.keys, alone, ← key, List.contains_iff_mem]
    exact List.mem_cons_self
  have found := (tells.contained _ inside _ (values right rightPresent)).mp known
  rw [alone, List.mem_singleton] at found
  exact (world.member_injective found).symm

/-- **Identifiers collide only with generated ones.** However members were planted and attached, if
the identifiers that they brought are distinct, then no two members have one identifier exactly if
none was brought that was also generated. Exactly then no collection and no navigation takes two
members for one. -/
theorem identifiersApart_iff {deeds : List Deed} (onMembers : ∀ deed ∈ deeds, deed.OnMembers)
    (permitted : World.PermitsAll {} deeds) (distinct : (given deeds).Nodup) :
    let world := World.afterAll {} deeds
    (world.IdentifiersApart ↔
      ∀ number ∈ List.range' 1 (drawn deeds), Forest.generated number ∉ given deeds) ∧
    (world.IdentifiersApart ↔ world.TellsApart) := by
  intro world
  have linked : world.forest.Linked := permitted.linked
  have only : world.HoldsMembersOnly := HoldsMembersOnly.empty.afterAll onMembers
  exact ⟨identifiersApart_afterAll_iff distinct, .of_identifiersApart only linked, .of_tellsApart⟩

section Borders

/-- Of three members the second brings an identifier and has the first as its child. -/
def border : List Deed :=
  [.plant (.text "a") .null none [] [],
    .plant (.text "b") .null (some "n7") [] [.node (.member 0) (.identifier "n1")],
    .plant (.text "c") .null none [] []]

/-- The identifier brought looks like a generated one, but no such number is drawn. -/
theorem border_tellsApart :
    (∀ deed ∈ border, deed.OnMembers) ∧ World.PermitsAll {} border ∧ (given border).Nodup ∧
      (World.afterAll {} border).IdentifiersApart ∧ (World.afterAll {} border).TellsApart ∧
      (World.afterAll {} border).forest.identifiers = ["n1", "n7", "n2"] := by
  have onMembers : ∀ deed ∈ border, deed.OnMembers := by
    simp [border, Deed.OnMembers]
  have known : (World.afterAll {} (border.take 1)).Knows
      (.node (.member 0) (.identifier "n1")) := by
    rintro index ⟨⟩
    decide
  have permitted : World.PermitsAll {} border :=
    ⟨List.forall_mem_nil _, List.forall_mem_singleton.mpr known, List.forall_mem_nil _, trivial⟩
  have distinct : (given border).Nodup := by decide
  obtain ⟨apart, tells⟩ := identifiersApart_iff onMembers permitted distinct
  have free := apart.mpr (by decide)
  exact ⟨onMembers, permitted, distinct, free, tells.mp free, by decide⟩

/-- A member brings the identifier that is generated for the next one. The two have one identifier
and one key, and a collection of both holds the first only. -/
theorem brought_identifier_collides :
    let deeds : List Deed :=
      [.plant (.text "a") .null (some "n1") [] [], .plant (.text "b") .null none [] []]
    let world := World.afterAll {} deeds
    (∀ deed ∈ deeds, deed.OnMembers) ∧ World.PermitsAll {} deeds ∧ (given deeds).Nodup ∧
      world.identifier? (.member 0) = some "n1" ∧ world.identifier? (.member 1) = some "n1" ∧
      ¬ world.IdentifiersApart ∧ world.member 0 ≠ world.member 1 ∧
      (Frontier.ofList [world.member 0, world.member 1]).nodes = [world.member 0] := by
  intro deeds world
  have first : world.identifier? (.member 0) = some "n1" := by decide
  have second : world.identifier? (.member 1) = some "n1" := by decide
  have collide : ¬ world.IdentifiersApart := fun apart =>
    absurd (apart 0 (by decide) 1 (by decide) (first.trans second.symm)) (by decide)
  have differ : world.member 0 ≠ world.member 1 := fun same =>
    absurd (world.member_injective same) (by decide)
  have permitted : World.PermitsAll {} deeds :=
    ⟨List.forall_mem_nil _, List.forall_mem_nil _, trivial⟩
  refine ⟨by simp [deeds, Deed.OnMembers], permitted, by decide, first, second, collide, differ, ?_⟩
  rw [Frontier.nodes_ofList]
  rfl

end Borders

end World

end TreeQuery
