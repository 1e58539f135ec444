import Mathlib.Data.List.Find
import TreeQuery.Proofs.Navigation.Relocations
import TreeQuery.Proofs.World.Identifiers
import TreeQuery.Session.State

/-! # Walks and finders

Two walks go down from a member. The walk of a forest is a recursion over children, while a host
keeps a stack of unfinished listings. Two finders look for a name: one goes along the walk as far as
the first member of that name, and the other is a navigation to all descendants, of which it hands
out the first. In a forest without circles the walks meet the same nodes in the same order, and
where identifiers are distinct the finders find the same node
(`TreeQuery.World.walks_and_finders_agree`).
-/

namespace TreeQuery

section Search

variable {Node Leaf Failure : Type} [Keyed Node] {setting : Setting Node Leaf Failure}

namespace Path

/-- In every run in which no line can be refused, since the sink takes every line or trace output is
off, navigation ends, and the first node that it finds is the given one, if there is one. -/
def FindsFirst (setting : Setting Node Leaf Failure) (path : Path Leaf) (start : List Node)
    (first? : Option Node) : Prop :=
  ∀ journal : Journal Node Leaf, setting.sink.Accepts ∨ journal.active = false →
    ∃ frontier : Frontier Node,
      ((path.navigate setting start).perform journal).1 = .ok frontier ∧ frontier.first? = first?

theorem Finds.first {path : Path Leaf} {start found : List Node}
    (finds : path.Finds setting start found) : path.FindsFirst setting start found.head? := by
  intro journal unrefused
  obtain ⟨frontier, ends, rfl⟩ := finds journal unrefused
  exact ⟨frontier, ends, rfl⟩

/-- In a tree with keys of their own for all nodes, a search among all descendants of a node finds
those accepted in the order in which they are listed. -/
theorem search_allDescendants_finds {region : Set Node} {children : Node → Listing Node Failure}
    {parent : Node → Except (Fault Failure) (Option Node)}
    (hosts : setting.host = .ofLinks setting.patience children parent)
    (tree : Tree.IsTree children region) (unique : Set.InjOn Keyed.key region)
    (patient : 2 * region.ncard + 2 ≤ setting.patience) {test : Predicate Leaf}
    (labelled : ∃ text, test.label = .ok text) (answers : test.Answers setting.answer region)
    {node : Node} (inside : node ∈ region) :
    (search .allDescendants test).Finds setting [node]
      ((setting.host.descendants node).nodes.filter (test.holds setting.answer)) := by
  have fit : (search .allDescendants test).Fit setting.host setting.answer region := by
    apply Fit.search
    apply Predicate.Fit.traversal labelled answers
    · rw [hosts]
      exact List.forall_mem_singleton.mpr (tree.confined_descend patient)
    · exact fun upward => by cases List.mem_singleton.mp upward
  have grounded : Tree.Grounded setting.host.children region := by
    rw [hosts]
    exact tree.toGrounded
  have enough : region.ncard ≤ setting.patience := by omega
  have finds := fit.finds grounded enough rfl (List.forall_mem_singleton.mpr inside)
  have moved : Axis.allDescendants.moved setting.host [node] =
      (setting.host.descendants node).nodes := by
    rw [hosts]
    exact Axis.moved_allDescendants_singleton parent tree patient unique inside
  rw [← moved]
  exact finds

end Path

end Search

namespace Value

theorem content_of_text? {value : Value} {text : String} (holds : value.text? = some text) :
    value.content = .text text := by
  fun_induction text? value with
  | case1 own => exact congrArg Value.text (Option.some.inj holds)
  | case2 key inner ih => exact ih holds
  | case3 => cases holds

/-- A value equals a text exactly if it is that text. -/
theorem equals_of_text? {value : Value} {text : String} (holds : value.text? = some text)
    (other : Value) : other.equals value = other.text?.any (· == text) := by
  have content := content_of_text? holds
  fun_induction text? other with
  | case1 own => simp [equals, equalsAtom, content]
  | case2 key inner ih => rw [equals, ih]
  | case3 other plain => cases other <;> simp_all [equals, equalsAtom, int?]

/-- Nothing and texts can be hashed. -/
theorem unhashable?_eq_none {value : Value}
    (plain : value.isNull = true ∨ value.text?.isSome = true) : value.unhashable? = none := by
  fun_induction isNull value with
  | case1 => rfl
  | case2 key inner ih => exact ih plain
  | case3 other => cases other <;> simp_all [text?, unhashable?]

end Value

/-- The test whether a node is called by a text. -/
def Predicate.called (text : String) : Predicate LeafTest :=
  .function (.attributeIn "name" [text]) ("name=" ++ text)

/-- One text makes the test for it. -/
theorem Predicate.attributeIs_name {value : Value} {text : String}
    (holds : value.text? = some text) : attributeIs "name" [value] = .ok (called text) := by
  have hashed : Value.unhashableItem? [value] = none := by
    rw [Value.unhashableItem?, Value.unhashable?_eq_none (.inr (by rw [holds]; rfl)),
      Value.unhashableItem?]
  simp [attributeIs, joinTexts, hashed, holds, called]

namespace World

variable {world : World} {patience : Nat}

/-- A world whose members each have a text for a name, or nothing. -/
def NamedByTexts (world : World) : Prop :=
  ∀ member ∈ world.forest.members,
    member.name.isNull = true ∨ member.name.text?.isSome = true

/-- The name of a member is what its attribute holds. -/
theorem attributeOf_name {index : Nat} (present : index < world.forest.members.size) :
    world.attributeOf (world.member index) "name" = world.forest.members[index].name := by
  have place : (world.member index).place? = some (.member index) := rfl
  rw [attributeOf, attributeOf?, place]
  dsimp only
  rw [Array.getElem?_eq_getElem present]
  rfl

theorem isCalled_eq {index : Nat} (present : index < world.forest.members.size) (name : Value) :
    world.forest.isCalled name index =
      (world.attributeOf (world.member index) "name").equals name := by
  rw [attributeOf_name present, Forest.isCalled, Array.getElem?_eq_getElem present]
  rfl

/-- What a forest hands out on a walk that ends is a walk for its host. -/
theorem walk_walkTo (only : world.HoldsMembersOnly) (linked : world.forest.Linked)
    {depth index : Nat} (present : index < world.forest.members.size)
    (ends : (world.forest.walkTo depth index).fault? = none) :
    Tree.Walk (world.host patience .standard).children [world.member index]
      ((world.forest.walkTo depth index).nodes.map world.member) := by
  induction depth generalizing index with
  | zero => cases ends
  | succ depth ih =>
      rw [Forest.fault?_walkTo_succ only.pure] at ends
      have below : Tree.Walk (world.host patience .standard).children
          ((world.forest.kin index).nodes.map world.member)
          ((world.forest.kin index).nodes.flatMap fun lower =>
            (world.forest.walkTo depth lower).nodes.map world.member) := by
        apply Tree.Walk.flatMap
        intro lower member
        have listed := Forest.mem_kin.mp member
        exact ih (Forest.lt_size_of_parent? (linked.holds_iff.mp listed)) (ends lower listed)
      have listed := children_standard present patience
      rw [Forest.children_eq_map_kin only.pure, List.map_map] at listed
      rw [Forest.nodes_walkTo_succ only.pure ends, List.map_cons, List.map_flatMap]
      have whole := Tree.Walk.cons listed below .nil
      rwa [List.append_nil] at whole

/-- Without circles the descendants of members are listed, and they are members. -/
theorem confined_descendants (only : world.HoldsMembersOnly) (linked : world.forest.Linked)
    (free : world.forest.CircleFree) (patient : 2 * world.forest.members.size + 2 ≤ patience) :
    Tree.Confined (world.host patience .standard).descendants world.memberValues := by
  rw [← world.ncard_memberValues] at patient
  exact (isTree_standard only linked free patience).confined_descend patient

/-- Without circles the descendants of a member are the walk through its children, in which no node
comes twice. -/
theorem descendants_settle (only : world.HoldsMembersOnly) (linked : world.forest.Linked)
    (free : world.forest.CircleFree) {index : Nat} (present : index < world.forest.members.size)
    (patient : 2 * world.forest.members.size + 2 ≤ patience) :
    let host := world.host patience .standard
    ∃ listing, Tree.Walk host.children (host.children (world.member index)).nodes listing ∧
      listing.Nodup ∧ host.descendants (world.member index) = ⟨listing, none⟩ := by
  rw [← world.ncard_memberValues] at patient
  exact (isTree_standard only linked free patience).descend_settles ⟨index, present, rfl⟩ patient

/-- Without circles the walk from a member hands out the member and its descendants. -/
theorem walk_eq_cons_descendants (only : world.HoldsMembersOnly) (linked : world.forest.Linked)
    (free : world.forest.CircleFree) {index : Nat} (present : index < world.forest.members.size)
    (patient : 2 * world.forest.members.size + 2 ≤ patience) :
    let descendants := (world.host patience .standard).descendants (world.member index)
    (world.forest.walk index).fault? = none ∧ descendants.fault? = none ∧
      (world.forest.walk index).nodes.map world.member =
        world.member index :: descendants.nodes := by
  intro descendants
  have ends := (linked.circleFree_iff_walks only.pure).mp free index present
  obtain ⟨listing, walk, -, settles⟩ := descendants_settle only linked free present patient
  have below : descendants = ⟨listing, none⟩ := settles
  have listed := children_standard present patience
  rw [listed] at walk
  have whole := Tree.Walk.cons listed walk .nil
  rw [List.append_nil] at whole
  rw [below]
  exact ⟨ends, rfl, (walk_walkTo only linked present ends).eq_of_walk whole⟩

/-- Without circles the finder of a member finds the first node on its walk that has a name which
equals the given value. -/
theorem find?_eq_ok (only : world.HoldsMembersOnly) (linked : world.forest.Linked)
    (free : world.forest.CircleFree) {index : Nat} (present : index < world.forest.members.size)
    (name : Value) :
    ∃ found?, world.forest.find? index name = .ok found? ∧
      found?.map world.member = ((world.forest.walk index).nodes.map world.member).find?
        fun node => (world.attributeOf node "name").equals name := by
  obtain ⟨ends, -, same⟩ := walk_eq_cons_descendants only linked free present (Nat.le_refl _)
  refine ⟨(world.forest.walk index).nodes.find? (world.forest.isCalled name), ?_, ?_⟩
  · rw [Forest.find?, Listing.find?, ends]
    cases (world.forest.walk index).nodes.find? (world.forest.isCalled name) <;> rfl
  · rw [List.find?_map]
    congr 1
    apply List.find?_congr
    intro found met
    have confined := confined_descendants only linked free (Nat.le_refl _)
    have below : world.member found ∈ world.memberValues := by
      have member : world.member found ∈ (world.forest.walk index).nodes.map world.member :=
        List.mem_map_of_mem met
      rw [same] at member
      rcases List.mem_cons.mp member with here | lower
      · exact ⟨index, present, here.symm⟩
      · exact (confined _ ⟨index, present, rfl⟩).2 _ lower
    obtain ⟨other, known, equal⟩ := below
    cases world.member_injective equal
    exact isCalled_eq known name

end World

/-- A setting in which a world is seen through the standard adapter, and in which tests ask what the
attributes of its objects hold. -/
structure Setting.Shows (setting : Setting Value LeafTest Failure) (world : World) : Prop where
  hosts : setting.host = world.host setting.patience .standard
  answers : ∃ foreignType : Foreign → String, ∀ leaf node,
    setting.answer leaf node = (leaf.answer world foreignType node).mapError .raised

/-- A session whose world holds members only shows it. -/
theorem Session.setting_shows {session : Session} (only : session.world.HoldsMembersOnly)
    (target : SinkTarget) : (session.setting .standard target).Shows session.world where
  hosts := by
    have admits : session.refusal? = fun _ => none := by
      funext node
      have keyless : session.world.customKey? node = none := by
        rw [World.customKey?, only.nothing]
        rcases node.place? with _ | _ | _ <;> rfl
      rw [refusal?, World.unhashableKey?, keyless]
      rfl
    have admitted : (session.host .standard).guarded session.refusal? = session.host .standard := by
      rw [admits, Host.guarded_none]
    exact admitted
  answers := by
    refine ⟨session.foreignType, fun leaf node => ?_⟩
    unfold setting
    dsimp only
    generalize leaf.answer session.world session.foreignType node = outcome
    cases outcome <;> rfl

/-- Asked about a node that has a text for a name or none, the test for a name answers whether the
name is that one. -/
theorem Setting.Shows.verdict_called {setting : Setting Value LeafTest Failure} {world : World}
    (shows : setting.Shows world) (text : String) {node : Value}
    (plain : (world.attributeOf node "name").isNull = true ∨
      (world.attributeOf node "name").text?.isSome = true) :
    (Predicate.called text).verdict setting.answer node =
      .ok (.bool ((world.attributeOf node "name").text?.any (· == text))) := by
  obtain ⟨foreignType, answers⟩ := shows.answers
  have one : [text].contains = (· == text) := by
    funext other
    rw [Bool.eq_iff_iff]
    simp
  rw [Predicate.called, Predicate.verdict, answers, LeafTest.answer,
    Value.unhashable?_eq_none plain, one]
  rfl

namespace World

/-- Where no two members have one identifier, the navigation to all descendants of a member that are
called by a text finds them in the order in which the host lists them. -/
theorem search_called_finds {world : World} (only : world.HoldsMembersOnly)
    (linked : world.forest.Linked) (free : world.forest.CircleFree)
    {setting : Setting Value LeafTest Failure} (shows : setting.Shows world)
    (patient : 2 * world.forest.members.size + 2 ≤ setting.patience) (named : world.NamedByTexts)
    (apart : world.IdentifiersApart) {index : Nat} (present : index < world.forest.members.size)
    (text : String) :
    (Path.search .allDescendants (Predicate.called text)).Finds setting [world.member index]
      ((setting.host.descendants (world.member index)).nodes.filter fun node =>
        (world.attributeOf node "name").text?.any (· == text)) := by
  have plain : ∀ node ∈ world.memberValues, (world.attributeOf node "name").isNull = true ∨
      (world.attributeOf node "name").text?.isSome = true := by
    rintro _ ⟨other, known, rfl⟩
    rw [attributeOf_name known]
    exact named _ (Array.getElem_mem known)
  have answers : (Predicate.called text).Answers setting.answer world.memberValues :=
    fun node inside => ⟨_, shows.verdict_called text (plain node inside)⟩
  have tree := isTree_standard only linked free setting.patience
  have within := confined_descendants only linked free patient _ ⟨index, present, rfl⟩
  rw [← world.ncard_memberValues] at patient
  rw [← shows.hosts] at within
  have finds := Path.search_allDescendants_finds shows.hosts tree apart.injOn_key patient ⟨_, rfl⟩
    answers ⟨index, present, rfl⟩
  have called : (setting.host.descendants (world.member index)).nodes.filter
        ((Predicate.called text).holds setting.answer) =
      (setting.host.descendants (world.member index)).nodes.filter fun node =>
        (world.attributeOf node "name").text?.any (· == text) := by
    apply List.filter_congr
    intro node member
    rw [Predicate.holds, shows.verdict_called text (plain node (within.2 node member))]
    rfl
  rwa [called] at finds

/-- **The walks and the finders agree.** However members were planted and attached, if there are no
circles and every name is a text or nothing, then the walk from a member is the member followed by
the descendants that the standard adapter lists, node for node. The finder of a member finds the
first node of that sequence whose name equals the given value, or none. Where no two members have
one identifier, and for a text, it finds the member itself if that is its name, and otherwise what
comes first in the navigation to all descendants of that name. -/
theorem walks_and_finders_agree {deeds : List Deed} (onMembers : ∀ deed ∈ deeds, deed.OnMembers)
    (permitted : World.PermitsAll {} deeds) :
    let world := World.afterAll {} deeds
    world.forest.CircleFree → world.NamedByTexts →
    ∀ setting : Setting Value LeafTest Failure, setting.Shows world →
    2 * world.forest.members.size + 2 ≤ setting.patience →
    ∀ index < world.forest.members.size,
      let node := world.member index
      let descendants := setting.host.descendants node
      let sequence := node :: descendants.nodes
      let isCalled (value node : Value) := (world.attributeOf node "name").equals value
      ((world.forest.walk index).fault? = none ∧ descendants.fault? = none ∧
        (world.forest.walk index).nodes.map world.member = sequence) ∧
      (∀ value, ∃ found?, world.forest.find? index value = .ok found? ∧
        found?.map world.member = sequence.find? (isCalled value)) ∧
      (world.IdentifiersApart → ∀ value text, value.text? = some text →
        ∃ test below? found?, Predicate.attributeIs "name" [value] = .ok test ∧
          (Path.search .allDescendants test).FindsFirst setting [node] below? ∧
          world.forest.find? index value = .ok found? ∧
          found?.map world.member = if isCalled value node then some node else below?) := by
  intro world free named setting shows patient index present node descendants sequence isCalled
  have linked : world.forest.Linked := permitted.linked
  have only : world.HoldsMembersOnly := HoldsMembersOnly.empty.afterAll onMembers
  have walks := walk_eq_cons_descendants only linked free present patient
  rw [← shows.hosts] at walks
  have finds : ∀ value, ∃ found?, world.forest.find? index value = .ok found? ∧
      found?.map world.member = sequence.find? (isCalled value) := by
    intro value
    obtain ⟨found?, ends, first⟩ := find?_eq_ok only linked free present value
    rw [walks.2.2] at first
    exact ⟨found?, ends, first⟩
  refine ⟨walks, finds, fun apart value text holds => ?_⟩
  obtain ⟨found?, ends, first⟩ := finds value
  have search := search_called_finds only linked free shows patient named apart present text
  refine ⟨_, _, found?, Predicate.attributeIs_name holds, search.first, ends, ?_⟩
  have same : isCalled value =
      fun node => (world.attributeOf node "name").text?.any (· == text) :=
    funext fun node => Value.equals_of_text? holds _
  rw [first, List.head?_filter, ← same, List.find?_cons]
  cases isCalled value node <;> rfl

section Copse

/-- A member by its place and its generated identifier. -/
def planted (index : Nat) : Value :=
  .node (.member index) (.identifier (Forest.generated (index + 1)))

/-- A root has three children, the second of which has no name. Two members are called alike, one of
which is a child of the first child and the other one the last child of the root. -/
def copse : List Deed :=
  [.plant (.text "x") .null none [] [],
    .plant (.text "a") .null none [] [planted 0],
    .plant .null .null none [] [],
    .plant (.text "x") .null none [] [],
    .plant (.text "r") .null none [] [planted 1, planted 2, planted 3]]

/-- Both finders come to the deeper one of the members that are called alike, which is met first. -/
theorem copse_finders_agree :
    let world := World.afterAll {} copse
    let setting := ({ world } : Session).setting .standard (.unusable .null)
    (∀ deed ∈ copse, deed.OnMembers) ∧ World.PermitsAll {} copse ∧ world.forest.CircleFree ∧
      world.NamedByTexts ∧ setting.Shows world ∧ world.IdentifiersApart ∧
      2 * world.forest.members.size + 2 ≤ setting.patience ∧
      (world.forest.walk 4).nodes = [4, 1, 0, 2, 3] ∧
      (world.member 4 :: (setting.host.descendants (world.member 4)).nodes) =
        [4, 1, 0, 2, 3].map world.member ∧
      world.forest.find? 4 (.text "x") = .ok (some 0) ∧
      (Path.search .allDescendants (Predicate.called "x")).FindsFirst setting [world.member 4]
        (some (world.member 0)) := by
  intro world setting
  have onMembers : ∀ deed ∈ copse, deed.OnMembers := by
    simp [copse, Deed.OnMembers]
  have known : ∀ {world : World} {index : Nat}, index < world.forest.members.size →
      world.Knows (planted index) := by
    rintro world index present _ ⟨⟩
    exact present
  have permitted : World.PermitsAll {} copse := by
    refine ⟨List.forall_mem_nil _, ?_, List.forall_mem_nil _, List.forall_mem_nil _, ?_, trivial⟩
    · exact List.forall_mem_singleton.mpr (known (by decide))
    · refine List.forall_mem_cons.mpr ⟨known (by decide), List.forall_mem_cons.mpr ⟨?_, ?_⟩⟩
      · exact known (by decide)
      · exact List.forall_mem_singleton.mpr (known (by decide))
  have spares : World.Spares {} copse :=
    ⟨not_false, not_false, not_false, not_false, not_false, trivial⟩
  have free : world.forest.CircleFree :=
    (permitted.circleFree_afterAll .empty).mpr ⟨Forest.circleFree_empty, spares⟩
  have named : world.NamedByTexts := by
    unfold NamedByTexts
    decide
  have apart : world.IdentifiersApart := identifiersApart_iff_nodup.mpr (by decide)
  have only : world.HoldsMembersOnly := HoldsMembersOnly.empty.afterAll onMembers
  have shows : setting.Shows world := Session.setting_shows only _
  have patient : 2 * world.forest.members.size + 2 ≤ setting.patience := by decide
  obtain ⟨⟨-, -, walks⟩, -, finders⟩ :=
    walks_and_finders_agree onMembers permitted free named setting shows patient 4 (by decide)
  have order : (world.forest.walk 4).nodes = [4, 1, 0, 2, 3] := by decide
  have first : world.forest.find? 4 (.text "x") = .ok (some 0) := by rfl
  obtain ⟨test, below?, found?, made, search, found, same⟩ := finders apart (.text "x") "x" rfl
  cases first.symm.trans found
  cases (Predicate.attributeIs_name rfl).symm.trans made
  have elsewhere : (world.attributeOf (world.member 4) "name").equals (.text "x") = false := by
    decide
  have below : some (world.member 0) = below? :=
    same.trans (if_neg (Bool.eq_false_iff.mp elsewhere))
  rw [order] at walks
  rw [← below] at search
  exact ⟨onMembers, permitted, free, named, shows, apart, patient, order, walks.symm, first, search⟩

end Copse

end World

end TreeQuery
