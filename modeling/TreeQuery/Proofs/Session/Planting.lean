import TreeQuery.Proofs.Session.Separation
import TreeQuery.Proofs.World.History

/-! # Building a forest in a session

The instructions that build host objects do deeds to the world, and what their tags name is always
there (`TreeQuery.Session.Builds.becomes`). A member whose construction was refused has no tag, but
whoever comes upon it as a parent can do deeds to it like to any other. So whatever is built, and
whatever is refused on the way, every member stands once among the children of its parent and
nowhere else, and no member loses its parent (`TreeQuery.Session.links_hold`).
-/

namespace TreeQuery

/-- Whether an instruction makes host objects or links them. -/
def Instruction.builds : Instruction → Bool
  | .plant .. | .tree _ | .chain .. | .wide .. | .box _ | .bare .. | .set .. | .addChild .. => true
  | _ => false

/-- A world that comes out of another by deeds. -/
def World.Becomes (world later : World) : Prop :=
  ∃ deeds, world.PermitsAll deeds ∧ later = world.afterAll deeds

namespace World.Becomes

variable {world middle later : World}

theorem refl (world : World) : world.Becomes world := ⟨[], trivial, rfl⟩

/-- A history may be followed by another. -/
theorem trans (first : world.Becomes middle) (second : middle.Becomes later) :
    world.Becomes later := by
  obtain ⟨before, permitted, rfl⟩ := first
  obtain ⟨rest, further, rfl⟩ := second
  exact ⟨before ++ rest, permitsAll_append.mpr ⟨permitted, further⟩, (afterAll_append _ _ _).symm⟩

/-- A single deed that is permitted is a history. -/
theorem deed {deed : Deed} (permitted : world.Permits deed) : world.Becomes (world.after deed) :=
  ⟨[deed], ⟨permitted, trivial⟩, rfl⟩

/-- The forest has grown at most: its members are there, with their parents. -/
theorem grows (becomes : world.Becomes later) : world.forest.Grows later.forest := by
  obtain ⟨deeds, permitted, rfl⟩ := becomes
  exact permitted.grows

/-- What the world knew it knows later. -/
theorem knows (becomes : world.Becomes later) {value : Value} (known : world.Knows value) :
    later.Knows value :=
  known.mono becomes.grows.size_le

theorem lt_size (becomes : world.Becomes later) {index : Nat}
    (present : index < world.forest.members.size) : index < later.forest.members.size :=
  Nat.lt_of_lt_of_le present becomes.grows.size_le

end World.Becomes

namespace Session

variable {α β : Type} {world : World}

/-- Tags name none but the members there are. -/
def Tagged (session : Session) : Prop :=
  ∀ tag node, session.tags.lookup tag = some node → session.world.Knows node

/-- An action that does deeds to a world, gives no tag to what is not there, and ends as expected
unless it fails. -/
def Develops (world : World) (action : Act α) (expected : World → α → Prop) : Prop :=
  ∀ before : Session, before.world = world → before.Tagged →
    world.Becomes (action.perform before).2.world ∧ (action.perform before).2.Tagged ∧
      match (action.perform before).1 with
      | .ok value => expected (action.perform before).2.world value
      | .error _ => True

/-- What is expected of an action and the world after it where nothing is known. -/
abbrev whichever : World → α → Prop := fun _ _ => True

namespace Develops

variable {expected : World → α → Prop} {desired : World → β → Prop}

theorem pure {value : α} (holds : expected world value) :
    Develops world (Pure.pure value : Act α) expected := by
  rintro before rfl tagged
  exact ⟨.refl _, tagged, holds⟩

/-- A failure does nothing to the world. -/
theorem throw (fault : Fault Failure) : Develops world (throw fault : Act α) expected := by
  rintro before rfl tagged
  exact ⟨.refl _, tagged, trivial⟩

/-- What goes on from an action starts in the world that the action has made. -/
theorem bind {first : Act α} {next : α → Act β} (develops : Develops world first expected)
    (goes : ∀ later value, world.Becomes later → expected later value →
      Develops later (next value) desired) :
    Develops world (first >>= next) desired := by
  rintro before rfl tagged
  obtain ⟨becomes, kept, ended⟩ := develops before rfl tagged
  rw [perform_bind]
  generalize first.perform before = done at becomes kept ended
  obtain ⟨_ | value, after⟩ := done
  · exact ⟨becomes, kept, trivial⟩
  · obtain ⟨further, named, last⟩ := goes after.world value becomes ended after rfl kept
    exact ⟨becomes.trans further, named, last⟩

/-- The session is read as one of that world. -/
theorem get_bind {next : Session → Act β}
    (goes : ∀ session, session.world = world → session.Tagged →
      Develops world (next session) desired) :
    Develops world (get >>= next) desired := by
  intro before same tagged
  rw [perform_get_bind]
  exact goes before same tagged before same tagged

theorem read (view : Session → α) :
    Develops world (do return view (← get) : Act α) whichever :=
  get_bind fun _ _ _ => pure trivial

theorem mono {action : Act α} {weaker : World → α → Prop}
    (develops : Develops world action expected)
    (weaken : ∀ later value, expected later value → weaker later value) :
    Develops world action weaker := by
  intro before same tagged
  obtain ⟨becomes, kept, ended⟩ := develops before same tagged
  refine ⟨becomes, kept, ?_⟩
  split at ended
  · next value _ => exact weaken _ value ended
  · trivial

/-- Where each element leaves something that lasts, all of it is there in the end. -/
theorem mapM {elements : List α} {action : α → Act β}
    (steady : ∀ {before after : World} value, before.Becomes after → desired before value →
      desired after value)
    (develops : ∀ later, ∀ element ∈ elements, Develops later (action element) desired) :
    Develops world (elements.mapM action) fun later values => ∀ value ∈ values,
      desired later value := by
  induction elements generalizing world with
  | nil =>
      rw [List.mapM_nil]
      exact pure nofun
  | cons element rest ih =>
      rw [List.mapM_cons]
      refine (develops _ element List.mem_cons_self).bind fun middle value _ here => ?_
      have others : Develops middle (rest.mapM action) fun later values => ∀ value ∈ values,
          desired later value := ih fun later other member => develops later other (.tail _ member)
      refine others.bind fun last values becomes all => pure ?_
      exact List.forall_mem_cons.mpr ⟨steady value becomes here, all⟩

theorem forM {elements : List α} {action : α → Act PUnit}
    (develops : ∀ later, ∀ element ∈ elements, Develops later (action element) whichever) :
    Develops world (elements.forM action) whichever := by
  induction elements generalizing world with
  | nil => exact pure trivial
  | cons element rest ih =>
      rw [List.forM]
      exact (develops _ element List.mem_cons_self).bind fun _ _ _ _ =>
        ih fun later other member => develops later other (.tail _ member)

/-- A state that each step hands on as expected is handed on so by all of them. -/
theorem foldlM {elements : List α} {action : β → α → Act β} {start : β}
    (begun : desired world start)
    (develops : ∀ later state, ∀ element ∈ elements, world.Becomes later → desired later state →
      Develops later (action state element) desired) :
    Develops world (elements.foldlM action start) desired := by
  induction elements generalizing world start with
  | nil =>
      rw [List.foldlM_nil]
      exact pure begun
  | cons element rest ih =>
      rw [List.foldlM_cons]
      refine (develops _ start element List.mem_cons_self (.refl _) begun).bind ?_
      intro middle state becomes reached
      exact ih reached fun later state other member more =>
        develops later state other (.tail _ member) (becomes.trans more)

end Develops

section Actions

/-- What a tag names is there. -/
theorem node_develops (tag? : Option String) : Develops world (node tag?) World.Knows := by
  cases tag? with
  | none =>
      refine .pure ?_
      rintro index ⟨⟩
  | some tag =>
      refine .get_bind fun session same tagged => ?_
      split
      · next node found => exact .pure (same ▸ tagged tag node found)
      · exact .throw _

/-- Nodes that are named by tags are there. -/
theorem nodes_develop (tags : List (Option String)) :
    Develops world (tags.mapM node) fun later nodes => ∀ node ∈ nodes, later.Knows node :=
  .mapM (fun _ becomes => becomes.knows) fun _ tag? _ => node_develops tag?

/-- An object of its own identity is no member. -/
theorem newObject_develops (value : Value) : Develops world (newObject value) whichever := by
  rintro before rfl tagged
  exact ⟨.refl _, tagged, trivial⟩

/-- A node taken for a member is one of those there are. -/
theorem memberFor_develops (wanted : String) {node : Value} (known : world.Knows node) :
    Develops world (memberFor wanted node) fun later index =>
      index < later.forest.members.size := by
  rw [memberFor.eq_def]
  split
  · next index place => exact .pure (known index place)
  · exact .get_bind fun _ _ _ => .throw _

/-- A child that is refused leaves the world as it is. -/
theorem refuseChild_develops {expected : World → α → Prop} (refused : AttachError) :
    Develops world (refuseChild refused : Act α) expected := by
  refine .get_bind fun _ _ _ => ?_
  split
  · exact .throw _
  · exact .throw _

/-- A deed to the world of a session is a development. -/
theorem setWorld_develops {deed : Deed} (permitted : world.Permits deed) :
    Develops world (setWorld (world.after deed)) fun later _ => later = world.after deed := by
  rintro before rfl tagged
  have becomes := World.Becomes.deed permitted
  exact ⟨becomes, fun tag node found => becomes.knows (tagged tag node found), rfl⟩

/-- A tag is given to what is there, and the world stays the same. -/
theorem bindTag_develops (tag : String) {node : Value} (known : world.Knows node) :
    Develops world (bindTag tag node) fun later _ => later = world := by
  rintro before rfl tagged
  refine ⟨.refl _, fun other value found => ?_, rfl⟩
  change List.lookup other ((tag, node) :: before.tags) = some value at found
  rw [List.lookup_cons] at found
  split at found
  · cases found
    exact known
  · exact tagged other value found

/-- Planting is a deed, and its member is there even if a child is refused. -/
theorem plantMember_develops (tag : String) (name kind : Value) (identifier? : Option String)
    (attributes : List (String × Value)) {children : List Value}
    (known : ∀ child ∈ children, world.Knows child) :
    Develops world (plantMember tag name kind identifier? attributes children)
      fun later index => index < later.forest.members.size := by
  refine .get_bind fun session same _ => ?_
  rw [same]
  have permitted : world.Permits (.plant name kind identifier? attributes children) := known
  have present := (world.grows_plant name kind identifier? attributes children).1
  refine (setWorld_develops permitted).bind fun later _ _ grown => ?_
  subst grown
  split
  · next index ended =>
    obtain rfl := World.eq_size_of_plant ended
    refine (bindTag_develops tag (World.knows_member present)).bind fun _ _ _ same => .pure ?_
    rw [same]
    exact present
  · exact refuseChild_develops _

/-- A child is attached by a deed or refused. -/
theorem attachChild_develops {parent : Nat} (present : parent < world.forest.members.size)
    (child : Value) : Develops world (attachChild parent child) whichever := by
  refine .get_bind fun session same _ => ?_
  rw [same]
  have permitted : world.Permits (.attach parent child) := present
  split
  · next grown done =>
    have deed : world.after (.attach parent child) = grown := by rw [World.after, done]
    exact deed ▸ (setWorld_develops permitted).mono fun _ _ _ => trivial
  · exact refuseChild_develops _

/-- A member grown under another one is planted and then attached. -/
theorem growMember_develops (tag : String) (name kind : Value) {parent : Nat}
    (present : parent < world.forest.members.size) :
    Develops world (growMember tag name kind parent) fun later index =>
      index < later.forest.members.size := by
  refine (plantMember_develops tag name kind none [] (List.forall_mem_nil _)).bind
    fun grown child becomes here => ?_
  refine .get_bind fun _ _ _ => ?_
  refine (attachChild_develops (becomes.lt_size present) _).bind fun _ _ more _ => .pure ?_
  exact more.lt_size here

mutual

/-- A tree is planted from its leaves to its root, which is known in the end. -/
theorem plantTree_develops (world : World) (tree : TreeExpr) :
    Develops world (plantTree tree) World.Knows := by
  cases tree with
  | node tag name kind children =>
      rw [plantTree]
      refine (plantTrees_develop world children).bind fun planted nodes _ known => ?_
      refine (newObject_develops _).bind fun _ _ named _ => ?_
      refine (newObject_develops _).bind fun _ _ kept _ => ?_
      refine (plantMember_develops _ _ _ _ _ fun child member => ?_).bind
        fun later _ _ present => ?_
      · exact (named.trans kept).knows (known child member)
      · refine .get_bind fun session same _ => .pure ?_
        exact same ▸ World.knows_member (same ▸ present)

theorem plantTrees_develop (world : World) (trees : List TreeExpr) :
    Develops world (plantTrees trees) fun later nodes => ∀ node ∈ nodes, later.Knows node := by
  cases trees with
  | nil => exact .pure (List.forall_mem_nil _)
  | cons tree rest =>
      rw [plantTrees]
      refine (plantTree_develops world tree).bind fun planted _ _ first => ?_
      refine (plantTrees_develop planted rest).bind fun _ _ more others => .pure ?_
      exact List.forall_mem_cons.mpr ⟨more.knows first, others⟩

end

/-- A chain is grown downwards. -/
theorem plantChain_develops (as : String) (length : Nat) (kind : Value) :
    Develops world (plantChain as length kind) whichever := by
  let Planted (later : World) (index : Nat) : Prop := index < later.forest.members.size
  refine (newObject_develops kind).bind fun _ _ _ _ => (newObject_develops _).bind fun _ _ _ _ => ?_
  refine (plantMember_develops _ _ _ _ _ (List.forall_mem_nil _)).bind
    fun later first _ present => ?_
  have begun : Planted later first := present
  refine Develops.bind (.foldlM begun fun _ _ _ _ _ here => ?_) fun _ _ _ _ => .read _
  exact (newObject_develops _).bind fun _ _ same _ => growMember_develops _ _ _ (same.lt_size here)

/-- In a wide tree everything that has been planted so far is there to be planted under. -/
theorem plantLevels_develops (as : String) (fanout depth : Nat) :
    Develops world (plantLevels as fanout depth) whichever := by
  let Planted (later : World) (state : List Nat × Nat × Nat) : Prop :=
    (∀ index ∈ state.1, index < later.forest.members.size) ∧
      state.2.2 < later.forest.members.size
  refine (newObject_develops _).bind fun _ _ _ _ => ?_
  refine (plantMember_develops _ _ _ _ _ (List.forall_mem_nil _)).bind
    fun later root _ present => ?_
  have begun : Planted later ([root], 1, root) := ⟨List.forall_mem_singleton.mpr present, present⟩
  refine Develops.bind (.foldlM begun fun below state level _ _ reached => ?_)
    fun _ _ _ _ => .read _
  obtain ⟨above, count, last⟩ := state
  have emptied : Planted below ([], count, last) := ⟨List.forall_mem_nil _, reached.2⟩
  refine Develops.bind (.foldlM emptied fun further state parent member more upper => ?_) ?_
  · obtain ⟨grown, count, last⟩ := state
    refine .foldlM upper fun _ state _ _ onward here => ?_
    obtain ⟨grown, count, last⟩ := state
    refine (newObject_develops _).bind fun _ _ same _ => ?_
    have parentThere := (more.trans onward).lt_size (reached.1 parent member)
    refine (growMember_develops _ _ _ (same.lt_size parentThere)).bind
      fun _ child grows present => .pure ⟨?_, present⟩
    refine List.forall_mem_cons.mpr ⟨present, fun other listed => ?_⟩
    exact (same.trans grows).lt_size (here.1 other listed)
  · rintro _ ⟨grown, count, last⟩ _ here
    exact .pure ⟨fun other listed => here.1 other (List.mem_reverse.mp listed), here.2⟩

/-- Putting an object beside the forest is always permitted. -/
theorem putThing_develops (tag : String) (thing : Thing) :
    Develops world (putThing tag thing) whichever := by
  refine .get_bind fun session same _ => ?_
  rw [same]
  have permitted : world.Permits (.put thing) := trivial
  refine (setWorld_develops permitted).bind fun _ _ _ _ => ?_
  refine (bindTag_develops tag ?_).bind fun _ _ _ _ => .pure trivial
  rintro index ⟨⟩

theorem evalAttribute_develops (expression : AttributeExpr) :
    Develops world (evalAttribute expression) whichever := by
  cases expression with
  | node tag? => exact (node_develops tag?).mono fun _ _ _ => trivial
  | nodes tags => exact (nodes_develop tags).bind fun _ _ _ _ => newObject_develops _
  | tuple tags => exact (nodes_develop tags).bind fun _ _ _ _ => newObject_develops _
  | value value => exact newObject_develops value

/-- Attributes may be set on any node. -/
theorem setAttributes_develops (node : Value) (attributes : List (String × AttributeExpr)) :
    Develops world (setAttributes node attributes) whichever := by
  refine .forM fun later entry _ => ?_
  refine (evalAttribute_develops entry.2).bind fun middle value _ _ => ?_
  split
  · next index _ =>
    refine .get_bind fun session same _ => ?_
    rw [same]
    have permitted : middle.Permits (.set index entry.1 value) := trivial
    exact (setWorld_develops permitted).mono fun _ _ _ => trivial
  · exact .get_bind fun _ _ _ => .throw _

/-- An instruction that builds does deeds to the world, also when it is refused in the middle. -/
theorem execute_develops {instruction : Instruction} (builds : instruction.builds = true) :
    Develops world (execute instruction) whichever := by
  cases instruction with
  | plant as name kind identifier? children attributes =>
      refine (nodes_develop children).bind fun _ _ _ known => ?_
      refine (newObject_develops _).bind fun _ _ named _ => ?_
      refine (newObject_develops _).bind fun _ _ kept _ => ?_
      refine (plantMember_develops _ _ _ _ _ fun child member => ?_).bind fun _ _ _ _ =>
        .get_bind fun _ _ _ => .read _
      exact (named.trans kept).knows (known child member)
  | tree tree =>
      exact (plantTree_develops _ tree).bind fun _ _ _ _ => .bind (.read _) fun _ _ _ _ =>
        .pure trivial
  | chain as length kind =>
      exact (plantChain_develops as length kind).bind fun _ _ _ _ => .bind (.read _)
        fun _ _ _ _ => .pure trivial
  | wide as fanout depth =>
      exact (plantLevels_develops as fanout depth).bind fun _ _ _ _ => .bind (.read _)
        fun _ _ _ _ => .pure trivial
  | box | bare => exact (putThing_develops _ _).bind fun _ _ _ _ => .pure trivial
  | set tag? attributes =>
      exact (node_develops tag?).bind fun _ _ _ _ => (setAttributes_develops _ _).bind
        fun _ _ _ _ => .pure trivial
  | addChild tag? child? =>
      refine (node_develops tag?).bind fun _ _ _ known => (memberFor_develops _ known).bind
        fun _ _ _ present => (node_develops child?).bind fun _ _ same _ => ?_
      exact (attachChild_develops (same.lt_size present) _).bind fun _ _ _ _ => .read _
  | _ => cases builds

end Actions

/-- A session that building leads to from another: by instructions, which name what they build on
by tags, and by deeds to members and objects that need no tag. -/
inductive Builds (start : Session) : Session → Prop where
  | refl : Builds start start
  | step {session : Session} (instruction : Instruction) (builds : instruction.builds = true)
      (before : Builds start session) : Builds start ((execute instruction).perform session).2
  | act {session : Session} (deeds : List Deed) (permitted : session.world.PermitsAll deeds)
      (before : Builds start session) :
      Builds start { session with world := session.world.afterAll deeds }

/-- Building does deeds to the world. -/
theorem Builds.becomes {start session : Session} (builds : Builds start session)
    (tagged : start.Tagged) : start.world.Becomes session.world ∧ session.Tagged := by
  induction builds with
  | refl => exact ⟨.refl _, tagged⟩
  | step instruction builds _ ih =>
      obtain ⟨becomes, named⟩ := ih
      obtain ⟨further, kept, _⟩ := execute_develops builds _ rfl named
      exact ⟨becomes.trans further, kept⟩
  | act deeds permitted _ ih =>
      obtain ⟨becomes, named⟩ := ih
      have further : World.Becomes _ _ := ⟨deeds, permitted, rfl⟩
      exact ⟨becomes.trans further, fun tag node found => further.knows (named tag node found)⟩

/-- At the start nothing has a tag. -/
theorem tagged_start : ({} : Session).Tagged := nofun

section Attaching

/-- An action that leaves the session as it was when it fails. -/
def BacksOut (action : Act α) : Prop :=
  ∀ session, (action.perform session).1.isOk = false → (action.perform session).2 = session

namespace BacksOut

/-- What is only read before cannot be left behind. -/
theorem bind_of_reads {first : Act α} {next : α → Act β} (reads : Reads first)
    (backs : ∀ value, BacksOut (next value)) : BacksOut (first >>= next) := by
  intro session
  cases ended : (first.perform session).1 with
  | error fault =>
      have done : first.perform session = (.error fault, session) := Prod.ext ended (reads session)
      rw [perform_bind, done]
      exact fun _ => rfl
  | ok value =>
      rw [reads.perform_bind_of_ok ended]
      exact backs value session

/-- Nothing goes wrong any more when the session is only told about. -/
theorem bind_read {action : Act α} (backs : BacksOut action) (view : α → Session → β) :
    BacksOut (action >>= fun value => do return view value (← get)) := by
  intro session
  have kept := backs session
  rw [perform_bind]
  generalize action.perform session = done at kept ⊢
  obtain ⟨_ | value, after⟩ := done
  · exact fun _ => kept rfl
  · exact fun failed => by cases failed

end BacksOut

/-- Looking for a member leaves the session as it is, also if there is none. -/
theorem memberFor_reads (wanted : String) (node : Value) : Reads (memberFor wanted node) := by
  rw [memberFor.eq_def]
  split
  · exact .pure _
  · exact .get_bind fun _ => .throw _

theorem refuseChild_reads (refused : AttachError) : Reads (refuseChild refused : Act α) := by
  refine .get_bind fun _ => ?_
  split
  · exact .throw _
  · exact .throw _

/-- A child that cannot be attached leaves the session as it was. -/
theorem attachChild_backsOut (parent : Nat) (child : Value) :
    BacksOut (attachChild parent child) := by
  intro session
  rw [attachChild, perform_get_bind]
  split
  · exact fun failed => by cases failed
  · exact fun _ => refuseChild_reads _ session

/-- The instruction leaves the session as it was when it fails, whatever is wrong with the nodes it
names. -/
theorem addChild_backsOut (tag? child? : Option String) :
    BacksOut (execute (.addChild tag? child?)) :=
  .bind_of_reads (node_reads tag?) fun _ => .bind_of_reads (memberFor_reads _ _) fun _ =>
    .bind_of_reads (node_reads child?) fun _ => (attachChild_backsOut _ _).bind_read _

/-- The member that a tag names, if it names one. -/
def memberUnder (session : Session) (tag : String) : Option Nat :=
  match (session.tags.lookup tag).bind Value.place? with
  | some (.member index) => some index
  | _ => none

/-- What a tag names is what the instruction goes by. -/
theorem memberUnder_eq_some {session : Session} {tag : String} {index : Nat}
    (named : session.memberUnder tag = some index) :
    ∃ value, ((node (some tag)).perform session).1 = .ok value ∧
      value.place? = some (.member index) := by
  unfold memberUnder at named
  split at named
  · next place found =>
    cases named
    obtain ⟨value, known, placed⟩ := Option.bind_eq_some_iff.mp found
    refine ⟨value, ?_, placed⟩
    rw [node, perform_get_bind, known]
    rfl
  · cases named

/-- A member that has no parent becomes a child of any member. -/
theorem addChild_links {session : Session} {upper lower : String} {parent child : Nat}
    (above : session.memberUnder upper = some parent)
    (below : session.memberUnder lower = some child)
    (present : child < session.world.forest.members.size)
    (free : session.world.forest.parent? child = none) :
    ((execute (.addChild (some upper) (some lower))).perform session).2.world.forest =
      session.world.forest.link parent child := by
  obtain ⟨parentNode, parentFound, parentPlace⟩ := memberUnder_eq_some above
  obtain ⟨childNode, childFound, childPlace⟩ := memberUnder_eq_some below
  have member : ((memberFor "add_child" parentNode).perform session).1 = .ok parent := by
    rw [memberFor.eq_def, parentPlace]
    rfl
  rw [execute, (node_reads _).perform_bind_of_ok parentFound,
    (memberFor_reads _ _).perform_bind_of_ok member,
    (node_reads _).perform_bind_of_ok childFound, perform_bind, attachChild, perform_get_bind,
    World.attach_of_free childPlace present free]
  rfl

end Attaching

/-- What holds of parents and children in a session. -/
structure LinksHold (session : Session) : Prop where
  /-- A member stands once among the children of its parent, and not at all among those of any
  other. -/
  agree : ∀ parent child, (session.world.forest.children parent).count (.member child) =
    if session.world.forest.parent? child = some parent then 1 else 0
  /-- Attaching a child that is refused changes nothing. -/
  refused : ∀ upper? lower?,
    ((execute (.addChild upper? lower?)).perform session).1.isOk = false →
      ((execute (.addChild upper? lower?)).perform session).2 = session
  /-- A member without a parent gets the one that it is attached to, be it itself. -/
  attached : ∀ upper lower parent child, session.memberUnder upper = some parent →
    session.memberUnder lower = some child → session.world.forest.parent? child = none →
      ((execute (.addChild (some upper) (some lower))).perform session).2.world.forest.parent?
        child = some parent
  /-- So does a member that no tag names when a deed attaches it to another that no tag names
  either, and with a member that has a parent such a deed changes nothing. -/
  joined : ∀ parent child, child < session.world.forest.members.size →
    let later := session.world.after (.attach parent (session.world.member child))
    (session.world.forest.parent? child = none → later.forest.parent? child = some parent) ∧
      (session.world.forest.parent? child ≠ none → later = session.world)
  /-- Whatever is built later, a member keeps its parent. -/
  kept : ∀ later, Builds session later → ∀ child parent,
    session.world.forest.parent? child = some parent →
      later.world.forest.parent? child = some parent

/-- **Links hold.** In every session in which host objects are built, with constructions that were
refused in the middle, members that were attached to themselves and half-built members that were
used again among them, the links between parents and children agree in both directions, and a member
that has a parent keeps it. -/
theorem links_hold {session : Session} (built : Builds {} session) : session.LinksHold := by
  obtain ⟨becomes, tagged⟩ := built.becomes tagged_start
  exact
    { agree := becomes.grows.linked .empty
      refused := fun upper? lower? => addChild_backsOut upper? lower? session
      attached := fun upper lower parent child above below free => by
        have present : child < session.world.forest.members.size := by
          obtain ⟨value, found, placed⟩ := memberUnder_eq_some below
          obtain ⟨_, _, known⟩ := node_develops (some lower) session rfl tagged
          rw [found] at known
          have kept := (node_reads (some lower)) session
          exact kept ▸ known child placed
        rw [addChild_links above below present free, Forest.parent?_link, if_pos ⟨rfl, present⟩]
      joined := fun parent child present => by
        refine ⟨fun free => ?_, fun taken => ?_⟩
        · rw [World.after_attach_of_free parent present free, Forest.parent?_link,
            if_pos ⟨rfl, present⟩]
        · obtain ⟨upper, under⟩ := Option.ne_none_iff_exists'.mp taken
          exact World.after_attach_of_parent parent under
      kept := fun later builds child parent above =>
        (builds.becomes tagged).1.grows.parent?_eq_some above }

section Nursery

/-- A session in which building is refused in the middle: the second member was to have the first as
a child twice, and a third one is its own parent. -/
def nursery : Session :=
  [.plant "a" (.text "a") .null none [] [],
    .plant "b" (.text "b") .null none [some "a", some "a"] [],
    .plant "c" (.text "c") .null none [] [], .addChild (some "c") (some "c")].foldl
      (fun session instruction => ((execute instruction).perform session).2) {}

/-- The half-built member is attached to the third one. Then a fourth is refused it as a child and
becomes its child instead. -/
def reuse : List Deed :=
  [.attach 2 (.node (.member 1) (.identifier "n2")),
    .plant (.text "d") .null none [] [.node (.member 1) (.identifier "n2")],
    .attach 1 (.node (.member 3) (.identifier "n4"))]

/-- The session of the nursery after the half-built member was used again. -/
def school : Session :=
  { nursery with world := nursery.world.afterAll reuse }

/-- The member whose construction was refused is the parent of the first one, and stays so. Neither
it nor the fourth one has a tag. -/
theorem nursery_links_hold :
    Builds {} nursery ∧ Builds nursery school ∧ school.LinksHold ∧
      nursery.world.forest.children 1 = [.member 0] ∧ nursery.world.forest.parent? 0 = some 1 ∧
      school.world.forest.parent? 0 = some 1 ∧
      school.world.forest.children 1 = [.member 0, .member 3] ∧
      school.world.forest.parent? 3 = some 1 ∧
      school.world.forest.children 2 = [.member 2, .member 1] ∧
      school.world.forest.parent? 2 = some 2 ∧
      ((execute (.addChild (some "c") (some "a"))).perform school).2 = school := by
  have built : Builds {} nursery :=
    ((((Builds.refl.step _ rfl).step _ rfl).step _ rfl).step _ rfl)
  have receiver : 2 < nursery.world.forest.members.size := by decide +kernel
  have known : ∀ child ∈ [Value.node (.member 1) (.identifier "n2")],
      (nursery.world.afterAll (reuse.take 1)).Knows child := by
    rw [List.forall_mem_singleton]
    rintro index ⟨⟩
    decide +kernel
  have halfBuilt : 1 < (nursery.world.afterAll (reuse.take 2)).forest.members.size := by
    decide +kernel
  have permitted : nursery.world.PermitsAll reuse := ⟨receiver, known, halfBuilt, trivial⟩
  have again : Builds nursery school := Builds.refl.act reuse permitted
  have holds : school.LinksHold := links_hold (built.act reuse permitted)
  refine ⟨built, again, holds, ?_, ?_, ?_, ?_, ?_, ?_, ?_, holds.refused _ _ ?_⟩
  all_goals decide +kernel

end Nursery

end Session

end TreeQuery
