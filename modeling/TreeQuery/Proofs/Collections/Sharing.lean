import TreeQuery.Proofs.Collections.Simulation
import TreeQuery.Proofs.Navigation.Loops

/-! # Navigation shares no collections

A path that handles collections as objects finds what it finds on frontiers as values, and confuses
no objects on the way: its buffers are new, so filling and draining them changes no collection that
was there before (`TreeQuery.Handler.Handles`). What it hands out is the shared empty collection
just if it has no node, and otherwise the collection that it started from or a new one. A navigation
starts from a copy, so it hands out a new one (`TreeQuery.Handler.navigate_follows`).
-/

namespace TreeQuery.Handler

open Handling Collections

variable {Node Leaf Failure : Type} [Keyed Node]

/-- A collection that has the nodes found. -/
structure Holding (after : Collections Node) (found : Frontier Node) (handed : Nat) : Prop where
  present : handed < after.frontiers.size
  content : after.get handed = found

/-- A collection that has the nodes found, the shared one in case there are none, and otherwise the
one at the start or none of the old ones. -/
structure Hands (old : Collections Node) (start : Nat) (after : Collections Node)
    (found : Frontier Node) (handed : Nat) : Prop extends Holding after found handed where
  shared_of_empty : found = ∅ → handed = shared
  apart : handed = shared ∨ handed = start ∨ old.frontiers.size ≤ handed

variable {old before : Collections Node} {start : Nat}

theorem Hands.nothing (formed : before.WellFormed) : Hands old start before ∅ shared where
  present := formed.present
  content := formed.nothing
  shared_of_empty _ := rfl
  apart := .inl rfl

theorem Hands.fresh {after : Collections Node} {found : Frontier Node} {handed : Nat}
    (hands : Hands old shared after found handed) :
    handed = shared ∨ old.frontiers.size ≤ handed :=
  hands.apart.elim .inl id

/-- What is none of more collections is none of the old ones. -/
theorem Hands.of_extends {after : Collections Node} {found : Frontier Node} {handed : Nat}
    (hands : Hands before start after found handed) (grown : old.Extends before) :
    Hands old start after found handed where
  toHolding := hands.toHolding
  shared_of_empty := hands.shared_of_empty
  apart := hands.apart.imp_right fun other => other.imp_right (Nat.le_trans grown.grown)

/-- What is handed out in place of a buffer. -/
theorem Hands.handOut (formed : before.WellFormed) {buffer : Nat}
    (present : buffer < before.frontiers.size)
    (apart : buffer = shared ∨ buffer = start ∨ old.frontiers.size ≤ buffer) :
    Hands old start before (before.get buffer)
      (if (before.get buffer).isEmpty then shared else buffer) := by
  split
  · next none =>
    rw [Frontier.isEmpty_iff.mp none]
    exact .nothing formed
  · next some =>
    exact ⟨⟨present, rfl⟩, fun none => absurd (Frontier.isEmpty_iff.mpr none) some, apart⟩

variable (formed : old.WellFormed) (refused : CollectionError → Failure)

section Steps

include formed

/-- Filtering makes a new collection of the nodes that pass, if any do. -/
theorem filter_follows (begun : old.Extends before) (index : Nat)
    (accepts : Node → Run Node Leaf Failure Bool) :
    Follows before old.Extends ((before.get index).filterRun accepts)
      (Handling.filter accepts index) (Hands old shared) := by
  have grown : before.WellFormed := formed.of_extends begun
  refine .after (present_steps before) ?_
  by_cases isShared : index = shared
  · have nothing : (∅ : Frontier Node).filterRun accepts = pure ∅ := rfl
    rw [Collections.filterRun, if_pos isShared, isShared, grown.nothing, nothing]
    refine .after (ofRun_pure_steps before (before, shared)) (.after (replace_steps _ _) ?_)
    exact .pure begun (.nothing grown)
  · rw [Collections.filterRun, if_neg isShared, ofRun_bind_eq, bind_assoc]
    nth_rewrite 1 [← bind_pure ((before.get index).filterRun accepts)]
    refine .ofRun_bind _ begun fun found => ?_
    have adds : before.Adds (before.result found) := result_adds grown.present
    refine .after (ofRun_pure_steps before (before.result found)) (.after (replace_steps _ _) ?_)
    refine .pure (begun.trans adds.old_extends) ⟨⟨adds.present, get_result grown.nothing⟩,
      (result_shared_iff grown.present).mpr, ?_⟩
    exact adds.apart.imp_right fun apart => .inr (Nat.le_trans begun.grown apart)

/-- A buffer that none of the old collections is takes in what is found from one node after the
other. -/
theorem fillAll_follows (relocate : Node → Run Node Leaf Failure (List Node)) (nodes : List Node)
    {buffer : Nat} (recent : old.frontiers.size ≤ buffer)
    (present : buffer < before.frontiers.size) (begun : old.Extends before) :
    Follows before old.Extends
      (Run.sequence never (nodes.map fun node => Frontier.takingIn (relocate node))
        (before.get buffer))
      (nodes.forM fun node => do fill refused buffer (.list (← ofRun (relocate node))))
      fun after found _ => Holding after found buffer := by
  have owned : buffer ≠ shared := Nat.ne_of_gt (Nat.lt_of_lt_of_le formed.present recent)
  induction nodes generalizing before with
  | nil => exact .pure begun ⟨present, rfl⟩
  | cons node rest ih =>
      rw [List.map_cons, Run.sequence_cons_of_not_over _ _ rfl, Frontier.takingIn, bind_assoc,
        List.forM, bind_assoc]
      refine .ofRun_bind (relocate node) begun fun found => ?_
      refine .after (fill_steps _ refused (.list found) owned) ?_
      have later := ih (by
        rw [size_put]
        exact present) (begun.put recent ((before.get buffer).insertAll found))
      rw [get_put_self before _ present] at later
      rw [pure_bind]
      exact later

/-- A buffer that gathers nodes is new. -/
theorem gather_follows (begun : old.Extends before)
    (relocate : Node → Run Node Leaf Failure (List Node)) {index : Nat}
    (present : index < before.frontiers.size) :
    Follows before old.Extends ((before.get index).gather relocate)
      (Handler.gather refused relocate index)
      fun after found handed => Holding after found handed ∧ old.frontiers.size ≤ handed := by
  have recent : old.frontiers.size ≤ (before.create ∅).2 := begun.grown
  have filled := fillAll_follows formed refused relocate (before.get index).nodes recent
    (create_adds before ∅).present (begun.create ∅)
  rw [get_create_self, ← Frontier.gather_eq_sequence] at filled
  refine .after (create_steps before ∅) (.after (read_steps _ index) ?_)
  rw [get_create_of_lt before ∅ present, ← bind_pure (Frontier.gather _ _)]
  refine filled.bind ?_
  intro after found _ there holding
  exact .pure there ⟨holding, recent⟩

/-- Every axis leads to a collection of the nodes there. -/
theorem relocate_follows (begun : old.Extends before) (setting : Setting Node Leaf Failure)
    (axis : Axis) {index : Nat} (present : index < before.frontiers.size) :
    Follows before old.Extends (axis.relocate setting (before.get index))
      (relocate refused setting axis index) Holding := by
  have handed (find : Node → Run Node Leaf Failure (List Node)) :
      Follows before old.Extends ((before.get index).gather find)
        (do handOut (← Handler.gather refused find index)) Holding := by
    rw [← bind_pure (Frontier.gather _ _)]
    refine (gather_follows formed refused begun find present).bind ?_
    rintro after found buffer there ⟨holding, recent⟩
    have hands : Hands old shared after (after.get buffer)
        (if (after.get buffer).isEmpty then shared else buffer) :=
      .handOut (formed.of_extends there) holding.present (.inr (.inr recent))
    exact .of_steps (handOut_steps after buffer) there (holding.content ▸ hands.toHolding)
  cases axis with
  | children | descendants | allDescendants | siblings | parent | ancestors => exact handed _
  | neighbours =>
      exact (gather_follows formed refused begun _ present).mono (fun _ there => there)
        fun _ _ _ _ gathered => gathered.1

/-- Moving on looks at no collection but the one arrived at. -/
theorem deepen_follows {relocation : Program Node Leaf Failure}
    {relocator : Handler Node Leaf Failure}
    (relocates : ∀ before, old.Extends before → ∀ index < before.frontiers.size,
      Follows before old.Extends (relocation (before.get index)) (relocator index) Holding)
    (again : Bool) (accepts : Node → Run Node Leaf Failure Bool) (moves : Nat)
    (begun : old.Extends before) {index : Nat} (present : index < before.frontiers.size) :
    Follows before old.Extends ((before.get index).deepen relocation again accepts moves)
      (deepen relocator again accepts moves index) (Hands old shared) := by
  induction moves generalizing before index with
  | zero => exact .throw _ begun
  | succ moves ih =>
      rw [Frontier.deepen, deepen]
      refine (relocates before begun index present).bind ?_
      rintro arrival _ arrived there ⟨here, rfl⟩
      refine .after (read_steps arrival arrived) ?_
      split
      · exact .pure there (.nothing (formed.of_extends there))
      · -- Filtering keeps the collection arrived at, from which the next move starts.
        have filters := filter_follows (formed.of_extends there) (.refl arrival) arrived accepts
        refine filters.bind_of_tolerated (fun _ grown => there.trans grown) ?_
        intro filtered found candidates grown hands
        refine .after (read_steps filtered candidates) ?_
        rw [hands.content]
        split
        · rw [← grown.kept arrived here]
          exact ih (there.trans grown) (Nat.lt_of_lt_of_le here grown.grown)
        · exact .pure (there.trans grown) (hands.of_extends there)

/-- A step makes new collections only. -/
theorem ofStep_follows (begun : old.Extends before) (setting : Setting Node Leaf Failure)
    (step : Predicate Leaf) {index : Nat} (present : index < before.frontiers.size) :
    Follows before old.Extends (step.step setting (before.get index))
      (ofStep refused setting step index) (Hands old shared) := by
  cases step with
  | traversal axis inner =>
      exact deepen_follows formed (fun before begun index present =>
        relocate_follows formed refused begun setting axis present) axis.deepens _ _ begun present
  | _ => exact filter_follows formed begun index _

/-- Each step of a simple path starts from a collection that none but the navigation knows. -/
theorem runSteps_follows (begun : old.Extends before) (setting : Setting Node Leaf Failure)
    (offset : Nat) (steps : List (Option (Predicate Leaf))) {current : Nat}
    (present : current < before.frontiers.size)
    (apart : current = shared ∨ old.frontiers.size ≤ current) :
    Follows before old.Extends (Program.runSteps setting offset steps (before.get current))
      (runSteps refused setting offset steps current) (Hands old shared) := by
  induction steps generalizing before offset current with
  | nil =>
      rw [Program.runSteps, runSteps]
      exact .of_steps (handOut_steps before current) begun
        (.handOut (formed.of_extends begun) present (apart.imp_right .inr))
  | cons step? rest ih =>
      cases step? with
      | none =>
          rw [Program.runSteps, runSteps]
          refine .after (read_steps before current) ?_
          split
          · exact .pure begun (.nothing (formed.of_extends begun))
          · exact .throw _ begun
      | some step =>
          rw [Program.runSteps, runSteps]
          refine .after (read_steps before current) ?_
          split
          · exact .pure begun (.nothing (formed.of_extends begun))
          · refine (ofStep_follows formed refused begun setting step present).bind ?_
            intro after found handed there hands
            have continues := ih there (offset + 1) hands.present hands.fresh
            rw [hands.content] at continues
            refine .ofRun_bind (setting.labelOf step) there fun label => ?_
            refine .after (read_steps after handed) ?_
            rw [hands.content]
            refine .ofRun_bind (Run.send setting.sink _) there fun _ => ?_
            dsimp only
            split
            · exact .ofRun_bind (Run.send setting.sink .abort) there fun _ => continues
            · exact continues

theorem simple_follows (begun : old.Extends before) (setting : Setting Node Leaf Failure)
    (steps : List (Option (Predicate Leaf))) (start : Nat) :
    Follows before old.Extends (Program.simple setting steps (before.get start))
      (simple refused setting steps start) (Hands old shared) := by
  refine .after (read_steps before start) ?_
  rw [Program.simple]
  split
  · exact .pure begun (.nothing (formed.of_extends begun))
  · refine .after (create_steps before _) ?_
    have runs := runSteps_follows formed refused (begun.create (before.get start)) setting 0 steps
      (create_adds before _).present (.inr begun.grown)
    rw [get_create_self] at runs
    exact runs

end Steps

/-- A handler that follows a program from every collection there is, changes none of them and hands
out the one that it started from or a new one. -/
def Handles (program : Program Node Leaf Failure) (handler : Handler Node Leaf Failure) : Prop :=
  ∀ before : Collections Node, before.WellFormed → ∀ start < before.frontiers.size,
    Follows before before.Extends (program (before.get start)) (handler start)
      (Hands before start)

section Composites

variable {programs : List (Program Node Leaf Failure)} {handlers : List (Handler Node Leaf Failure)}

include formed in
/-- A buffer that none of the old collections is takes in what each delegate hands out. -/
theorem collect_follows (parts : List.Forall₂ Handles programs handlers)
    (begun : old.Extends before) {start buffer : Nat} (known : start < old.frontiers.size)
    (recent : old.frontiers.size ≤ buffer) (present : buffer < before.frontiers.size) :
    Follows before old.Extends
      (Program.collect programs (before.get start) (before.get buffer))
      (collect refused handlers start buffer) fun after found _ => Holding after found buffer := by
  have owned : buffer ≠ shared := Nat.ne_of_gt (Nat.lt_of_lt_of_le formed.present recent)
  have apart : buffer ≠ start := Nat.ne_of_gt (Nat.lt_of_lt_of_le known recent)
  induction parts generalizing before with
  | nil => exact .pure begun ⟨present, rfl⟩
  | @cons program handler programs handlers handles _ ih =>
      have reached : start < before.frontiers.size := Nat.lt_of_lt_of_le known begun.grown
      rw [Program.collect, collect, List.forM, bind_assoc]
      refine (handles before (formed.of_extends begun) start reached).bind_of_tolerated
        (fun _ grown => begun.trans grown) ?_
      intro after result handed grown hands
      have here : buffer < after.frontiers.size := Nat.lt_of_lt_of_le present grown.grown
      refine .after (fill_steps after refused (.collection handed) owned) ?_
      rw [Collections.listed, hands.content, grown.kept buffer present]
      have later := ih ((begun.trans grown).put recent
        ((before.get buffer).insertAll result.nodes)) (by
          rw [size_put]
          exact here)
      rw [get_put_self after _ here, get_put_of_ne after _ apart, grown.kept start reached] at later
      exact later

theorem union_handles (parts : List.Forall₂ Handles programs handlers) :
    Handles (Program.union programs) (union refused handlers) := by
  intro before formed start present
  refine .after (read_steps before start) ?_
  rw [Program.union]
  split
  · exact .pure (.refl before) (.nothing formed)
  · refine .after (create_steps before ∅) ?_
    have recent : before.frontiers.size ≤ (before.create ∅).2 := Nat.le_refl _
    have collects := collect_follows formed refused parts ((Extends.refl before).create ∅) present
      recent (create_adds before ∅).present
    rw [get_create_of_lt before ∅ present, get_create_self] at collects
    rw [← bind_pure (Program.collect _ _ _)]
    refine collects.bind ?_
    intro after found _ there holding
    refine .of_steps (handOut_steps after _) there ?_
    rw [← holding.content]
    exact .handOut (formed.of_extends there) holding.present (.inr (.inr recent))

include formed in
/-- As long as a buffer has nodes, it is drained of what each handler hands out. What is handed out
is never the buffer itself, so draining never fails. -/
theorem withdraw_follows (sink : Sink Failure) (parts : List.Forall₂ Handles programs handlers)
    (begun : old.Extends before) {start buffer : Nat} (known : start < old.frontiers.size)
    (recent : old.frontiers.size ≤ buffer) (present : buffer < before.frontiers.size)
    (some : ¬(before.get buffer).isEmpty = true) :
    Follows before old.Extends
      (Program.withdraw sink programs (before.get start) (before.get buffer))
      (withdraw refused sink start buffer handlers) (Hands old start) := by
  have owned : shared ≠ buffer := Nat.ne_of_lt (Nat.lt_of_lt_of_le formed.present recent)
  have apart : start ≠ buffer := Nat.ne_of_lt (Nat.lt_of_lt_of_le known recent)
  induction parts generalizing before with
  | nil =>
      exact .pure begun ⟨⟨present, rfl⟩, fun none => absurd (Frontier.isEmpty_iff.mpr none) some,
        .inr (.inr recent)⟩
  | @cons program handler programs handlers handles _ ih =>
      have reached : start < before.frontiers.size := Nat.lt_of_lt_of_le known begun.grown
      rw [Program.withdraw, withdraw]
      refine .ofRun_bind (Run.send sink .beginExclusion) begun fun _ => ?_
      refine (handles before (formed.of_extends begun) start reached).bind_of_tolerated
        (fun _ grown => begun.trans grown) ?_
      intro after result handed grown hands
      have here : buffer < after.frontiers.size := Nat.lt_of_lt_of_le present grown.grown
      have other : handed ≠ buffer := by
        rcases hands.apart with isShared | isStart | isNew
        · exact isShared ▸ owned
        · exact isStart ▸ apart
        · exact Nat.ne_of_gt (Nat.lt_of_lt_of_le present isNew)
      refine .after (drain_steps after refused other) ?_
      rw [hands.content, grown.kept buffer present]
      have begun := (begun.trans grown).put recent ((before.get buffer).removeAll result.nodes)
      refine .ofRun_bind (Run.send sink .endExclusion) begun fun _ => ?_
      refine .after (read_steps _ buffer) ?_
      rw [get_put_self after _ here]
      dsimp only
      split
      · exact .pure begun (.nothing (formed.of_extends begun))
      · next left =>
        have later := ih begun (by
            rw [size_put]
            exact here) (by rwa [get_put_self after _ here])
        rw [get_put_self after _ here, get_put_of_ne after _ apart.symm,
          grown.kept start reached] at later
        exact later

theorem exclusion_handles (sink : Sink Failure) {base : Program Node Leaf Failure}
    {baseHandler : Handler Node Leaf Failure} (handles : Handles base baseHandler)
    (parts : List.Forall₂ Handles programs handlers) :
    Handles (Program.exclusion sink base programs)
      (exclusion refused sink baseHandler handlers) := by
  intro before formed start present
  refine .after (read_steps before start) ?_
  rw [Program.exclusion]
  split
  · exact .pure (.refl before) (.nothing formed)
  · refine (handles before formed start present).bind ?_
    intro after found handed grown hands
    refine .after (read_steps after handed) ?_
    rw [hands.content]
    split
    · exact .pure grown (.nothing (formed.of_extends grown))
    · next some =>
      refine .after (create_steps after found) ?_
      have recent : before.frontiers.size ≤ (after.create found).2 := grown.grown
      have withdraws := withdraw_follows formed refused sink parts (grown.create found) present
        recent (create_adds after found).present (by rwa [get_create_self])
      rw [get_create_self, get_create_of_lt after found (Nat.lt_of_lt_of_le present grown.grown),
        grown.kept start present] at withdraws
      exact withdraws

include formed in
theorem chain_follows (parts : List.Forall₂ Handles programs handlers)
    (begun : old.Extends before) {start current : Nat} (present : current < before.frontiers.size)
    (apart : current = shared ∨ current = start ∨ old.frontiers.size ≤ current) :
    Follows before old.Extends (Program.chain programs (before.get current))
      (chain handlers current) (Hands old start) := by
  induction parts generalizing before current with
  | nil =>
      rw [Program.chain, chain]
      exact .of_steps (handOut_steps before current) begun
        (.handOut (formed.of_extends begun) present apart)
  | @cons program handler programs handlers handles _ ih =>
      rw [Program.chain, chain]
      refine .after (read_steps before current) ?_
      split
      · exact .pure begun (.nothing (formed.of_extends begun))
      · refine (handles before (formed.of_extends begun) current present).bind_of_tolerated
          (fun _ grown => begun.trans grown) ?_
        intro after found handed grown hands
        have later := ih (begun.trans grown) hands.present (hands.apart.elim .inl fun other =>
          other.elim (fun same => same ▸ apart) fun isNew =>
            .inr (.inr (Nat.le_trans begun.grown isNew)))
        rw [hands.content] at later
        exact later

theorem chain_handles (parts : List.Forall₂ Handles programs handlers) :
    Handles (Program.chain programs) (chain handlers) :=
  fun before formed _ present =>
    chain_follows formed parts (.refl before) present (.inr (.inl rfl))

theorem entitled_handles (sink : Sink Failure) (title? : Option String)
    {program : Program Node Leaf Failure} {handler : Handler Node Leaf Failure}
    (handles : Handles program handler) :
    Handles (Program.entitled sink title? program) (entitled sink title? handler) := by
  cases title? with
  | none => exact handles
  | some title =>
      exact fun before formed start present =>
        .traced title (.refl before) (handles before formed start present)

end Composites

section Stored

variable (setting : Setting Node Leaf Failure)

theorem simple_handles (steps : List (Option (Predicate Leaf))) :
    Handles (Program.simple setting steps) (simple refused setting steps) :=
  fun before formed start _ =>
    (simple_follows formed refused (.refl before) setting steps start).mono
      (fun _ there => there) fun _ _ _ _ hands =>
        ⟨hands.toHolding, hands.shared_of_empty, hands.fresh.imp_right .inr⟩

theorem ofPart_handles {ofPath : Nat → Program Node Leaf Failure}
    {pathHandler : Nat → Handler Node Leaf Failure}
    (handles : ∀ path, Handles (ofPath path) (pathHandler path)) (part : PathPart Leaf) :
    Handles (part.program setting ofPath) (ofPart setting pathHandler part) := by
  cases part with
  | path index => exact handles index
  | stray operand? => exact fun before _ _ _ => .throw _ (.refl before)

theorem ofShape_handles {partProgram : PathPart Leaf → Program Node Leaf Failure}
    {partHandler : PathPart Leaf → Handler Node Leaf Failure}
    (handles : ∀ part, Handles (partProgram part) (partHandler part)) (shape : PathShape Leaf) :
    Handles (shape.program setting partProgram) (ofShape refused setting partHandler shape) := by
  have all (parts : List (PathPart Leaf)) :
      List.Forall₂ Handles (parts.map partProgram) (parts.map partHandler) := by
    rw [List.forall₂_map_left_iff, List.forall₂_map_right_iff, List.forall₂_same]
    exact fun part _ => handles part
  cases shape with
  | simple steps => exact simple_handles refused setting steps
  | union delegates => exact union_handles refused (all delegates)
  | exclusion base excluded =>
      exact exclusion_handles refused setting.sink (handles base) (all excluded)
  | chain links => exact chain_handles (all links)

/-- Path objects of every shape, those that contain themselves as well, handle collections. -/
theorem ofStored_handles (store : PathStore Leaf) (depth path : Nat) :
    Handles (store.program setting depth path) (ofStored refused setting store depth path) := by
  induction depth generalizing path with
  | zero => exact fun before _ _ _ => .throw _ (.refl before)
  | succ depth ih =>
      exact entitled_handles setting.sink (store.title? path)
        (ofShape_handles refused setting (ofPart_handles setting ih) (store.shape path))

end Stored

section Navigation

variable {program : Program Node Leaf Failure} {handler : Handler Node Leaf Failure}

/-- A navigation starts from a copy, so that what it hands out is none of the old collections. -/
theorem navigate_follows (handles : Handles program handler) (formed : old.WellFormed)
    (source : NodeSource Node) :
    Follows old old.Extends (program (Frontier.ofList (old.listed source)))
      (navigate handler source) (Hands old shared) := by
  have copied := (Extends.refl old).create (Frontier.ofList (old.listed source))
  refine .after (listed_steps old source) (.after (create_steps old _) ?_)
  have handled := handles _ (formed.of_extends copied) _ (create_adds old _).present
  rw [get_create_self] at handled
  refine handled.mono (fun _ grown => copied.trans grown) fun after found handed _ hands => ?_
  refine ⟨hands.toHolding, hands.shared_of_empty, hands.apart.imp_right fun other => .inr ?_⟩
  rcases other with isCopy | isNew
  · exact Nat.le_of_eq isCopy.symm
  · exact Nat.le_trans copied.grown isNew

/-- What a navigation on objects hands out beside what one on values does: a collection of the same
nodes, which is the shared one just if it has no node, and otherwise none of the old ones. -/
structure Agrees (old after : Collections Node) (direct : Collections Node × Nat)
    (handed : Nat) : Prop where
  present : handed < after.frontiers.size
  content : after.get handed = direct.1.get direct.2
  shared_iff_shared : handed = shared ↔ direct.2 = shared
  shared_iff_empty : handed = shared ↔ after.get handed = ∅
  fresh : handed = shared ∨ old.frontiers.size ≤ handed

/-- A navigation that handles collections as objects does and finds what one on values does. -/
theorem navigate_agrees (handles : Handles program handler) (formed : old.WellFormed)
    (source : NodeSource Node) :
    Follows old old.Extends (old.navigate program source) (navigate handler source)
      (Agrees old) := by
  rw [Collections.navigate, ← bind_pure (navigate handler source)]
  refine (navigate_follows handles formed source).bind fun after found handed grown hands => ?_
  have empty_iff : handed = shared ↔ found = ∅ := by
    refine ⟨fun isShared => ?_, hands.shared_of_empty⟩
    rw [← hands.content, isShared, (formed.of_extends grown).nothing]
  refine .pure grown ⟨hands.present, ?_, ?_, ?_, hands.fresh⟩
  · rw [hands.content, get_result formed.nothing]
  · rw [empty_iff, result_shared_iff formed.present]
  · rw [empty_iff, hands.content]

end Navigation

end TreeQuery.Handler
