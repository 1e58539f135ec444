import TreeQuery.Proofs.Collections.Sharing
import TreeQuery.Proofs.Session.Reached

/-! # Sessions share nothing

Whatever commands a session has run, its shared empty collection is empty, and its navigations hand
out collections that nothing else knows (`TreeQuery.Session.shares_nothing`). Only adding to a
collection and taking out of it change a collection that was there before, and adding to the shared
one is refused.
-/

namespace TreeQuery.Session

variable {α β : Type}

/-- An action that leaves the whole session as it is. -/
def Reads (action : Act α) : Prop :=
  ∀ session, (action.perform session).2 = session

namespace Reads

theorem pure (value : α) : Reads (Pure.pure value : Act α) := fun _ => rfl

theorem throw (fault : Fault Failure) : Reads (throw fault : Act α) := fun _ => rfl

theorem bind {first : Act α} {next : α → Act β} (reads : Reads first)
    (goes : ∀ value, Reads (next value)) : Reads (first >>= next) := by
  intro session
  have same := reads session
  rw [perform_bind]
  generalize first.perform session = done at same
  obtain ⟨_ | value, after⟩ := done
  · exact same
  · exact (goes value after).trans same

theorem get_bind {next : Session → Act β} (goes : ∀ session, Reads (next session)) :
    Reads (get >>= next) := by
  intro session
  rw [perform_get_bind]
  exact goes session session

theorem mapM {elements : List α} {action : α → Act β} (reads : ∀ element, Reads (action element)) :
    Reads (elements.mapM action) := by
  induction elements with
  | nil =>
      rw [List.mapM_nil]
      exact pure []
  | cons element rest ih =>
      rw [List.mapM_cons]
      exact (reads element).bind fun _ => ih.bind fun _ => pure _

/-- After an action that was only read off the session, it goes on with the same session. -/
theorem perform_bind_of_ok {first : Act α} {next : α → Act β} {session : Session} {value : α}
    (reads : Reads first) (ended : (first.perform session).1 = .ok value) :
    (first >>= next).perform session = (next value).perform session := by
  have done : first.perform session = (.ok value, session) := Prod.ext ended (reads session)
  rw [perform_bind, done]

end Reads

theorem node_reads (tag? : Option String) : Reads (node tag?) := by
  cases tag? with
  | none => exact .pure _
  | some tag =>
      refine .get_bind fun session => ?_
      split
      · exact .pure _
      · exact .throw _

theorem register_reads (name : String) : Reads (register name) := by
  refine .get_bind fun session => ?_
  split
  · exact .pure _
  · exact .throw _

theorem sourceOf_reads (operand : Operand) : Reads (sourceOf operand) := by
  rw [sourceOf.eq_def]
  split
  · exact .pure _
  · exact .pure _
  · dsimp only
    split
    · exact .pure _
    · exact .get_bind fun _ => .throw _

theorem requiredSource_reads (nodes : NodesExpr) : Reads (requiredSource nodes) := by
  have evaluates : Reads (evalSource nodes) := by
    cases nodes with
    | absent => exact .pure _
    | tags tags => exact (Reads.mapM node_reads).bind fun _ => .pure _
    | register name => exact (register_reads name).bind sourceOf_reads
  refine evaluates.bind fun source? => ?_
  split
  · exact .pure _
  · exact .throw _

section Observations

/-- The collection under a name, if there is one. -/
def collectionIn (session : Session) (name : String) : Option Nat :=
  match session.registers.lookup name with
  | some (.object (.collection index)) => some index
  | _ => none

theorem collectionIn_eq_some_iff {session : Session} {name : String} {index : Nat} :
    session.collectionIn name = some index ↔
      session.registers.lookup name = some (.object (.collection index)) := by
  rw [collectionIn]
  split
  · next other found =>
    rw [found]
    simp
  · next other =>
    exact iff_of_false nofun (other index)

/-- Whether a navigation ended on something found. -/
def hasFound : Except (Fault Failure) Answer → Bool
  | .ok (.navigation navigation) => navigation.outcome.isOk
  | _ => false

/-- Whether an argument hands out some node. -/
def handsNodes (session : Session) (nodes : NodesExpr) : Bool :=
  match ((requiredSource nodes).perform session).1 with
  | .ok source => !(session.collections.listed source).isEmpty
  | .error _ => false

end Observations

section Refusal

variable {session : Session} {name : String}

/-- A command of a collection runs on the collection in the register. -/
theorem perform_collection {index : Nat}
    (held : session.collectionIn name = some index)
    (command : CollectionCommand) :
    (execute (.collection name command)).perform session =
      (executeCollection index command).perform session := by
  have found : ((register name).perform session).1 = .ok (.object (.collection index)) := by
    rw [register, perform_get_bind, collectionIn_eq_some_iff.mp held]
    rfl
  rw [execute, (register_reads name).perform_bind_of_ok found]
  rfl

/-- Adding a node to the shared empty collection is refused. -/
theorem add_shared {tag? : Option String}
    (held : session.collectionIn name = some Collections.shared)
    (known : ((node tag?).perform session).1.isOk = true) :
    (execute (.collection name (.add tag?))).perform session =
      (.error (.raised (.collection .immutable)), session) := by
  cases ended : ((node tag?).perform session).1 with
  | error fault =>
      rw [ended] at known
      cases known
  | ok value =>
      rw [perform_collection held, executeCollection, (node_reads tag?).perform_bind_of_ok ended]
      rfl

/-- Adding nodes to the shared empty collection is refused as soon as there is one. -/
theorem addAll_shared {nodes : NodesExpr}
    (held : session.collectionIn name = some Collections.shared)
    (more : session.handsNodes nodes = true) :
    (execute (.collection name (.addAll nodes))).perform session =
      (.error (.raised (.collection .immutable)), session) := by
  rw [handsNodes] at more
  cases ended : ((requiredSource nodes).perform session).1 with
  | error fault =>
      rw [ended] at more
      cases more
  | ok source =>
      rw [ended] at more
      have refused : session.collections.addAll Collections.shared source = .error .immutable := by
        rw [Collections.addAll, if_pos rfl, if_neg (by simpa using more)]
      have added : (addAll Collections.shared source).perform session =
          (.error (.raised (.collection .immutable)), session) := by
        change Act.perform (changing (session.collections.addAll Collections.shared source))
          session = _
        rw [refused]
        rfl
      rw [perform_collection held, executeCollection,
        (requiredSource_reads nodes).perform_bind_of_ok ended, map_eq_pure_bind, perform_bind,
        added]

end Refusal

/-- What a session keeps apart. -/
structure SharesNothing (session : Session) : Prop where
  /-- The shared empty collection has no node. -/
  shared_empty : session.collections.get Collections.shared = ∅
  /-- Registers hold none but the collections there are. -/
  registered : ∀ name index, session.collectionIn name = some index →
    index < session.collections.frontiers.size
  /-- An instruction that adds to no collection and takes out of none leaves all collections with
  the nodes they had, even if it fails. -/
  keeps : ∀ instruction : Instruction, instruction.changes = false →
    session.collections.Extends ((execute instruction).perform session).2.collections
  /-- A navigation that does not fail puts the shared collection under a name if it found no node,
  and otherwise a collection that was not there before. -/
  hands_out : ∀ path start name adapter config,
    let ended :=
      (execute (.navigate path start (.collection (some name)) adapter config)).perform session
    hasFound ended.1 = true → ∃ index, ended.2.collectionIn name = some index ∧
      (index = Collections.shared ↔ ended.2.collections.get index = ∅) ∧
      (index = Collections.shared ∨ session.collections.frontiers.size ≤ index)
  /-- The engine may handle collections as objects on the way: it does and finds the same, it hands
  out the same, and it changes no collection that was there before, even if it fails. -/
  as_objects : ∀ setting depth path source,
    Handling.Follows session.collections session.collections.Extends
      (session.collections.navigate (session.paths.program setting depth path) source)
      (Handler.navigate (Handler.ofStored Failure.collection setting session.paths depth path)
        source)
      (Handler.Agrees session.collections)
  /-- Adding a node to the shared collection is refused and changes nothing. -/
  add_refused : ∀ name tag?, session.collectionIn name = some Collections.shared →
    ((node tag?).perform session).1.isOk = true →
    (execute (.collection name (.add tag?))).perform session =
      (.error (.raised (.collection .immutable)), session)
  /-- Adding nodes to the shared collection is refused and changes nothing, if there are any. -/
  addAll_refused : ∀ name nodes, session.collectionIn name = some Collections.shared →
    session.handsNodes nodes = true →
    (execute (.collection name (.addAll nodes))).perform session =
      (.error (.raised (.collection .immutable)), session)

/-- What a navigation under a name leaves, in a session that holds something. -/
theorem hands_out_of_holds {held : Holdings} {session : Session} (holding : session.Holds held)
    (path : PathExpr) (start : StartExpr) (name : String) (adapter : AdapterExpr)
    (config : ConfigExpr)
    (found : hasFound ((execute (.navigate path start (.collection (some name)) adapter
      config)).perform session).1 = true) :
    ∃ index, ((execute (.navigate path start (.collection (some name)) adapter config)).perform
        session).2.collectionIn name = some index ∧
      (index = Collections.shared ↔ ((execute (.navigate path start (.collection (some name))
        adapter config)).perform session).2.collections.get index = ∅) ∧
      (index = Collections.shared ∨ session.collections.frontiers.size ≤ index) := by
  obtain ⟨later, kept, _, done⟩ :=
    navigate_leads path start (.collection (some name)) adapter config session holding
  rw [execute] at found ⊢
  generalize (navigate path start (.collection (some name)) adapter config).perform session = ended
    at kept done found
  obtain ⟨outcome, after⟩ := ended
  dsimp only at kept done found ⊢
  rw [hasFound.eq_def] at found
  split at found
  · next outcome navigation =>
    cases result : navigation.outcome with
    | error fault =>
        rw [result] at found
        cases found
    | ok view =>
        obtain ⟨index, registered, isEmpty, isNew⟩ := done navigation view name rfl result rfl
        refine ⟨index, ?_, ?_, ?_⟩
        · rw [collectionIn_eq_some_iff, kept.registers, registered]
        · rw [kept.collections, isEmpty]
        · rw [holding.collections]
          exact isNew
  · cases found

/-- **Nothing is shared.** In every session that commands reach, the shared empty collection is
empty and cannot be added to, a navigation hands it out just if it found no node, and otherwise
hands out a new collection, and queries leave every collection that was there before as it was. -/
theorem shares_nothing {session : Session} (reached : Reached session) :
    session.SharesNothing := by
  obtain ⟨held, holding⟩ := reached.holds
  have formed : session.collections.WellFormed := holding.collections ▸ held.formed
  exact
    { shared_empty := formed.nothing
      registered := fun name index found => by
        rw [collectionIn_eq_some_iff, holding.registers] at found
        rw [holding.collections]
        exact held.registered name _ found index rfl
      keeps := fun instruction harmless => by
        obtain ⟨later, kept, grown, _⟩ := execute_extends harmless session holding
        rw [holding.collections, kept.collections]
        exact grown
      hands_out := hands_out_of_holds holding
      as_objects := fun setting depth path source =>
        Handler.navigate_agrees (Handler.ofStored_handles _ setting session.paths depth path) formed
          source
      add_refused := fun _ _ => add_shared
      addAll_refused := fun _ _ => addAll_shared }

section Stroll

/-- A session with a node, a collection of it, and a path that stays there and one that leads away
from it. -/
def stroll : Session :=
  ((runAll [
    .instruction (.plant "root" (.text "root") .null none [] []),
    .instruction (.collect "here" (.tags [some "root"])),
    .instruction (.path "stay" (.simple [.any])),
    .instruction (.path "leave" (.simple [.traversal .children .any]))]).run {}).2

/-- What comes of navigating a path from the collection in that session. -/
def strolled (path : String) : Except (Fault Failure) Answer × Session :=
  (execute (.navigate (.register path) (.nodes (.register "here")) (.collection (some "there"))
    .absent .absent)).perform stroll

/-- Staying hands out a third collection beside the shared one and the one at the start, leaving
hands out the shared one, and this takes in no node, neither alone nor as one of several. -/
theorem stroll_shares_nothing :
    Reached stroll ∧ stroll.SharesNothing ∧
      (hasFound (strolled "stay").1 = true ∧ (strolled "stay").2.collectionIn "there" = some 2) ∧
      (hasFound (strolled "leave").1 = true ∧
        (strolled "leave").2.collectionIn "there" = some Collections.shared) ∧
      (execute (.collection "EMPTY" (.add (some "root")))).perform stroll =
        (.error (.raised (.collection .immutable)), stroll) ∧
      (execute (.collection "EMPTY" (.addAll (.register "here")))).perform stroll =
        (.error (.raised (.collection .immutable)), stroll) := by
  have reached : Reached stroll := Reached.start.runAll _
  have shares := shares_nothing reached
  refine ⟨reached, shares, ⟨?_, ?_⟩, ⟨?_, ?_⟩, shares.add_refused _ _ ?_ ?_,
    shares.addAll_refused _ _ ?_ ?_⟩
  all_goals decide +kernel

end Stroll

end TreeQuery.Session
