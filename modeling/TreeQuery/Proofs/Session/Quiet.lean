import TreeQuery.Proofs.Collections.Growth
import TreeQuery.Proofs.Run.Yield
import TreeQuery.Session.Answer
import TreeQuery.Session.Evaluation

/-! # Actions that leave collections alone

Most of what a session does changes neither its registers nor its collections, whether it fails or
not: it makes nodes, predicates, paths and configurations, and what runs in the engine leaves lines
and tallies. Such actions are quiet, and so is what is put together from them
(`TreeQuery.Session.Quiet.bind`). A collection that a quiet action hands out is one that was there.
-/

namespace TreeQuery

variable {α β : Type}

/-- What an action of a session ends with and the session that it leaves. -/
def Act.perform (action : Act α) (before : Session) : Except (Fault Failure) α × Session :=
  (action.run).run before

/-- An operand that is none but one of the collections there are, if it is a collection. -/
def Operand.Within (collections : Collections Value) (operand : Operand) : Prop :=
  ∀ index, operand = .object (.collection index) → index < collections.frontiers.size

/-- An operand that is no collection is among the collections whatever they are. -/
theorem Operand.within_of_other {collections : Collections Value} {operand : Operand}
    (other : ∀ index, operand ≠ .object (.collection index)) : operand.Within collections :=
  fun index same => absurd same (other index)

namespace Session

/-- Registers and the collections that they hold, of which the shared empty one is empty. -/
structure Holdings where
  registers : List (String × Operand)
  collections : Collections Value
  formed : collections.WellFormed
  registered : ∀ name operand, registers.lookup name = some operand → operand.Within collections

/-- A session with certain registers and collections. -/
structure Holds (session : Session) (held : Holdings) : Prop where
  registers : session.registers = held.registers
  collections : session.collections = held.collections

/-- Registers and collections are as they were. -/
structure Unchanged (before after : Session) : Prop where
  registers : after.registers = before.registers
  collections : after.collections = before.collections

variable {held : Holdings}

/-- What a session holds is still held where nothing of it has changed. -/
theorem Holds.of_unchanged {before after : Session} (holds : before.Holds held)
    (unchanged : Unchanged before after) : after.Holds held where
  registers := unchanged.registers.trans holds.registers
  collections := unchanged.collections.trans holds.collections

/-- An action that leaves registers and collections alone, and ends as expected unless it fails. -/
def Quiet (held : Holdings) (action : Act α) (expected : α → Prop) : Prop :=
  ∀ before : Session, before.Holds held → (action.perform before).2.Holds held ∧
    match (action.perform before).1 with
    | .ok value => expected value
    | .error _ => True

/-- What is expected of an action of which nothing is known. -/
abbrev anything : α → Prop := fun _ => True

/-- An action goes on from the session that its first part left, unless that part failed. -/
theorem perform_bind (first : Act α) (next : α → Act β) (before : Session) :
    (first >>= next).perform before = match first.perform before with
      | (.ok value, after) => (next value).perform after
      | (.error fault, after) => (.error fault, after) := by
  change (match first.run.run before with
    | (outcome, after) => (ExceptT.bindCont next outcome) after) = _
  unfold Act.perform
  rcases first.run.run before with ⟨_ | _, _⟩ <;> rfl

/-- An action may go on from what the session is. -/
theorem perform_get_bind (next : Session → Act β) (before : Session) :
    (get >>= next).perform before = (next before).perform before :=
  rfl

namespace Quiet

variable {expected : α → Prop} {desired : β → Prop}

theorem pure {value : α} (holds : expected value) :
    Quiet held (Pure.pure value : Act α) expected :=
  fun _ holding => ⟨holding, holds⟩

/-- A failure leaves the session as it is. -/
theorem throw (fault : Fault Failure) : Quiet held (throw fault : Act α) expected :=
  fun _ holding => ⟨holding, trivial⟩

theorem fail (failure : Failure) : Quiet held (Session.fail failure : Act α) expected :=
  throw _

/-- Less may be expected of a quiet action. -/
theorem mono {action : Act α} {weaker : α → Prop} (quiet : Quiet held action expected)
    (weaken : ∀ value, expected value → weaker value) : Quiet held action weaker := by
  intro before holding
  obtain ⟨kept, ended⟩ := quiet before holding
  refine ⟨kept, ?_⟩
  cases same : (action.perform before).1 with
  | ok value =>
      rw [same] at ended
      exact weaken value ended
  | error fault => trivial

/-- Quiet actions in a row are quiet, the later one for every value that the earlier one may end
with. -/
theorem bind {first : Act α} {next : α → Act β} (quiet : Quiet held first expected)
    (goes : ∀ value, expected value → Quiet held (next value) desired) :
    Quiet held (first >>= next) desired := by
  intro before holding
  obtain ⟨kept, ended⟩ := quiet before holding
  rw [perform_bind]
  generalize first.perform before = done at kept ended
  obtain ⟨_ | value, after⟩ := done
  · exact ⟨kept, trivial⟩
  · exact goes value ended after kept

/-- A value at hand needs no action. -/
theorem pure_bind {value : α} {next : α → Act β} (quiet : Quiet held (next value) desired) :
    Quiet held (Pure.pure value >>= next) desired := by
  rwa [LawfulMonad.pure_bind]

/-- A session is read as what holds the holdings. -/
theorem get_bind {next : Session → Act β}
    (goes : ∀ session, session.Holds held → Quiet held (next session) desired) :
    Quiet held (get >>= next) desired := by
  intro before holding
  rw [perform_get_bind]
  exact goes before holding before holding

/-- What is read off the session is nothing to its registers and collections. -/
theorem read (view : Session → α) :
    Quiet held (do return view (← get) : Act α) anything :=
  get_bind fun _ _ => pure trivial

/-- Changing the value of a quiet action is quiet. -/
theorem map {action : Act α} (change : α → β) (quiet : Quiet held action expected)
    (holds : ∀ value, expected value → desired (change value)) :
    Quiet held (change <$> action) desired := by
  rw [map_eq_pure_bind]
  exact quiet.bind fun value ended => pure (holds value ended)

/-- A quiet action for each element of a list is quiet, and it may stop at any element. -/
theorem mapM {elements : List α} {action : α → Act β}
    (quiet : ∀ element ∈ elements, Quiet held (action element) anything) :
    Quiet held (elements.mapM action) anything := by
  induction elements with
  | nil =>
      rw [List.mapM_nil]
      exact pure trivial
  | cons element rest ih =>
      rw [List.mapM_cons]
      refine (quiet element List.mem_cons_self).bind fun _ _ => ?_
      exact (ih fun other member => quiet other (.tail _ member)).bind fun _ _ => pure trivial

theorem forM {elements : List α} {action : α → Act PUnit}
    (quiet : ∀ element ∈ elements, Quiet held (action element) anything) :
    Quiet held (elements.forM action) anything := by
  induction elements with
  | nil => exact pure trivial
  | cons element rest ih =>
      rw [List.forM]
      exact (quiet element List.mem_cons_self).bind fun _ _ =>
        ih fun other member => quiet other (.tail _ member)

/-- A quiet action that hands a state on from element to element is quiet over a list. -/
theorem foldlM {elements : List α} {action : β → α → Act β} (start : β)
    (quiet : ∀ state, ∀ element ∈ elements, Quiet held (action state element) anything) :
    Quiet held (elements.foldlM action start) anything := by
  induction elements generalizing start with
  | nil =>
      rw [List.foldlM_nil]
      exact pure trivial
  | cons element rest ih =>
      rw [List.foldlM_cons]
      exact (quiet start element List.mem_cons_self).bind fun state _ =>
        ih state fun state other member => quiet state other (.tail _ member)

/-- What an action does to the rest of the session is of no account. -/
theorem of_perform {action : Act α}
    (unchanged : ∀ before, Unchanged before (action.perform before).2) :
    Quiet held action anything := by
  intro before holding
  refine ⟨holding.of_unchanged (unchanged before), ?_⟩
  split <;> trivial

theorem set {session : Session} (holding : session.Holds held) :
    Quiet held (MonadStateOf.set session : Act PUnit) anything :=
  fun _ _ => ⟨holding, trivial⟩

/-- Changes are quiet as far as registers and collections are not concerned. -/
theorem modify {change : Session → Session}
    (unchanged : ∀ before, Unchanged before (change before)) :
    Quiet held (modify change : Act Unit) anything :=
  of_perform unchanged

end Quiet

section State

variable {α : Type}

theorem lift_quiet (outcome : Except Failure α) : Quiet held (lift outcome) anything := by
  cases outcome with
  | ok value => exact .pure trivial
  | error failure => exact .fail failure

/-- Handing a fault over as a value does not bring back what was done before it. -/
theorem attempt_quiet {action : Act α} {expected : α → Prop}
    (quiet : Quiet held action expected) :
    Quiet held (attempt action) fun outcome => ∀ value, outcome = .ok value → expected value := by
  intro before holding
  obtain ⟨kept, ended⟩ := quiet before holding
  refine ⟨kept, ?_⟩
  rintro value same
  change (action.perform before).1 = .ok value at same
  rw [same] at ended
  exact ended

theorem ofExcept_quiet (outcome : Except (Fault Failure) α) :
    Quiet held (MonadExcept.ofExcept outcome : Act α) anything := by
  cases outcome with
  | ok value => exact .pure trivial
  | error fault => exact .throw fault

theorem node_quiet (tag? : Option String) : Quiet held (node tag?) anything := by
  cases tag? with
  | none => exact .pure trivial
  | some tag =>
      refine .get_bind fun session _ => ?_
      split
      · exact .pure trivial
      · exact .fail _

/-- A tag names a node and is no register. -/
theorem bindTag_quiet (tag : String) (node : Value) : Quiet held (bindTag tag node) anything :=
  .modify fun _ => ⟨rfl, rfl⟩

/-- What is in a register is there. -/
theorem register_quiet (name : String) :
    Quiet held (register name) (Operand.Within held.collections) := by
  refine .get_bind fun session holding => ?_
  rw [holding.registers]
  split
  · next content found => exact .pure (held.registered name content found)
  · exact .fail _

/-- A new identity is taken from a counter. -/
theorem freshIdentity_quiet : Quiet held freshIdentity anything :=
  .of_perform fun _ => ⟨rfl, rfl⟩

theorem newObject_quiet (value : Value) : Quiet held (newObject value) anything :=
  freshIdentity_quiet.bind fun _ _ => .pure trivial

/-- The complaint about an operand names it and changes nothing. -/
theorem lacks_quiet (operand : Operand) (wanted : String) {expected : α → Prop} :
    Quiet held (lacks operand wanted : Act α) expected :=
  .get_bind fun _ _ => .throw _

/-- An operand that is taken for a collection is one of those there are. -/
theorem collectionFor_quiet (wanted : String) {operand : Operand}
    (within : operand.Within held.collections) :
    Quiet held (collectionFor wanted operand) (· < held.collections.frontiers.size) := by
  rw [collectionFor.eq_def]
  split
  · next index => exact .pure (within index rfl)
  · exact lacks_quiet _ _

/-- A path is no collection. -/
theorem pathFor_quiet (wanted : String) (operand : Operand) :
    Quiet held (pathFor wanted operand) fun _ => operand.Within held.collections := by
  rw [pathFor.eq_def]
  split
  · exact .pure (Operand.within_of_other nofun)
  · exact lacks_quiet _ _

theorem contextFor_quiet (wanted : String) (operand : Operand) :
    Quiet held (contextFor wanted operand) anything := by
  rw [contextFor.eq_def]
  split
  · exact .pure trivial
  · exact lacks_quiet _ _

theorem addKeeper_quiet (keeper : LineKeeper) : Quiet held (addKeeper keeper) anything :=
  .of_perform fun _ => ⟨rfl, rfl⟩

/-- The engine leaves lines and tallies only, and ends on what its computation yields. -/
theorem runEngine_quiet (active : Bool) (target : SinkTarget)
    (computation : Run Value LeafTest Failure α) :
    Quiet held (runEngine active target computation) fun result =>
      ∀ value, result.outcome = .ok value → computation.Yields value :=
  fun _ holding => ⟨holding.of_unchanged ⟨rfl, rfl⟩, fun _ ended => ⟨_, _, Prod.ext ended rfl⟩⟩

/-- What runs in the engine leaves the registers alone, and its value is one that the run can yield.
-/
theorem runQuietly_quiet (adapter : Adapter)
    (computation : Setting Value LeafTest Failure → Run Value LeafTest Failure α) :
    Quiet held (runQuietly adapter computation) fun value =>
      ∃ setting, (computation setting).Yields value := by
  refine .get_bind fun session _ => (runEngine_quiet _ _ _).bind fun result ended => ?_
  cases same : result.outcome with
  | ok value => exact .pure ⟨_, ended value same⟩
  | error fault => exact .throw fault

theorem frontierOf_quiet (nodes : List Value) : Quiet held (frontierOf nodes) anything :=
  .get_bind fun _ _ => (ofExcept_quiet _).map _ fun _ _ => trivial

theorem formed_quiet (form : Except LeafTest String) : Quiet held (formed form) anything := by
  cases form with
  | ok text => exact .pure trivial
  | error leaf => exact .get_bind fun _ _ => .fail _

theorem writtenOperand_quiet (operand : Operand) : Quiet held (writtenOperand operand) anything :=
  .get_bind fun _ _ => formed_quiet _

end State

end Session

end TreeQuery
