import TreeQuery.Proofs.Session.Building
import TreeQuery.Proofs.Session.Handing
import TreeQuery.Session.Execute

/-! # Sessions that commands reach

Every instruction leads from what a session holds to something that a session can hold, and one that
changes no collection keeps the nodes of all that there are (`TreeQuery.Session.execute_extends`).
So every session that commands reach has a shared collection without nodes, and registers that hold
none but its collections (`TreeQuery.Session.Reached.holds`).
-/

namespace TreeQuery

/-- Whether a command of a collection changes the collection itself. -/
def CollectionCommand.changes : CollectionCommand → Bool
  | .add _ | .addAll _ | .removeAll _ => true
  | _ => false

/-- Whether an instruction changes a collection that was there before. -/
def Instruction.changes : Instruction → Bool
  | .collection _ command => command.changes
  | _ => false

namespace Session

variable {held : Holdings} {α : Type}

section Changing

/-- Collections of which nothing has to stay. -/
abbrev whatever : Collections Value → Prop := fun _ => True

/-- A change that keeps the shared collection empty, and the number of collections, may be kept. -/
theorem changing_leads {outcome : Except CollectionError (Collections Value × α)}
    (safe : ∀ changed, outcome = .ok changed → changed.1.WellFormed ∧
      changed.1.frontiers.size = held.collections.frontiers.size) :
    Leads held whatever (changing outcome) anyhow := by
  cases outcome with
  | ok changed =>
      obtain ⟨formed, size⟩ := safe changed rfl
      let later := held.withCollections changed.1 formed (Nat.le_of_eq size.symm)
      have leads : Leads held whatever (keeping changed) fun reached value =>
          reached = later ∧ value = changed.2 := keeping_leads rfl rfl trivial
      exact leads.mono fun _ _ _ => trivial
  | error cause => exact (Quiet.fail _).leads_anyhow trivial

/-- Additions from the nodes of an argument are such a change, as far as they go. -/
theorem addAll_leads (index : Nat) (source : NodeSource Value) :
    Leads held whatever (addAll index source) anyhow := by
  refine (admitted_quiet _).bind_leads trivial fun listing _ => ?_
  split
  · refine .get_bind fun session holding => changing_leads fun changed done => ?_
    rw [holding.collections] at done
    exact held.formed.addAll done
  · refine .get_bind fun session holding => (changing_leads fun changed done => ?_).bind
      fun later _ _ _ => (finished_quiet _ _).leads trivial fun _ _ => trivial
    rw [holding.collections] at done
    exact held.formed.addAll done

/-- Removals keep the shared collection empty, also those that break off. -/
theorem removeAll_leads (index : Nat) (source : NodeSource Value) :
    Leads held whatever (removeAll index source) anyhow := by
  refine (admitted_quiet _).bind_leads trivial fun listing _ => .get_bind fun session holding => ?_
  rw [holding.collections]
  generalize (if listing.fault?.isSome then NodeSource.list listing.nodes else source) = source
  let later := held.withCollections (held.collections.removeAll index source).1
    (held.formed.removeAll source)
    (Nat.le_of_eq (Collections.size_removeAll held.collections index source).symm)
  have leads : Leads held whatever (keeping (held.collections.removeAll index source))
      fun reached removed =>
        reached = later ∧ removed = (held.collections.removeAll index source).2 :=
    keeping_leads rfl rfl trivial
  refine leads.bind fun reached removed _ _ => Quiet.leads_anyhow ?_ trivial
  split
  · exact .fail _
  · refine .get_bind fun _ _ => ?_
    split
    · exact .pure trivial
    · exact (finished_quiet _ _).mono fun _ _ => trivial

end Changing

section Instructions

/-- A command on a collection that changes none leaves the nodes of all. -/
theorem executeCollection_extends (index : Nat) {command : CollectionCommand}
    (harmless : command.changes = false) :
    Leads held held.collections.Extends (executeCollection index command) anyhow := by
  have begun := Collections.Extends.refl held.collections
  cases command with
  | add | addAll | removeAll => cases harmless
  | filter predicate as? =>
      exact (evalStep_quiet _).bind_leads begun fun _ _ =>
        (filterCollection_leads begun _ _).bind fun _ _ there present =>
          answerCollection_leads there present _
  | union nodes as? =>
      exact (requiredSource_quiet _).bind_leads begun fun _ _ =>
        (unionWith_leads begun _ _).bind fun _ _ there present =>
          answerCollection_leads there present _
  | difference nodes as? =>
      exact (requiredSource_quiet _).bind_leads begun fun _ _ =>
        (differenceFrom_leads begun _ _).bind fun _ _ there present =>
          answerCollection_leads there present _
  | contains tag? =>
      exact ((node_quiet _).bind fun _ _ => (ensureAdmissible_quiet _).bind fun _ _ =>
        .read _).leads_anyhow begun
  | equals other? =>
      refine Quiet.leads_anyhow ?_ begun
      cases other? with
      | none => exact .pure trivial
      | some other =>
          refine (register_quiet _).bind fun _ _ => ?_
          split
          · exact .read _
          · exact .pure trivial
  | hash => exact (Quiet.get_bind fun _ _ => .fail _).leads_anyhow begun
  | first | toList | written | state => exact (Quiet.read _).leads_anyhow begun

/-- Telling about a path, which it puts under a name, is no matter of collections. -/
theorem answerPath_leads {start : Collections Value} (begun : start.Extends held.collections)
    (as : String) (path : Operand) : Leads held start.Extends (answerPath as path) anyhow := by
  refine (pathFor_quiet _ _).bind_leads begun fun index within =>
    .get_bind fun session holding => ?_
  refine (setRegister_leads as within begun).bind ?_
  rintro named _ there rfl
  refine (attempt_quiet (showPath_quiet index)).bind_leads there fun shown _ => ?_
  split
  · exact (Quiet.pure trivial).leads_anyhow there
  · refine Leads.bind (Leads.modify ?_ begun) fun _ _ there _ => (Quiet.throw _).leads_anyhow there
    exact fun other named => ⟨holding.registers, named.collections⟩

/-- Making a context is no matter of collections. -/
theorem newContext_leads {start : Collections Value} (begun : start.Extends held.collections)
    (as : String) (active : Bool) (sink : SinkExpr) :
    Leads held start.Extends (newContext as active sink) anyhow := by
  refine (evalSink_quiet _).bind_leads begun fun _ _ => .get_bind fun session holding => ?_
  refine Quiet.bind_leads (Quiet.set ?_) begun fun _ _ => setRegister_bind_leads _
    (Operand.within_of_other nofun) begun fun _ => answerContext_quiet _ _
  exact holding.of_unchanged ⟨rfl, rfl⟩

/-- Whatever does not change a collection keeps the nodes of all of them, failing or not. -/
theorem execute_extends {instruction : Instruction} (harmless : instruction.changes = false) :
    Leads held held.collections.Extends (execute instruction) anyhow := by
  have begun := Collections.Extends.refl held.collections
  cases instruction with
  | plant as name kind identifier? children attributes =>
      exact ((Quiet.mapM fun _ _ => node_quiet _).bind fun _ _ => (newObject_quiet _).bind
        fun _ _ => (newObject_quiet _).bind fun _ _ => (plantMember_quiet _ _ _ _ _ _).bind
          fun _ _ => .get_bind fun _ _ => .read _).leads_anyhow begun
  | tree tree =>
      exact ((plantTree_quiet _).bind fun _ _ => (identifierOf_quiet _).bind fun _ _ =>
        .pure trivial).leads_anyhow begun
  | chain as length kind =>
      exact ((plantChain_quiet _ _ _).bind fun _ _ => (identifierOf_quiet _).bind fun _ _ =>
        .pure trivial).leads_anyhow begun
  | wide as fanout depth =>
      exact ((plantLevels_quiet _ _ _).bind fun _ _ => (identifierOf_quiet _).bind fun _ _ =>
        .pure trivial).leads_anyhow begun
  | box | bare =>
      exact ((putThing_quiet _ _).bind fun _ _ => .pure trivial).leads_anyhow begun
  | set tag? attributes =>
      exact ((node_quiet _).bind fun _ _ => (setAttributes_quiet _ _).bind fun _ _ =>
        .pure trivial).leads_anyhow begun
  | info tag? => exact ((node_quiet _).bind fun _ _ => .read _).leads_anyhow begun
  | addChild tag? child? =>
      exact ((node_quiet _).bind fun _ _ => (memberFor_quiet _ _).bind fun _ _ =>
        (node_quiet _).bind fun _ _ => (attachChild_quiet _ _).bind fun _ _ =>
          .read _).leads_anyhow begun
  | walk tag? =>
      exact ((node_quiet _).bind fun _ _ => (memberFor_quiet _ _).bind fun _ _ =>
        .get_bind fun _ _ => .get_bind fun _ _ =>
          (finished_quiet _ _).mono fun _ _ => trivial).leads_anyhow begun
  | find tag? name =>
      exact ((node_quiet _).bind fun _ _ => (memberFor_quiet _ _).bind fun _ _ =>
        .get_bind fun _ _ => .get_bind fun _ _ => (ofExcept_quiet _).bind fun _ _ =>
          .pure trivial).leads_anyhow begun
  | compare left? right? =>
      exact ((node_quiet _).bind fun _ _ => (node_quiet _).bind fun _ _ =>
        .read _).leads_anyhow begun
  | parse as tree fromSource =>
      exact (buildField_quiet _ _ _).bind_leads begun fun _ _ => .get_bind fun _ _ =>
        (newAdapter_quiet _).bind_leads begun fun _ within =>
          setRegister_bind_leads _ within begun fun _ => .read _
  | syntaxName tag? => exact ((node_quiet _).bind fun _ _ => .read _).leads_anyhow begun
  | predicate as expression =>
      exact (evalStep_quiet _).bind_leads begun fun operand _ =>
        (showOperand_quiet operand).bind_leads begun fun _ within =>
          setRegister_bind_leads _ within begun fun _ => .pure trivial
  | test predicate nodes asFunction =>
      exact ((evalStep_quiet _).bind fun _ _ => (evalNodes_quiet _).bind fun _ _ =>
        (testNodes_quiet _ _ _).map _ fun _ _ => trivial).leads_anyhow begun
  | samePredicate left right =>
      exact ((evalStep_quiet _).bind fun _ _ => (evalStep_quiet _).bind fun _ _ =>
        .pure trivial).leads_anyhow begun
  | counter name reset => exact (tally_quiet _ _).leads_anyhow begun
  | traverse predicate nodes adapter =>
      exact (evalStep_quiet _).bind_leads begun fun _ _ =>
        (evalNodes_quiet _).bind_leads begun fun _ _ =>
          (evalAdapter_quiet _).bind_leads begun fun _ _ => traverse_leads begun _ _ _
  | adapter as expression =>
      exact (evalAdapter_quiet _).bind_leads begun fun _ within =>
        setRegister_bind_leads _ within begun fun _ => .pure trivial
  | ask relation tag? adapter =>
      exact ((node_quiet _).bind fun _ _ => (evalAdapter_quiet _).bind fun _ _ =>
        ask_quiet _ _ _).leads_anyhow begun
  | collect as nodes =>
      refine (evalNodes_quiet _).bind_leads begun fun _ _ =>
        (frontierOf_quiet _).bind_leads begun fun frontier _ => .get_bind fun session holding => ?_
      rw [holding.collections]
      exact (keeping_present begun (Collections.create_adds _ frontier)).bind
        fun _ _ there present =>
          setRegister_bind_leads _ (within_of_present present) there fun _ => .read _
  | collection name command =>
      exact (register_quiet _).bind_leads begun fun _ within =>
        (collectionFor_quiet _ within).bind_leads begun fun index _ =>
          executeCollection_extends index harmless
  | path as expression =>
      exact (evalPath_quiet _).bind_leads begun fun _ _ => answerPath_leads begun _ _
  | describe name =>
      exact ((register_quiet _).bind fun _ _ => (pathFor_quiet _ _).bind fun _ _ =>
        (showPath_quiet _).map _ fun _ _ => trivial).leads_anyhow begun
  | navigate path start view adapter config =>
      exact (navigate_leads path start view adapter config).mono fun _ _ _ => trivial
  | config as expression =>
      exact (evalConfig_quiet _ _).bind_leads begun fun _ _ =>
        (newConfig_quiet _).bind_leads begun fun _ within =>
          setRegister_bind_leads _ within begun fun _ => .read _
  | defaultConfig => exact (Quiet.read _).leads_anyhow begun
  | log config line =>
      exact ((evalConfig_quiet _ _).bind fun _ _ => logLine_quiet _ _).leads_anyhow begun
  | context as active sink => exact newContext_leads begun _ _ _
  | message name template arguments =>
      exact ((register_quiet _).bind fun _ _ => (contextFor_quiet _ _).bind fun _ _ =>
        sendMessage_quiet _ _ _).leads_anyhow begun
  | step name label number =>
      exact ((register_quiet _).bind fun _ _ => (contextFor_quiet _ _).bind fun _ _ =>
        sendStep_quiet _ _ _).leads_anyhow begun

/-- After any command on a collection the shared one is empty still. -/
theorem executeCollection_leads (index : Nat) (command : CollectionCommand) :
    Leads held whatever (executeCollection index command) anyhow := by
  by_cases harmless : command.changes = false
  · exact (executeCollection_extends index harmless).tolerate fun _ _ => trivial
  cases command with
  | add tag? =>
      refine (node_quiet _).bind_leads trivial fun _ _ => ?_
      have added (node : Value) : Leads held whatever (do
          Answer.truth <$> changing ((← get).collections.add index node)) anyhow := by
        refine .get_bind fun session holding => Leads.map _ (changing_leads fun changed done => ?_)
          fun _ _ _ => trivial
        rw [holding.collections] at done
        exact held.formed.add done
      dsimp only
      split
      · exact (ensureAdmissible_quiet _).bind_leads trivial fun _ _ => added _
      · exact added _
  | addAll nodes =>
      exact (requiredSource_quiet _).bind_leads trivial fun _ _ =>
        (addAll_leads _ _).map _ fun _ _ _ => trivial
  | removeAll nodes =>
      exact (requiredSource_quiet _).bind_leads trivial fun _ _ =>
        (removeAll_leads _ _).map _ fun _ _ _ => trivial
  | _ => exact absurd rfl harmless

/-- After any instruction the shared collection is empty, and the registers hold what is there. -/
theorem execute_leads (instruction : Instruction) :
    Leads held whatever (execute instruction) anyhow := by
  by_cases harmless : instruction.changes = false
  · exact (execute_extends harmless).tolerate fun _ _ => trivial
  cases instruction with
  | collection name command =>
      exact (register_quiet _).bind_leads trivial fun _ within =>
        (collectionFor_quiet _ within).bind_leads trivial fun index _ =>
          executeCollection_leads index command
  | _ => exact absurd rfl harmless

end Instructions

section Commands

/-- What an answered action leaves is what the action leaves. -/
theorem answered_state (action : Act Answer) (session : Session) :
    ((answered action).run session).2 = (action.perform session).2 := by
  rw [answered, StateT.run_bind]
  unfold Act.perform
  rcases action.run.run session with ⟨_ | _, _⟩ <;> rfl

/-- What is run for its answer, be it a failure, leads where its session does. -/
theorem lifted_leads {action : StateM Session α}
    (holds : ∀ before : Session, before.Holds held →
      ∃ later : Holdings, (action.run before).2.Holds later) :
    Leads held whatever (liftM action : Act α) anyhow := by
  intro before holding
  obtain ⟨later, kept⟩ := holds before holding
  exact ⟨later, kept, trivial, trivial⟩

mutual

/-- Commands lead from holdings to holdings, those inside a traced section as well. -/
theorem run_holds (command : Command) (held : Holdings) (before : Session)
    (holding : before.Holds held) :
    ∃ later : Holdings, ((run command).run before).2.Holds later := by
  cases command with
  | instruction instruction =>
      rw [run, answered_state]
      obtain ⟨later, kept, _, _⟩ := execute_leads instruction before holding
      exact ⟨later, kept⟩
  | tracing name title body raise? =>
      have runs (here : Holdings) :
          Leads here whatever (liftM (runAll body) : Act (List Answer)) anyhow :=
        lifted_leads (runAll_holds body here)
      have leads : Leads held whatever (do
          let index ← contextFor "tracing" (← register name)
          let before := (← contextAt index).active
          let title := (← get).world.shown title
          match ← enterSection index title with
          | .error fault => return Answer.tracing none (some fault) (← contextState index)
          | .ok entered =>
              let answers ← runAll body
              let fault? := raise?.map fun kind => .raised (.host kind "body failure")
              let (fault?, exit) ← leaveSection index title before fault?
              return .tracing (some (entered, answers)) fault? exit) anyhow := by
        refine (register_quiet _).bind_leads trivial fun _ _ =>
          (contextFor_quiet _ _).bind_leads trivial fun index _ =>
            (contextAt_quiet _).bind_leads trivial fun _ _ => .get_bind fun _ _ =>
              (enterSection_quiet _ _).bind_leads trivial fun _ _ => ?_
        split
        · exact ((contextState_quiet _).bind fun _ _ => .pure trivial).leads_anyhow trivial
        · exact (runs held).bind fun _ _ _ _ =>
            ((leaveSection_quiet _ _ _ _).bind fun _ _ => .pure trivial).leads_anyhow trivial
      rw [run, answered_state]
      obtain ⟨later, kept, _, _⟩ := leads before holding
      exact ⟨later, kept⟩

/-- Whatever commands do, the session holds something. -/
theorem runAll_holds (commands : List Command) (held : Holdings) (before : Session)
    (holding : before.Holds held) :
    ∃ later : Holdings, ((runAll commands).run before).2.Holds later := by
  cases commands with
  | nil => exact ⟨held, holding⟩
  | cons command rest =>
      obtain ⟨later, kept⟩ := run_holds command held before holding
      exact runAll_holds rest later _ kept

end

/-- The sessions that commands reach, in the midst of traced sections as well. -/
inductive Reached : Session → Prop
  | start : Reached {}
  | run {session : Session} (command : Command) (before : Reached session) :
      Reached ((run command).run session).2
  | entered {session : Session} (index : Nat) (title : String) (before : Reached session) :
      Reached ((enterSection index title).perform session).2

/-- What a session comes to by more commands it has come to. -/
theorem Reached.runAll {session : Session} (reached : Reached session) (commands : List Command) :
    Reached ((runAll commands).run session).2 := by
  induction commands generalizing session with
  | nil => exact reached
  | cons command rest ih => exact ih (reached.run command)

/-- What a session holds that has done nothing. -/
def Holdings.initial : Holdings where
  registers := [("EMPTY", .object (.collection Collections.shared))]
  collections := {}
  formed := ⟨Nat.zero_lt_one, rfl⟩
  registered := by
    intro name operand found index same
    rw [same, List.lookup_cons] at found
    split at found
    · cases found
      exact Nat.zero_lt_one
    · cases found

/-- In every session that commands come to, the shared collection is empty and the registers hold
what is there. -/
theorem Reached.holds {session : Session} (reached : Reached session) :
    ∃ held : Holdings, session.Holds held := by
  induction reached with
  | start => exact ⟨.initial, rfl, rfl⟩
  | run command _ ih =>
      obtain ⟨held, holding⟩ := ih
      exact run_holds command held _ holding
  | entered index title _ ih =>
      obtain ⟨held, holding⟩ := ih
      exact ⟨held, (enterSection_quiet index title _ holding).1⟩

end Commands

end Session

end TreeQuery
