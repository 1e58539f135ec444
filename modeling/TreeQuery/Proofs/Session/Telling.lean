import TreeQuery.Proofs.Session.Evaluation
import TreeQuery.Session.Tracing

/-! # Telling leaves collections alone

What is told about paths, predicates and configurations is read off the session, and the contexts
through which lines are sent by hand are apart from registers and collections.
-/

namespace TreeQuery.Session

variable {held : Holdings}

section Answer

/-- Writing down the parts of a path only asks for their forms. -/
theorem partForms_quiet (session : Session) (shape : PathShape LeafTest) :
    Quiet held (session.partForms shape) anything :=
  .mapM fun _ _ => formed_quiet _

/-- Labels of steps are asked for in the same way, and one that fails changes nothing. -/
theorem stepLabels_quiet (shape : PathShape LeafTest) :
    Quiet held (stepLabels shape) anything := by
  rw [stepLabels.eq_def]
  split
  · refine .mapM fun step? _ => ?_
    cases step? with
    | none => exact .pure trivial
    | some step => exact (formed_quiet _).map _ fun _ _ => trivial
  · exact .pure trivial

/-- Telling about a path asks for its form, its steps and its parts. -/
theorem showPath_quiet (index : Nat) : Quiet held (showPath index) anything :=
  .get_bind fun _ _ => (formed_quiet _).bind fun _ _ => (stepLabels_quiet _).bind fun _ _ =>
    (partForms_quiet _ _).bind fun _ _ => .pure trivial

/-- Telling about a predicate asks for its label and, if it moves, for that of its test. -/
theorem showPredicate_quiet (predicate : Predicate LeafTest) :
    Quiet held (showPredicate predicate) anything := by
  rw [showPredicate.eq_def]
  dsimp only
  split
  · exact (formed_quiet _).bind fun _ _ => .pure_bind ((formed_quiet _).bind fun _ _ =>
      (formed_quiet _).bind fun _ _ => .pure trivial)
  · exact .pure_bind ((formed_quiet _).bind fun _ _ => (formed_quiet _).bind fun _ _ =>
      .pure trivial)

/-- Something can be told about nothing, about a predicate and about a function only. -/
theorem showOperand_quiet (operand : Operand) :
    Quiet held (showOperand operand) fun _ => operand.Within held.collections := by
  rw [showOperand.eq_def]
  split
  · exact .pure (Operand.within_of_other nofun)
  · exact (showPredicate_quiet _).map _ fun _ _ => Operand.within_of_other nofun
  · exact .pure (Operand.within_of_other nofun)
  · exact lacks_quiet _ _

end Answer

section Contexts

/-- A line that is logged goes through the engine, which is apart from registers. -/
theorem logLine_quiet (config : Config Operand) (line : String) :
    Quiet held (logLine config line) anything := by
  rw [logLine]
  split
  · exact .get_bind fun _ _ => .fail _
  · split
    · exact .fail _
    · refine .get_bind fun _ _ => (runEngine_quiet _ _ _).bind fun _ _ => ?_
      split
      · exact .throw _
      · exact .pure trivial

theorem contextAt_quiet (index : Nat) : Quiet held (contextAt index) anything :=
  .read _

/-- Telling about a context clears its lines and no collection. -/
theorem contextState_quiet (index : Nat) : Quiet held (contextState index) anything := by
  refine (contextAt_quiet _).bind fun _ _ => .get_bind fun _ holding => ?_
  refine Quiet.bind (Quiet.set ?_) fun _ _ => .pure trivial
  exact holding.of_unchanged ⟨rfl, rfl⟩

/-- What is sent by hand changes the context through which it is sent. -/
theorem inContext_quiet (index : Nat)
    (computation : Sink Failure → Run Value LeafTest Failure Unit) :
    Quiet held (inContext index computation) anything := by
  refine (contextAt_quiet _).bind fun _ _ => .get_bind fun _ _ =>
    (runEngine_quiet _ _ _).bind fun _ _ => ?_
  refine Quiet.bind (Quiet.modify ?_) fun _ _ => .pure trivial
  exact fun _ => ⟨rfl, rfl⟩

/-- A context is told about in the same way whether or not the sending failed. -/
theorem answerContext_quiet (index : Nat) (outcome : Except (Fault Failure) Unit) :
    Quiet held (answerContext index outcome) anything := by
  refine (contextState_quiet _).bind fun _ _ => ?_
  split
  · exact .pure trivial
  · exact .pure trivial

/-- Sending a message is quiet, whether or not its context is active and its template fits. -/
theorem sendMessage_quiet (index : Nat) (template : String) (arguments : List Value) :
    Quiet held (sendMessage index template arguments) anything := by
  refine (contextAt_quiet _).bind fun _ _ => ?_
  split
  · refine .get_bind fun _ _ => ?_
    split
    · exact (inContext_quiet _ _).bind fun _ _ => answerContext_quiet _ _
    · exact answerContext_quiet _ _
  · exact answerContext_quiet _ _

/-- A line about a step is a message with a template of its own. -/
theorem sendStep_quiet (index : Nat) (label number : Value) :
    Quiet held (sendStep index label number) anything :=
  sendMessage_quiet _ _ _

/-- Entering a section sends a line, which may be refused. -/
theorem enterSection_quiet (index : Nat) (title : String) :
    Quiet held (enterSection index title) anything := by
  refine (inContext_quiet _ _).bind fun _ _ => ?_
  split
  · exact (contextState_quiet _).map _ fun _ _ => trivial
  · exact .pure trivial

/-- Leaving a section sends a line too, whether or not something failed in it. -/
theorem leaveSection_quiet (index : Nat) (title : String) (before : Bool)
    (fault? : Option (Fault Failure)) :
    Quiet held (leaveSection index title before fault?) anything := by
  refine (inContext_quiet _ _).bind fun _ _ => (contextState_quiet _).bind fun _ _ => ?_
  split
  · exact .pure trivial
  · exact .pure trivial

end Contexts

end TreeQuery.Session
