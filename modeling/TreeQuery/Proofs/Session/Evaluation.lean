import TreeQuery.Proofs.Session.Quiet

/-! # Evaluation leaves collections alone

Evaluating an expression may make predicates, paths, adapters and sinks, and it may fail after that,
but it touches no collection and no register (`TreeQuery.Session.evalStep_quiet` and the like).
Where the nodes of an argument come from a collection, that is one that a register holds.
-/

namespace TreeQuery

/-- A source of nodes that is none but one of the collections there are, if it is a collection. -/
def NodeSource.Within (collections : Collections Value) (source : NodeSource Value) : Prop :=
  ∀ index, source = .collection index → index < collections.frontiers.size

/-- Resolving the nodes of a function is quiet if finding each of them is. -/
theorem HostFunction.resolve_quiet {Name : Type} {held : Session.Holdings} {find : Name → Act Value}
    (quiet : ∀ name, Session.Quiet held (find name) Session.anything)
    (function : HostFunction Name) :
    Session.Quiet held (function.resolve find) Session.anything := by
  have all (names : List Name) : Session.Quiet held (names.mapM find) Session.anything :=
    .mapM fun name _ => quiet name
  induction function with
  | nameEquals | leaf | constant => exact .pure trivial
  | oneOf nodes => exact (all nodes).map _ fun _ _ => trivial
  | raise kind message nodes? =>
      cases nodes? with
      | none => exact .pure trivial
      | some nodes => exact (all nodes).bind fun _ _ => .pure trivial
  | anonymous function ih => exact ih.map _ fun _ _ => trivial
  | nameless function form ih => exact ih.bind fun _ _ => .pure trivial

namespace Session

variable {held : Holdings}

/-- A new predicate takes an identity, and nothing else is changed for it. -/
theorem newPredicate_quiet (predicate : Predicate LeafTest) :
    Quiet held (newPredicate predicate) anything :=
  freshIdentity_quiet.bind fun _ _ => .pure trivial

/-- A foreign object is handed out as it is, and any other result of an operator is new. -/
theorem newOperand_quiet (predicate : Predicate LeafTest) :
    Quiet held (newOperand predicate) anything := by
  rw [newOperand.eq_def]
  split
  · exact .pure trivial
  · exact newPredicate_quiet _

/-- Refusing a step writes the operand into a message. -/
theorem refuseStep_quiet {α : Type} (operand : Operand) :
    Quiet held (refuseStep operand : Act α) anything :=
  (writtenOperand_quiet operand).bind fun _ _ => .fail _

/-- Taking an operand as a step makes a predicate of a function and leaves others as they are. -/
theorem asStep_quiet (operand : Operand) : Quiet held (asStep operand) anything := by
  rw [asStep.eq_def]
  split
  · exact .pure trivial
  · exact .pure trivial
  · exact newPredicate_quiet _
  · exact refuseStep_quiet _

theorem step?_quiet (operand : Operand) : Quiet held (step? operand) anything :=
  (asStep_quiet operand).bind fun _ _ => .pure trivial

/-- Looking for a predicate only reads the session. -/
theorem predicateFor_quiet (wanted : String) (operand : Operand) :
    Quiet held (predicateFor wanted operand) anything := by
  rw [predicateFor.eq_def]
  split
  · exact .pure trivial
  · exact lacks_quiet _ _

/-- Looking for a traversal leaves registers and collections alone. -/
theorem traversalFor_quiet (wanted : String) (operand : Operand) :
    Quiet held (traversalFor wanted operand) anything := by
  refine (predicateFor_quiet wanted operand).bind fun predicate _ => ?_
  split
  · exact .pure trivial
  · exact lacks_quiet _ _

/-- An operator ends with an operand or a failure, and either way it is quiet. -/
theorem operated_quiet
    (outcome : Except (OperatorError LeafTest) (Predicate LeafTest)) :
    Quiet held (operated outcome) anything := by
  refine .get_bind fun session _ => ?_
  split
  · exact newOperand_quiet _
  · exact .fail _
  · exact .fail _
  · exact .fail _
  · exact .fail _
  · exact refuseStep_quiet _

/-- A negation is quiet, also of what cannot be negated. -/
theorem negate_quiet (operand : Operand) : Quiet held (negate operand) anything := by
  rw [negate]
  split
  · exact operated_quiet _
  · exact .get_bind fun _ _ => .fail _

/-- A combination is quiet, whichever of the operands does not fit. -/
theorem combine_quiet (connective : Connective) (left right : Operand) :
    Quiet held (combine connective left right) anything := by
  rw [combine.eq_def]
  split
  · exact operated_quiet _
  · exact lacks_quiet _ _
  · exact .get_bind fun _ _ => .fail _

/-- The nodes that a function names are looked up. -/
theorem resolveFunction_quiet (host : FunctionExpr) :
    Quiet held (resolveFunction host) anything :=
  host.resolve_quiet node_quiet

/-- A composition changes the stored paths only. -/
theorem composing_quiet (operation : PathStore LeafTest → PathStore LeafTest × Nat) :
    Quiet held (composing operation) anything :=
  .of_perform fun _ => ⟨rfl, rfl⟩

/-- A union does so too, and one that is refused changes nothing. -/
theorem unite_quiet (path : Nat) (other : Operand) : Quiet held (unite path other) anything := by
  refine .get_bind fun session _ => ?_
  split
  · refine Quiet.bind (Quiet.modify ?_) fun _ _ => .pure trivial
    exact fun _ => ⟨rfl, rfl⟩
  · exact .fail _

theorem exclude_quiet (path : Nat) (other : Operand) :
    Quiet held (exclude path other) anything :=
  composing_quiet _

/-- Appending is a composition, made after steps have been taken from operands. -/
theorem appendOperands_quiet (path : Nat) (operands : List Operand) :
    Quiet held (appendOperands path operands) anything := by
  rw [appendOperands.eq_def]
  split
  · exact composing_quiet _
  · exact (Quiet.mapM fun operand _ => step?_quiet operand).bind fun _ _ => composing_quiet _

/-- A new path is stored behind all others. -/
theorem newPath_quiet (shape : PathShape LeafTest) : Quiet held (newPath shape) anything := by
  rw [newPath]
  exact (composing_quiet _).bind fun _ _ => .pure trivial

mutual

/-- Evaluating a step is quiet, by the parts that its expression has. -/
theorem evalStep_quiet (expression : StepExpr) : Quiet held (evalStep expression) anything := by
  cases expression with
  | absent | any | all => exact .pure trivial
  | attributeIs name values => exact (lift_quiet _).bind fun _ _ => newPredicate_quiet _
  | syntaxNameIs values => exact (lift_quiet _).bind fun _ _ => newPredicate_quiet _
  | nameMatches text => exact (lift_quiet _).bind fun _ _ => newPredicate_quiet _
  | classIs names => exact newPredicate_quiet _
  | test host label? => exact (resolveFunction_quiet host).bind fun _ _ => newPredicate_quiet _
  | function host =>
      exact freshIdentity_quiet.bind fun _ _ =>
        (resolveFunction_quiet host).bind fun _ _ => .pure trivial
  | custom host => exact (resolveFunction_quiet host).bind fun _ _ => newPredicate_quiet _
  | counting inner title? =>
      rw [evalStep]
      exact (evalStep_quiet inner).bind fun operand _ => (step?_quiet operand).bind fun _ _ =>
        freshIdentity_quiet.bind fun _ _ => .pure trivial
  | traversal axis inner =>
      rw [evalStep]
      exact (evalStep_quiet inner).bind fun _ _ => newPredicate_quiet _
  | on axis inner =>
      rw [evalStep]
      exact (evalStep_quiet inner).bind fun operand _ =>
        (predicateFor_quiet _ operand).bind fun _ _ => newPredicate_quiet _
  | withInner outer inner =>
      rw [evalStep]
      exact (evalStep_quiet outer).bind fun operand _ =>
        (traversalFor_quiet _ operand).bind fun _ _ =>
          (evalStep_quiet inner).bind fun _ _ => newPredicate_quiet _
  | not inner =>
      rw [evalStep]
      exact (evalStep_quiet inner).bind fun _ _ => negate_quiet _
  | and left right =>
      rw [evalStep]
      exact (evalStep_quiet left).bind fun _ _ => (evalStep_quiet right).bind fun _ _ =>
        combine_quiet _ _ _
  | or left right =>
      rw [evalStep]
      exact (evalStep_quiet left).bind fun _ _ => (evalStep_quiet right).bind fun _ _ =>
        combine_quiet _ _ _
  | asPredicate inner =>
      rw [evalStep]
      exact (evalStep_quiet inner).bind fun _ _ => asStep_quiet _
  | value value =>
      by_cases null : value = .null
      · rw [null]
        exact .pure trivial
      · rw [evalStep]
        · exact (newObject_quiet value).bind fun _ _ => .pure trivial
        · exact null
  | path path =>
      rw [evalStep]
      exact evalPath_quiet path
  | register name => exact (register_quiet name).mono fun _ _ => trivial

/-- Evaluating several steps is quiet, also when a later one fails. -/
theorem evalSteps_quiet (expressions : List StepExpr) :
    Quiet held (evalSteps expressions) anything := by
  cases expressions with
  | nil => exact .pure trivial
  | cons expression rest =>
      rw [evalSteps]
      exact (evalStep_quiet expression).bind fun _ _ =>
        (evalSteps_quiet rest).bind fun _ _ => .pure trivial

/-- Evaluating a path is quiet, since what it composes is no collection. -/
theorem evalPath_quiet (expression : PathExpr) : Quiet held (evalPath expression) anything := by
  cases expression with
  | simple steps =>
      rw [evalPath]
      exact (evalSteps_quiet steps).bind fun operands _ =>
        (Quiet.mapM fun operand _ => step?_quiet operand).bind fun _ _ => newPath_quiet _
  | register name => exact (register_quiet name).mono fun _ _ => trivial
  | union delegates =>
      rw [evalPath]
      exact (evalPaths_quiet delegates).bind fun _ _ => newPath_quiet _
  | exclusion base excluded =>
      rw [evalPath]
      exact (evalPath_quiet base).bind fun _ _ =>
        (evalPaths_quiet excluded).bind fun _ _ => newPath_quiet _
  | chain links =>
      rw [evalPath]
      exact (evalPaths_quiet links).bind fun _ _ => newPath_quiet _
  | or first others =>
      rw [evalPath]
      exact (evalPath_quiet first).bind fun receiver _ =>
        evalEach_quiet "or_" unite_quiet receiver others
  | exclude first others =>
      rw [evalPath]
      exact (evalPath_quiet first).bind fun receiver _ =>
        evalEach_quiet "exclude" exclude_quiet receiver others
  | append first others =>
      rw [evalPath]
      exact (evalPath_quiet first).bind fun receiver _ =>
        evalEach_quiet "append" (fun _ _ => appendOperands_quiet _ _) receiver others
  | appendSteps first steps =>
      rw [evalPath]
      exact (evalPath_quiet first).bind fun path _ => (evalSteps_quiet steps).bind fun _ _ =>
        (pathFor_quiet _ path).bind fun _ _ =>
          (appendOperands_quiet _ _).bind fun _ _ => .pure trivial
  | trace path name =>
      rw [evalPath]
      refine (evalPath_quiet path).bind fun path _ => (pathFor_quiet _ path).bind fun _ _ => ?_
      refine Quiet.bind (Quiet.modify ?_) fun _ _ => .pure trivial
      exact fun _ => ⟨rfl, rfl⟩

theorem evalPaths_quiet (expressions : List PathExpr) :
    Quiet held (evalPaths expressions) anything := by
  cases expressions with
  | nil => exact .pure trivial
  | cons expression rest =>
      rw [evalPaths]
      exact (evalPath_quiet expression).bind fun _ _ =>
        (evalPaths_quiet rest).bind fun _ _ => .pure trivial

/-- Composing a path with others is quiet if each composition is. -/
theorem evalEach_quiet (wanted : String) {compose : Nat → Operand → Act Nat}
    (quiet : ∀ path other, Quiet held (compose path other) anything) (receiver : Operand)
    (expressions : List PathExpr) :
    Quiet held (evalEach wanted compose receiver expressions) anything := by
  cases expressions with
  | nil => exact .pure trivial
  | cons expression rest =>
      rw [evalEach]
      exact (pathFor_quiet wanted receiver).bind fun _ _ =>
        (evalPath_quiet expression).bind fun _ _ => (quiet _ _).bind fun _ _ =>
          evalEach_quiet wanted quiet _ rest

end

/-- A sink that keeps lines is added to the keepers of lines. -/
theorem evalSink_quiet (expression : SinkExpr) : Quiet held (evalSink expression) anything := by
  rw [evalSink.eq_def]
  split
  · exact .pure trivial
  · exact .pure trivial
  · exact (addKeeper_quiet _).map _ fun _ _ => trivial
  · exact (addKeeper_quiet _).map _ fun _ _ => trivial
  · exact .pure trivial

/-- A new adapter takes an identity and is no collection. -/
theorem newAdapter_quiet (adapter : Adapter) :
    Quiet held (newAdapter adapter) (Operand.Within held.collections) :=
  freshIdentity_quiet.bind fun _ _ => .pure (Operand.within_of_other nofun)

/-- A collection in the place of an adapter is one that a register holds. -/
theorem evalAdapter_quiet (expression : AdapterExpr) :
    Quiet held (evalAdapter expression) (Operand.Within held.collections) := by
  rw [evalAdapter.eq_def]
  split
  · exact .pure (Operand.within_of_other nofun)
  · exact .pure (Operand.within_of_other nofun)
  · exact register_quiet _
  · exact newAdapter_quiet _
  · refine Quiet.bind (Quiet.mapM fun entry _ => ?_) fun _ _ =>
      Quiet.bind (Quiet.mapM fun entry _ => ?_) fun _ _ => newAdapter_quiet _
    · refine Quiet.bind (Quiet.mapM fun child _ => ?_) fun _ _ =>
        (node_quiet _).bind fun _ _ => .pure trivial
      split
      · exact .pure trivial
      · exact (node_quiet _).map _ fun _ _ => trivial
    · exact (node_quiet _).bind fun _ _ => (node_quiet _).bind fun _ _ => .pure trivial
  · exact newAdapter_quiet _
  · exact (newObject_quiet _).bind fun _ _ => .pure (Operand.within_of_other nofun)

/-- Another sink makes another configuration, where there are trace options to put it into. -/
theorem withSink_quiet (config : Config Operand) (sink : SinkField) :
    Quiet held (withSink config sink) anything := by
  rw [withSink]
  split
  · exact .pure trivial
  · exact .get_bind fun _ _ => .fail _

/-- Evaluating the fields of a configuration makes sinks and an adapter on the way. -/
theorem evalFields_quiet (fields : ConfigFields) : Quiet held (evalFields fields) anything := by
  refine (evalSink_quiet _).bind fun sink _ => (evalAdapter_quiet _).bind fun adapter _ => ?_
  have recorded (config : Config Operand) : Quiet held (if fields.withRecorder then do
      withSink config (← evalSink .recorder) else Pure.pure config) anything := by
    split
    · exact (evalSink_quiet _).bind fun _ _ => withSink_quiet _ _
    · exact .pure trivial
  dsimp only
  split <;> refine .pure_bind ?_ <;> split
  · exact (evalSink_quiet _).bind fun _ _ => (withSink_quiet _ _).bind fun _ _ => recorded _
  · exact .pure_bind (recorded _)
  · exact (evalSink_quiet _).bind fun _ _ => (withSink_quiet _ _).bind fun _ _ => recorded _
  · exact .pure_bind (recorded _)

/-- Looking for a configuration only reads the session. -/
theorem configFor_quiet (wanted : String) (operand : Operand) :
    Quiet held (configFor wanted operand) anything := by
  rw [configFor.eq_def]
  split
  · exact .pure trivial
  · exact .read _
  · exact lacks_quiet _ _

/-- A configuration that is evaluated is none, one in a register, or a new one. -/
theorem evalConfig_quiet (wanted : String) (expression : ConfigExpr) :
    Quiet held (evalConfig wanted expression) anything := by
  cases expression with
  | absent => exact .pure trivial
  | register name => exact (register_quiet name).bind fun _ _ => configFor_quiet _ _
  | fields fields => exact evalFields_quiet fields

/-- A new configuration is stored behind all others and is no collection. -/
theorem newConfig_quiet (config : Config Operand) :
    Quiet held (newConfig config) (Operand.Within held.collections) :=
  fun _ holding => ⟨holding.of_unchanged ⟨rfl, rfl⟩, Operand.within_of_other nofun⟩

/-- A collection that hands out nodes is the operand itself. -/
theorem sourceOf_quiet {operand : Operand} (within : operand.Within held.collections) :
    Quiet held (sourceOf operand) fun source? =>
      ∀ source ∈ source?, source.Within held.collections := by
  rw [sourceOf.eq_def]
  split
  · exact .pure nofun
  · next index =>
      refine .pure ?_
      rintro _ ⟨⟩ _ ⟨⟩
      exact within index rfl
  · dsimp only
    split
    · refine .pure ?_
      rintro _ ⟨⟩ _ ⟨⟩
    · exact .get_bind fun _ _ => .throw _

/-- A source of nodes is made of nodes that are looked up, or is what a register holds. -/
theorem evalSource_quiet (nodes : NodesExpr) :
    Quiet held (evalSource nodes) fun source? =>
      ∀ source ∈ source?, source.Within held.collections := by
  cases nodes with
  | absent => exact .pure nofun
  | tags tags =>
      refine Quiet.bind (Quiet.mapM fun tag? _ => node_quiet tag?) fun _ _ => .pure ?_
      rintro _ ⟨⟩ _ ⟨⟩
  | register name => exact (register_quiet name).bind fun _ within => sourceOf_quiet within

/-- A source that is required is found or missed without a change. -/
theorem requiredSource_quiet (nodes : NodesExpr) :
    Quiet held (requiredSource nodes) (NodeSource.Within held.collections) := by
  refine (evalSource_quiet nodes).bind fun source? within => ?_
  split
  · exact .pure (within _ rfl)
  · exact .throw _

/-- A source that may be left out is the empty list then. -/
theorem optionalSource_quiet (nodes : NodesExpr) :
    Quiet held (optionalSource nodes) (NodeSource.Within held.collections) := by
  refine (evalSource_quiet nodes).bind fun source? within => .pure ?_
  cases source? with
  | none => exact nofun
  | some source => exact within source rfl

theorem evalNodes_quiet (nodes : NodesExpr) : Quiet held (evalNodes nodes) anything :=
  (optionalSource_quiet nodes).bind fun _ _ => .read _

end Session

end TreeQuery
