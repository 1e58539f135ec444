import TreeQuery.Session.Answer
import TreeQuery.Session.Evaluation

/-! # Contexts and loggers

Trace output can be driven by hand. A context has a sink and a switch; lines sent while the switch
is on go to the sink, and each look at a context tells the lines that came since the last one. A
configuration can be asked for its sink, which may be a logger, and be sent a line.
-/

namespace TreeQuery.Session

/-- Sends a line to the sink of a configuration and tells what loggers recorded. -/
def logLine (config : Config Operand) (line : String) : Act Answer := do
  match config.trace with
  | .value value => fail (.noAttribute ((← get).world.typeName value) "resolve_sink")
  | .options options => match options.target with
      | .error .notText => fail .loggerName
      | .ok target =>
          let result ← runEngine true target (Run.send ((← get).sink target) (.note line))
          match result.outcome with
          | .error fault => throw fault
          | .ok _ => return .log (logEntries target result.sent)

/-- The context with an index, or one without output. -/
def contextAt (index : Nat) : Act Context := do
  return (← get).contexts[index]?.getD ⟨false, .unusable .null, 0⟩

/-- The lines that the sink of a context has kept. -/
def contextLines (session : Session) (context : Context) : List Line :=
  match context.target with
  | .sink index => (session.keeper index).kept
  | _ => []

/-- Tells about a context and takes note of the lines told. -/
def contextState (index : Nat) : Act ContextAnswer := do
  let context ← contextAt index
  let session ← get
  let lines := contextLines session context
  set { session with contexts := session.contexts.modify index fun context =>
      { context with reported := lines.length } }
  return ⟨context.active, lines.drop context.reported⟩

/-- Runs a computation with the sink and the switch of a context, and keeps the switch. -/
def inContext (index : Nat) (computation : Sink Failure → Run Value LeafTest Failure Unit) :
    Act (Except (Fault Failure) Unit) := do
  let context ← contextAt index
  let result ← runEngine context.active context.target
    (computation ((← get).sink context.target))
  modify fun session => { session with contexts := session.contexts.modify index fun context =>
    { context with active := result.active } }
  return result.outcome

/-- Tells how a computation ended in a context, and the state that it left. -/
def answerContext (index : Nat) (outcome : Except (Fault Failure) Unit) : Act Answer := do
  let state ← contextState index
  match outcome with
  | .ok _ => return .context state
  | .error fault => return .failedIn fault state

/-- Makes a context and puts it under a name. -/
def newContext (as : String) (active : Bool) (sink : SinkExpr) : Act Answer := do
  let target : SinkTarget := match ← evalSink sink with
    | .sink index => .sink index
    | .absent => .unusable .null
    | .value value => .unusable value
  let session ← get
  let index := session.contexts.size
  set { session with contexts := session.contexts.push ⟨active, target, 0⟩ }
  setRegister as (.object (.context index))
  answerContext index (.ok ())

/-- Sends a filled template in a context, if trace output is on there. -/
def sendMessage (index : Nat) (template : String) (arguments : List Value) : Act Answer := do
  if (← contextAt index).active then
    match Text.fill (← get).world.writtenObject template arguments with
    | .ok text => answerContext index (← inContext index fun sink => Run.send sink (.note text))
    | .error cause => answerContext index (.error (.raised (.template cause)))
  else answerContext index (.ok ())

/-- Reports a step in a context. The label and the count may be any values, and a count that equals
one is followed by the singular. -/
def sendStep (index : Nat) (label count : Value) : Act Answer :=
  let nodes := if count.equals (.int 1) then "node" else "nodes"
  sendMessage index "\t%s (%d %s)" [label, count, .text nodes]

/-- Opens a traced section of a context and, unless that fails, tells its state. -/
def enterSection (index : Nat) (title : String) :
    Act (Except (Fault Failure) ContextAnswer) := do
  match ← inContext index fun sink => Run.enter sink title with
  | .ok _ => .ok <$> contextState index
  | .error fault => pure (.error fault)

/-- Closes a traced section of a context, where a failure of its body stands unless closing
fails. -/
def leaveSection (index : Nat) (title : String) (before : Bool) (fault? : Option (Fault Failure)) :
    Act (Option (Fault Failure) × ContextAnswer) := do
  let outcome ← inContext index fun sink => Run.leave sink title before
  let state ← contextState index
  match outcome with
  | .ok _ => return (fault?, state)
  | .error fault => return (some fault, state)

end TreeQuery.Session
