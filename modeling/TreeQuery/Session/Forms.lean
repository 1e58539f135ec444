import TreeQuery.Session.State

/-! # Written forms in a session

Every object that may stand in the place of a step has a written form, by which messages name it.
The form of a path quotes the labels of its steps, so there is none when a label is missing. A path
or a configuration that contains itself is cut short.
-/

namespace TreeQuery.Session

/-- The form of a sink in a configuration. -/
def sinkForm (session : Session) : SinkField → String
  | .absent => "None"
  | .sink _ => "<TraceRecorder object>"
  | .value value => session.world.written value

/-- The form of the trace field of a configuration. -/
def traceForm (session : Session) : TraceField → String
  | .options options =>
      "TraceConfig(logger_name=" ++ session.world.written options.loggerName ++
      ", level=" ++ session.world.written options.level ++
      ", sink=" ++ session.sinkForm options.sink ++ ")"
  | .value value => session.world.written value

/-- The form of a collection, which tells its nodes unless it is the shared one. -/
def collectionForm (session : Session) (index : Nat) : String :=
  if index = Collections.shared then "NodeCollection.EMPTY"
  else
    let nodes := (session.collections.get index).nodes
    "NodeCollection(" ++ session.world.written (.list nodes) ++ ")"

/-- The written form of an operand, given those of foreign objects. -/
def operandForm (foreignForm : Foreign → Except LeafTest String) :
    Operand → Except LeafTest String
  | .absent => .ok "None"
  | .predicate _ predicate => predicate.written
  | .object object => foreignForm object

/-- The written form of a foreign object, in which objects stand inside each other no deeper than
the number allows. -/
def formTo (session : Session) : Nat → Foreign → Except LeafTest String
  | 0, _ => .ok "..."
  | depth + 1, object => match object with
      | .function _ host => .ok host.written
      | .path index =>
          let ofLeaf (leaf : LeafTest) : Except LeafTest String :=
            leaf.foreign?.elim (.error leaf) fun object => session.formTo depth object
          (session.paths.read? index).elim (.ok "...") (Path.written ofLeaf)
      | .collection index => .ok (session.collectionForm index)
      | .adapter _ adapter => .ok ("<" ++ adapter.typeName ++ " object>")
      | .config index => do
          let config := session.configs[index]?.getD {}
          let adapter ← operandForm (session.formTo depth) (config.adapter?.getD .absent)
          return "PathConfig(trace=" ++ session.traceForm config.trace ++ ", adapter=" ++ adapter ++
            ")"
      | .context _ => .ok "<NavigationContext object>"
      | .value value => .ok (session.world.written value)

/-- The written form of a foreign object. Unless an object contains itself, paths and configurations
take turns at most once for each configuration. -/
def foreignForm (session : Session) (object : Foreign) : Except LeafTest String :=
  session.formTo (2 * session.configs.size + 2) object

/-- The form of a part of a composite path. -/
def partForm (session : Session) : PathPart LeafTest → Except LeafTest String
  | .path index => session.foreignForm (.path index)
  | .stray operand? =>
      Path.strayForm (fun leaf => leaf.foreign?.elim (.error leaf) session.foreignForm) operand?

/-- A form or a label, or the failure of the leaf that has no label. -/
def formed (form : Except LeafTest String) : Act String := do
  match form with
  | .ok text => pure text
  | .error leaf => fail ((← get).unlabelled leaf)

def writtenOperand (operand : Operand) : Act String := do
  formed (operandForm (← get).foreignForm operand)

end TreeQuery.Session
