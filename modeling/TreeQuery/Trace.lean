import TreeQuery.Host

/-! # Traces of a run

A run leaves a journal: the lines sent to the trace sink, the calls made to predicates and to the
host, and whether trace output is on. The journal outlives a fault. A sink may refuse a line, which
ends the run with a fault of its own. A traced section switches output on, brackets its body by two
lines and, when the body is over in whichever way, sends the closing line and puts the switch back.
-/

namespace TreeQuery

/-- What is reported to a trace sink. -/
inductive Line where
  | beginPath (title : String)
  | endPath (title : String)
  | step (label : String) (count : Nat)
  | abort
  | beginExclusion
  | endExclusion
  | note (text : String)
  deriving DecidableEq, Repr

namespace Line

/-- The text of a line. The report of a step is indented. -/
def text : Line → String
  | beginPath title => "## [ begin path: " ++ title ++ " ]"
  | endPath title => "## [ end path: " ++ title ++ " ]"
  | step label count =>
      "\t" ++ label ++ " (" ++ toString count ++ (if count = 1 then " node)" else " nodes)")
  | abort => "\tABORT!"
  | beginExclusion => "## begin exclude..."
  | endExclusion => "## end exclude."
  | note text => text

def isIndented (line : Line) : Bool :=
  line.text.startsWith "\t"

end Line

/-- A question put to something outside: to a leaf test or to a counter about a node, or to the
host about the relatives of a node. -/
inductive Call (Node Leaf : Type) where
  | tested (leaf : Leaf) (node : Node)
  | counted (counter : Nat) (node : Node)
  | asked (relation : Relation) (node : Node)
  deriving DecidableEq, Repr

/-- What a run has left behind so far. Lines and calls stand latest first. -/
structure Journal (Node Leaf : Type) where
  active : Bool := false
  lines : List Line := []
  calls : List (Call Node Leaf) := []
  deriving DecidableEq, Repr

/-- Decides about a line, in view of the lines sent before it, latest first: whether the sink
refuses it, and with which failure. -/
abbrev Sink (Failure : Type) := List Line → Line → Option Failure

/-- A sink that takes every line. -/
def Sink.accepting {Failure : Type} : Sink Failure := fun _ _ => none

/-- A computation that may end with a fault and keeps its journal in any case. -/
abbrev Run (Node Leaf Failure : Type) :=
  ExceptT (Fault Failure) (StateM (Journal Node Leaf))

namespace Run

variable {Node Leaf Failure : Type} {α β : Type}

/-- The outcome of a run and the journal that it leaves behind. -/
def perform (computation : Run Node Leaf Failure α) (journal : Journal Node Leaf) :
    Except (Fault Failure) α × Journal Node Leaf :=
  computation.run.run journal

/-- Records a call. -/
def note (call : Call Node Leaf) : Run Node Leaf Failure Unit :=
  modify fun journal => { journal with calls := call :: journal.calls }

/-- Turns the trace output on or off. -/
def switch (active : Bool) : Run Node Leaf Failure Unit :=
  modify fun journal => { journal with active := active }

/-- Whether trace output is on. -/
def isActive : Run Node Leaf Failure Bool := do
  return (← get).active

/-- Sends a line to the sink if trace output is on. -/
def send (sink : Sink Failure) (line : Line) : Run Node Leaf Failure Unit := do
  let journal ← get
  if journal.active then
    set { journal with lines := line :: journal.lines }
    match sink journal.lines line with
    | some failure => throw (.raised failure)
    | none => pure ()

def enter (sink : Sink Failure) (title : String) : Run Node Leaf Failure Unit := do
  switch true
  send sink (.beginPath title)

/-- Closes a traced section and puts the switch back to where it was before. -/
def leave (sink : Sink Failure) (title : String) (before : Bool) :
    Run Node Leaf Failure Unit := do
  send sink (.endPath title)
  switch before

/-- Runs a body and then a closing computation, however the body ended. A fault of the closing
computation is the outcome; without one the outcome is that of the body. -/
def ensuring (body : Run Node Leaf Failure α) (closing : Run Node Leaf Failure Unit) :
    Run Node Leaf Failure α :=
  ExceptT.mk fun journal =>
    let (outcome, later) := body.perform journal
    match closing.perform later with
    | (.ok _, last) => (outcome, last)
    | (.error fault, last) => (.error fault, last)

/-- Runs a body as a traced section. -/
def traced (sink : Sink Failure) (title : String) (body : Run Node Leaf Failure α) :
    Run Node Leaf Failure α := do
  let before ← isActive
  enter sink title
  ensuring body (leave sink title before)

/-- A value is had without touching the journal. -/
@[simp] theorem perform_pure (value : α) (journal : Journal Node Leaf) :
    (pure value : Run Node Leaf Failure α).perform journal = (.ok value, journal) := rfl

@[simp] theorem perform_throw (fault : Fault Failure) (journal : Journal Node Leaf) :
    (throw fault : Run Node Leaf Failure α).perform journal = (.error fault, journal) := rfl

/-- A run goes on with the journal that its first part left, unless that part ended with a
fault. -/
theorem perform_bind (first : Run Node Leaf Failure α) (next : α → Run Node Leaf Failure β)
    (journal : Journal Node Leaf) :
    (first >>= next).perform journal = match first.perform journal with
      | (.ok value, later) => (next value).perform later
      | (.error fault, later) => (.error fault, later) := by
  change (match first.run.run journal with
    | (outcome, later) => (ExceptT.bindCont next outcome) later) = _
  unfold perform
  rcases first.run.run journal with ⟨_ | _, _⟩ <;> rfl

/-- A call is put before the earlier ones. -/
@[simp] theorem perform_note (call : Call Node Leaf) (journal : Journal Node Leaf) :
    (note call : Run Node Leaf Failure Unit).perform journal =
      (.ok (), { journal with calls := call :: journal.calls }) := rfl

@[simp] theorem perform_switch (active : Bool) (journal : Journal Node Leaf) :
    (switch active : Run Node Leaf Failure Unit).perform journal =
      (.ok (), { journal with active := active }) := rfl

@[simp] theorem perform_isActive (journal : Journal Node Leaf) :
    (isActive : Run Node Leaf Failure Bool).perform journal =
      (.ok journal.active, journal) := rfl

/-- Without trace output a line goes nowhere. -/
theorem perform_send_of_inactive (sink : Sink Failure) (line : Line)
    {journal : Journal Node Leaf} (inactive : journal.active = false) :
    (send sink line : Run Node Leaf Failure Unit).perform journal = (.ok (), journal) := by
  cases journal
  cases inactive
  rfl

/-- With trace output a line is sent, and the sink may refuse it. -/
theorem perform_send_of_active (sink : Sink Failure) (line : Line)
    {journal : Journal Node Leaf} (active : journal.active = true) :
    (send sink line : Run Node Leaf Failure Unit).perform journal =
      ((match sink journal.lines line with
          | some failure => .error (.raised failure)
          | none => .ok ()),
        { journal with lines := line :: journal.lines }) := by
  rcases journal with ⟨_, lines, calls⟩
  cases active
  rw [send, perform_bind]
  change perform (match sink lines line with
    | some failure => throw (.raised failure)
    | none => pure ()) _ = _
  cases sink lines line <;> rfl

/-- The closing computation runs on the journal that the body left. -/
theorem perform_ensuring (body : Run Node Leaf Failure α) (closing : Run Node Leaf Failure Unit)
    (journal : Journal Node Leaf) :
    (ensuring body closing).perform journal =
      match closing.perform (body.perform journal).2 with
      | (.ok _, last) => ((body.perform journal).1, last)
      | (.error fault, last) => (.error fault, last) := rfl

/-- A traced section opens with output on; its body and its closing line run only when the opening
line was taken. -/
theorem perform_traced (sink : Sink Failure) (title : String) (body : Run Node Leaf Failure α)
    (journal : Journal Node Leaf) :
    (traced sink title body).perform journal =
      match (send sink (.beginPath title)).perform { journal with active := true } with
      | (.ok _, entered) => (ensuring body (leave sink title journal.active)).perform entered
      | (.error fault, entered) => (.error fault, entered) := by
  rw [traced, perform_bind, perform_isActive]
  simp only [perform_bind, enter, perform_switch]
  split <;> simp_all

end Run

end TreeQuery
