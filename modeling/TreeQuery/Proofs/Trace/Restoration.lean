import TreeQuery.Proofs.Navigation.Congruence
import TreeQuery.Proofs.Run.Outcome
import TreeQuery.Session.Execute

/-! # Putting the switch back

A traced section switches output on, sends its opening line, runs its body, sends its closing line
and then puts the switch back. Whatever the body does, and however it ends, the switch goes back;
what can keep it from doing so is the sink, and only by refusing one of the two lines of the section
itself (`TreeQuery.Run.traced_restores_iff`). Lines that it refuses in between do no harm, so a
navigation with a sink that takes the marks of paths leaves output as it was, through all sections
in sections and whatever fails (`TreeQuery.Path.navigate_restores`).
-/

namespace TreeQuery

variable {Node Leaf Failure : Type}

/-- A sink that takes the marks of paths, whatever it does with other lines. -/
def Sink.TakesMarks (sink : Sink Failure) : Prop :=
  ∀ earlier title, sink earlier (.beginPath title) = none ∧ sink earlier (.endPath title) = none

namespace Run

variable {α : Type}

/-- What the body of a traced section starts with: output is on, and the opening line is sent. -/
def entered (title : String) (before : Journal Node Leaf) : Journal Node Leaf :=
  { before with active := true, lines := .beginPath title :: before.lines }

/-- The sink takes the opening line of a section. -/
def Opens (sink : Sink Failure) (title : String) (before : Journal Node Leaf) : Prop :=
  sink before.lines (.beginPath title) = none

/-- The sink takes the closing line of a section, which is sent if the body has left output on. -/
def Closes (sink : Sink Failure) (title : String) (after : Journal Node Leaf) : Prop :=
  after.active = true → sink after.lines (.endPath title) = none

section Section

variable {sink : Sink Failure} {title : String} {before after : Journal Node Leaf}

theorem perform_leave_of_closes (closes : Closes sink title after) (active : Bool) :
    (leave sink title active : Run Node Leaf Failure Unit).perform after = (.ok (), { after with
      active := active
      lines := if after.active then .endPath title :: after.lines else after.lines }) := by
  rw [leave, perform_bind]
  cases on : after.active with
  | false =>
      rw [perform_send_of_inactive sink _ on]
      rfl
  | true =>
      rw [perform_send_of_active sink _ on, closes on]
      rfl

/-- Where the closing line is refused, the switch is not reached. -/
theorem perform_leave_of_refused (on : after.active = true) {failure : Failure}
    (refused : sink after.lines (.endPath title) = some failure) (active : Bool) :
    (leave sink title active : Run Node Leaf Failure Unit).perform after =
      (.error (.raised failure), { after with lines := .endPath title :: after.lines }) := by
  rw [leave, perform_bind, perform_send_of_active sink _ on, refused]

/-- Where the opening line is refused, the body is not run and the switch is left on. -/
theorem perform_traced_of_refused {failure : Failure}
    (refused : sink before.lines (.beginPath title) = some failure)
    (body : Run Node Leaf Failure α) :
    (traced sink title body).perform before = (.error (.raised failure), entered title before) := by
  rw [perform_traced, perform_send_of_active sink _ rfl, refused]
  rfl

theorem perform_traced_of_opens (opens : Opens sink title before)
    (body : Run Node Leaf Failure α) :
    (traced sink title body).perform before =
      (ensuring body (leave sink title before.active)).perform (entered title before) := by
  have taken : sink before.lines (.beginPath title) = none := opens
  rw [perform_traced, perform_send_of_active sink _ rfl, taken]
  rfl

/-- A section whose two lines are taken ends as its body does, and with the switch put back. -/
theorem perform_traced_of_closes {body : Run Node Leaf Failure α}
    (opens : Opens sink title before)
    (closes : Closes sink title (body.perform (entered title before)).2) :
    ((traced sink title body).perform before).1 = (body.perform (entered title before)).1 ∧
      ((traced sink title body).perform before).2.active = before.active := by
  rw [perform_traced_of_opens opens, perform_ensuring, perform_leave_of_closes closes]
  exact ⟨rfl, rfl⟩

/-- A section whose closing line is refused ends with that, whatever its body ended with, and with
the switch left on. -/
theorem perform_traced_of_not_closes {body : Run Node Leaf Failure α}
    (opens : Opens sink title before)
    (refused : ¬ Closes sink title (body.perform (entered title before)).2) :
    ∃ failure, sink (body.perform (entered title before)).2.lines (.endPath title) = some failure ∧
      ((traced sink title body).perform before).1 = .error (.raised failure) ∧
      ((traced sink title body).perform before).2.active = true := by
  rw [Closes, Classical.not_imp] at refused
  obtain ⟨on, given⟩ := refused
  obtain ⟨failure, given⟩ := Option.ne_none_iff_exists'.mp given
  refine ⟨failure, given, ?_⟩
  rw [perform_traced_of_opens opens, perform_ensuring, perform_leave_of_refused on given]
  exact ⟨rfl, on⟩

end Section

/-- **A section puts the switch back unless one of its own lines is refused.** Let a section run
from any journal, with any sink and with any body, which may fail and have sections of its own. When
it is over, output is on or off as it was before exactly if it was on anyway or the sink took the
opening line and, where output was still on after the body, the closing line. Then the section ends
as its body does. A section whose opening line is refused ends with that before its body has done
anything, one whose closing line is refused ends with that whatever its body did, and both leave
output on. -/
theorem traced_restores_iff (sink : Sink Failure) (title : String) (body : Run Node Leaf Failure α)
    (before : Journal Node Leaf) :
    let done := (traced sink title body).perform before
    let left := body.perform (entered title before)
    (done.2.active = before.active ↔
      before.active = true ∨ Opens sink title before ∧ Closes sink title left.2) ∧
    (Opens sink title before → Closes sink title left.2 → done.1 = left.1) ∧
    (∀ failure, sink before.lines (.beginPath title) = some failure →
      done = (.error (.raised failure), entered title before)) ∧
    (Opens sink title before → ¬ Closes sink title left.2 → ∃ failure,
      sink left.2.lines (.endPath title) = some failure ∧
        done.1 = .error (.raised failure) ∧ done.2.active = true) := by
  refine ⟨?_, fun opens closes => (perform_traced_of_closes opens closes).1,
    fun failure refused => perform_traced_of_refused refused body, perform_traced_of_not_closes⟩
  cases given : sink before.lines (.beginPath title) with
  | some failure =>
      have shut : ¬ Opens sink title before := fun opens => nomatch given.symm.trans opens
      rw [perform_traced_of_refused given, or_iff_left fun both => shut both.1]
      exact eq_comm
  | none =>
      by_cases closes : Closes sink title (body.perform (entered title before)).2
      · exact iff_of_true (perform_traced_of_closes given closes).2 (.inr ⟨given, closes⟩)
      · obtain ⟨failure, -, -, on⟩ := perform_traced_of_not_closes given closes
        rw [on, or_iff_left fun both => closes both.2]
        exact eq_comm

/-- A sink that takes the opening lines of two sections and the closing line of the outer one, and
refuses every other line. -/
def fussy : Sink Unit := fun _ line =>
  if line = .beginPath "part" ∨ line = .beginPath "whole" ∨ line = .endPath "whole" then none
  else some ()

/-- A section in a section, with a sink that refuses all lines of the inner one but the first. -/
def partInWhole : Run Unit Unit Unit Unit :=
  traced fussy "whole" (traced fussy "part" (send fussy .abort))

/-- The inner section leaves output on where it had been off, and the outer one switches it off
again. -/
theorem whole_restores :
    ((traced fussy "part" (send fussy .abort : Run Unit Unit Unit Unit)).perform {}).2.active =
      true ∧
    Opens fussy "whole" ({} : Journal Unit Unit) ∧
    (partInWhole.perform {}).1 = .error (.raised ()) ∧
    (partInWhole.perform {}).2.active = false := by
  have opens : Opens fussy "whole" ({} : Journal Unit Unit) := rfl
  obtain ⟨restores, ends, -, -⟩ := traced_restores_iff fussy "whole"
    (traced fussy "part" (send fussy .abort)) ({} : Journal Unit Unit)
  have closes : Closes fussy "whole" ((traced fussy "part" (send fussy .abort :
      Run Unit Unit Unit Unit)).perform (entered "whole" {})).2 := fun _ => rfl
  exact ⟨rfl, opens, (ends opens closes).trans rfl, restores.mpr (.inr ⟨opens, closes⟩)⟩

/-- A run that leaves output on or off as it was, from whatever journal and however it ends. -/
def Restoring (computation : Run Node Leaf Failure α) : Prop :=
  ∀ before, (computation.perform before).2.active = before.active

namespace Restoring

variable {β : Type} {sink : Sink Failure}

theorem bind {first : Run Node Leaf Failure α} {next : α → Run Node Leaf Failure β}
    (restoring : Restoring first) (goes : ∀ value, Restoring (next value)) :
    Restoring (first >>= next) := by
  intro before
  have kept := restoring before
  rw [perform_bind]
  generalize first.perform before = done at kept ⊢
  obtain ⟨outcome, middle⟩ := done
  cases outcome with
  | error fault => exact kept
  | ok value => exact (goes value middle).trans kept

theorem congruence :
    Congruence fun _ (left _ : Run Node Leaf Failure _) => Restoring left where
  pure _ _ := rfl
  throw _ _ := rfl
  note _ _ := rfl
  liftExcept outcome := by
    intro before
    rw [perform_liftExcept]
  bind := bind

/-- A line does not touch the switch, whether it is taken or refused. -/
theorem send (sink : Sink Failure) (line : Line) :
    Restoring (Run.send sink line : Run Node Leaf Failure Unit) := by
  intro before
  cases on : before.active with
  | false => rw [perform_send_of_inactive sink line on, on]
  | true => rw [perform_send_of_active sink line on, on]

theorem traced (takes : sink.TakesMarks) (title : String) (body : Run Node Leaf Failure α) :
    Restoring (Run.traced sink title body) := by
  intro before
  exact (perform_traced_of_closes (takes before.lines title).1 fun _ => (takes _ title).2).2

theorem traceCongruence (takes : sink.TakesMarks) :
    TraceCongruence (fun _ (left _ : Run Node Leaf Failure _) => Restoring left) sink sink id where
  toCongruence := congruence
  step label count := send sink (.step label count)
  abort := send sink .abort
  excluding restoring := by
    apply (send sink .beginExclusion).bind
    intro _
    apply restoring.bind
    intro result
    exact (send sink .endExclusion).bind fun _ => congruence.pure result
  traced title body _ _ := traced takes title body

end Restoring

end Run

/-- **A sink that takes the marks of paths leaves every navigation restored.** Let a path be
navigated from any nodes, with output on or off. If the sink takes the opening and the closing lines
of paths, output is on or off afterwards as it was before, through all sections in sections, and
whatever else the sink refuses, a predicate raises or the host cannot answer. -/
theorem Path.navigate_restores [Keyed Node] {setting : Setting Node Leaf Failure}
    (takes : setting.sink.TakesMarks) (path : Path Leaf) (start : List Node) :
    (path.navigate setting start).Restoring := by
  have restoring :=
    (Run.Restoring.traceCongruence takes).run_untraced setting path (.ofList start)
  rw [path.retitled_id] at restoring
  exact restoring

namespace Session

/-- A session with a traced section that has nothing in it, in a context whose sink refuses one of
the lines. -/
def refusedSection (number : Int) : List Command :=
  [.instruction (.context "context" false (.refusing number)),
    .tracing "context" (.text "t") [] none]

/-- Whether trace output is on in the first context of a session. -/
def isTracing (session : Session) : Option Bool :=
  session.contexts[0]?.map Context.active

/-- Whether trace output is on before the refused section and after it. -/
def tracingAround (number : Int) : Option Bool × Option Bool :=
  (isTracing ((runAll ((refusedSection number).take 1)).run {}).2,
    isTracing ((runAll (refusedSection number)).run {}).2)

/-- A section leaves output on if its opening line is refused, and likewise if its closing line
is. -/
theorem refusedSection_leaves_tracing :
    tracingAround 1 = (some false, some true) ∧ tracingAround 2 = (some false, some true) := by
  decide +kernel

end Session

end TreeQuery
