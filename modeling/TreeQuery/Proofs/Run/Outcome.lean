import TreeQuery.Trace

/-! # Outcomes of runs

Most runs end in the same way whatever their journal: `TreeQuery.Run.Ends` says so and names the
outcome, and outcomes compose as runs do. A run that settles ends without a fault on a value of
which something is known. Trace output gets in the way only through a sink that refuses a line, so
with a sink that takes every line a traced section ends as its body does
(`TreeQuery.Run.Ends.traced`).
-/

namespace TreeQuery

/-- A sink that takes every line. -/
def Sink.Accepts {Failure : Type} (sink : Sink Failure) : Prop :=
  ∀ earlier line, sink earlier line = none

namespace Run

variable {Node Leaf Failure : Type} {α β : Type}

/-- A line goes to a sink that takes it only while trace output is on. -/
theorem perform_send_of_accepts {sink : Sink Failure} (accepts : sink.Accepts) (line : Line)
    (journal : Journal Node Leaf) :
    (send sink line : Run Node Leaf Failure Unit).perform journal =
      (.ok (), { journal with
        lines := if journal.active then line :: journal.lines else journal.lines }) := by
  rcases journal with ⟨_ | _, lines, calls⟩
  · exact perform_send_of_inactive sink line rfl
  · rw [perform_send_of_active sink line rfl, accepts]
    rfl

/-- What a traced section does with a sink that takes every line: its body runs with output on and
between two lines, and the switch goes back to where it was. -/
theorem perform_traced_of_accepts {sink : Sink Failure} (accepts : sink.Accepts) (title : String)
    (body : Run Node Leaf Failure α) (journal : Journal Node Leaf) :
    (traced sink title body).perform journal =
      let (outcome, later) := body.perform
        { journal with active := true, lines := .beginPath title :: journal.lines }
      (outcome, { later with
        active := journal.active
        lines := if later.active then .endPath title :: later.lines else later.lines }) := by
  rw [perform_traced, perform_send_of_accepts accepts]
  simp only [perform_ensuring, leave, perform_bind, perform_send_of_accepts accepts,
    perform_switch, ↓reduceIte]

/-- An outcome that is there already is reached without touching the journal. -/
@[simp] theorem perform_liftExcept (outcome : Except (Fault Failure) α)
    (journal : Journal Node Leaf) :
    (liftM outcome : Run Node Leaf Failure α).perform journal = (outcome, journal) := by
  cases outcome <;> rfl

/-- A run that ends in one way, whatever its journal. -/
def Ends (computation : Run Node Leaf Failure α) (outcome : Except (Fault Failure) α) : Prop :=
  ∀ journal, (computation.perform journal).1 = outcome

namespace Ends

theorem pure (value : α) : Ends (Pure.pure value : Run Node Leaf Failure α) (.ok value) :=
  fun _ => rfl

/-- Noting a call cannot fail. -/
theorem note (call : Call Node Leaf) :
    Ends (Run.note call : Run Node Leaf Failure Unit) (.ok ()) :=
  fun _ => rfl

theorem liftExcept (outcome : Except (Fault Failure) α) :
    Ends (liftM outcome : Run Node Leaf Failure α) outcome := by
  intro journal
  rw [perform_liftExcept]

/-- A line to a sink that takes all lines cannot fail. -/
theorem send {sink : Sink Failure} (accepts : sink.Accepts) (line : Line) :
    Ends (Run.send sink line : Run Node Leaf Failure Unit) (.ok ()) := by
  intro journal
  rw [perform_send_of_accepts accepts]

/-- After a first part that ends on a value, a run ends as it goes on from there. -/
theorem bind_ok {first : Run Node Leaf Failure α} {next : α → Run Node Leaf Failure β} {value : α}
    {outcome : Except (Fault Failure) β} (ends : Ends first (.ok value))
    (goes : Ends (next value) outcome) : Ends (first >>= next) outcome := by
  intro journal
  have ended := ends journal
  rw [perform_bind]
  generalize first.perform journal = done at ended
  rcases done with ⟨_, later⟩
  cases ended
  exact goes later

/-- After a fault nothing else decides how a run ends. -/
theorem bind_error {first : Run Node Leaf Failure α} (next : α → Run Node Leaf Failure β)
    {fault : Fault Failure} (ends : Ends first (.error fault)) :
    Ends (first >>= next) (.error fault) := by
  intro journal
  have ended := ends journal
  rw [perform_bind]
  generalize first.perform journal = done at ended
  rcases done with ⟨_, later⟩
  cases ended
  rfl

/-- Runs one after the other end like their outcomes one after the other. -/
theorem bind {first : Run Node Leaf Failure α} {next : α → Run Node Leaf Failure β}
    {outcome : Except (Fault Failure) α} {result : α → Except (Fault Failure) β}
    (ends : Ends first outcome) (goes : ∀ value, Ends (next value) (result value)) :
    Ends (first >>= next) (outcome >>= result) := by
  cases outcome with
  | error fault => exact bind_error next ends
  | ok value => exact bind_ok ends (goes value)

theorem map {computation : Run Node Leaf Failure α} {outcome : Except (Fault Failure) α}
    (change : α → β) (ends : Ends computation outcome) :
    Ends (change <$> computation) (change <$> outcome) := by
  rw [map_eq_pure_bind]
  cases outcome with
  | error fault => exact bind_error _ ends
  | ok value => exact bind_ok ends (pure _)

/-- A traced section ends as its body does. -/
theorem traced {sink : Sink Failure} (accepts : sink.Accepts) (title : String)
    {body : Run Node Leaf Failure α} {outcome : Except (Fault Failure) α}
    (ends : Ends body outcome) : Ends (Run.traced sink title body) outcome := by
  intro journal
  rw [perform_traced_of_accepts accepts]
  exact ends _

/-- Elements without a fault among them end on the list of their values. -/
theorem mapM_ok {elements : List α} {computation : α → Run Node Leaf Failure β} {value : α → β}
    (ends : ∀ element ∈ elements, Ends (computation element) (.ok (value element))) :
    Ends (elements.mapM computation) (.ok (elements.map value)) := by
  induction elements with
  | nil =>
      rw [List.mapM_nil]
      exact pure []
  | cons element rest ih =>
      rw [List.mapM_cons]
      have later := ih fun other member => ends other (List.mem_cons_of_mem _ member)
      exact bind_ok (ends element List.mem_cons_self) (bind_ok later (pure _))

end Ends

/-- A run that ends without a fault, whatever its journal, on a value as expected. -/
def Settles (computation : Run Node Leaf Failure α) (expected : α → Prop) : Prop :=
  ∃ value, computation.Ends (.ok value) ∧ expected value

namespace Settles

variable {expected : α → Prop} {desired : β → Prop}

theorem pure {value : α} (holds : expected value) :
    Settles (Pure.pure value : Run Node Leaf Failure α) expected :=
  ⟨value, .pure value, holds⟩

theorem mono {computation : Run Node Leaf Failure α} {weaker : α → Prop}
    (settles : Settles computation expected) (weaken : ∀ value, expected value → weaker value) :
    Settles computation weaker := by
  obtain ⟨value, ends, holds⟩ := settles
  exact ⟨value, ends, weaken value holds⟩

/-- Runs without a fault one after the other have none. -/
theorem bind {first : Run Node Leaf Failure α} {next : α → Run Node Leaf Failure β}
    (settles : Settles first expected)
    (goes : ∀ value, expected value → Settles (next value) desired) :
    Settles (first >>= next) desired := by
  obtain ⟨value, ends, holds⟩ := settles
  obtain ⟨result, later, fits⟩ := goes value holds
  exact ⟨result, ends.bind_ok later, fits⟩

/-- A line on the way to a sink that takes it changes nothing about what a run settles on. -/
theorem after_send {sink : Sink Failure} (accepts : sink.Accepts) (line : Line)
    {next : Run Node Leaf Failure β} (goes : Settles next desired) :
    Settles (do Run.send sink line; next) desired := by
  obtain ⟨result, later, fits⟩ := goes
  exact ⟨result, (Ends.send accepts line).bind_ok later, fits⟩

end Settles

end Run

end TreeQuery
