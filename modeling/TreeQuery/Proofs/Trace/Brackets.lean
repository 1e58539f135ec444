import TreeQuery.Proofs.Navigation.Congruence
import TreeQuery.Proofs.Navigation.Steps
import TreeQuery.Proofs.Trace.Nesting

/-! # The brackets of a navigation

Wherever a navigation fails, the lines that it has sent by then are nested as far as the marks of
paths go, and trace output is as it was before. What a run adds to the trace is put together from
what its parts add (`TreeQuery.Run.Bracketing.bind`); a traced section closes its mark in any case,
an exclusion only when the excluded path does not fail
(`TreeQuery.Path.navigate_bracketed`).
-/

namespace TreeQuery

variable {Node Leaf Failure : Type}

namespace Run

/-- What an exclusion does with a sink that takes every line: its body runs after one line, and
unless it fails another line follows. -/
theorem perform_excluding_of_accepts {α : Type} {sink : Sink Failure} (accepts : sink.Accepts)
    (body : Run Node Leaf Failure α) (before : Journal Node Leaf) :
    (excluding sink body).perform before =
      let (outcome, after) := body.perform { before with
        lines := if before.active then .beginExclusion :: before.lines else before.lines }
      match outcome with
      | .error fault => (.error fault, after)
      | .ok value => (.ok value, { after with
          lines := if after.active then .endExclusion :: after.lines else after.lines }) := by
  rw [excluding, perform_bind, perform_send_of_accepts accepts]
  dsimp only
  rw [perform_bind]
  generalize body.perform _ = done
  obtain ⟨outcome, after⟩ := done
  cases outcome with
  | error fault => rfl
  | ok value =>
      dsimp only
      rw [perform_bind, perform_send_of_accepts accepts]
      rfl

/-- What a run that takes one journal to another adds to the trace, in the order sent: lines in which
paths are nested, and exclusions too if the run has finished. Output is on afterwards as it was
before, and if it was off, every line belongs to a section. -/
structure Bracketed (names : String → String) (before after : Journal Node Leaf) (finished : Prop)
    (events : List Line) : Prop where
  lines : after.lines = (events.map (Line.retitled names)).reverse ++ before.lines
  active : after.active = before.active
  paths : Line.PathsNested events
  exclusions : finished → Line.Nested events
  sections : before.active = false → Line.Sectioned events

namespace Bracketed

variable {names : String → String} {before middle after : Journal Node Leaf}
  {events later : List Line}

/-- Nothing is added where lines and output stay the same. -/
theorem nothing {finished : Prop} (lines : after.lines = before.lines)
    (active : after.active = before.active) :
    Bracketed names before after finished [] where
  lines := lines
  active := active
  paths := .nil
  exclusions _ := .nil
  sections _ := .nil

/-- What two runs add one after the other. -/
theorem append {begun finished : Prop} (first : Bracketed names before middle begun events)
    (second : Bracketed names middle after finished later) (done : begun) :
    Bracketed names before after finished (events ++ later) where
  lines := by
    rw [second.lines, first.lines, List.map_append, List.reverse_append, List.append_assoc]
  active := second.active.trans first.active
  paths := first.paths.append second.paths
  exclusions ended := (first.exclusions done).append (second.exclusions ended)
  sections inactive :=
    (first.sections inactive).append (second.sections (first.active.trans inactive))

end Bracketed

/-- A run that brackets what it adds to the trace, from whatever journal. -/
def Bracketing {α : Type} (names : String → String) (computation : Run Node Leaf Failure α) : Prop :=
  ∀ before, ∃ events, Bracketed names before (computation.perform before).2
    (∃ value, (computation.perform before).1 = .ok value) events

namespace Bracketing

variable {α β : Type} {names : String → String} {sink : Sink Failure}

theorem bind {first : Run Node Leaf Failure α} {next : α → Run Node Leaf Failure β}
    (brackets : Bracketing names first) (goes : ∀ value, Bracketing names (next value)) :
    Bracketing names (first >>= next) := by
  intro before
  obtain ⟨events, added⟩ := brackets before
  rw [perform_bind]
  generalize first.perform before = done at added ⊢
  obtain ⟨outcome, middle⟩ := done
  cases outcome with
  | error fault =>
      refine ⟨events, added.lines, added.active, added.paths, ?_, added.sections⟩
      rintro ⟨value, finished⟩
      cases finished
  | ok value =>
      obtain ⟨later, further⟩ := goes value middle
      exact ⟨events ++ later, added.append further ⟨value, rfl⟩⟩

theorem congruence :
    Congruence fun _ (left _ : Run Node Leaf Failure _) => Bracketing names left where
  pure _ _ := ⟨[], .nothing rfl rfl⟩
  throw _ _ := ⟨[], .nothing rfl rfl⟩
  note _ _ := ⟨[], .nothing rfl rfl⟩
  liftExcept outcome := by
    intro before
    rw [perform_liftExcept]
    exact ⟨[], .nothing rfl rfl⟩
  bind := bind

/-- A line without a mark adds itself, or nothing when output is off. -/
theorem send (accepts : sink.Accepts) {line : Line} (untitled : line.retitled names = line)
    (unmarked : line.isExclusion = false) (closed : Line.Nested [line]) :
    Bracketing names (Run.send sink line : Run Node Leaf Failure Unit) := by
  rintro ⟨active, lines, calls⟩
  rw [perform_send_of_accepts accepts]
  cases active with
  | false => exact ⟨[], .nothing rfl rfl⟩
  | true =>
      refine ⟨[line], ?_, rfl, ?_, fun _ => closed, ?_⟩
      · rw [List.map_singleton, untitled]
        rfl
      · rw [Line.PathsNested, List.filter_singleton, unmarked]
        exact closed
      · intro inactive
        cases inactive

/-- An exclusion closes its mark when the excluded path does not fail. -/
theorem excluding (accepts : sink.Accepts) {body : Run Node Leaf Failure α}
    (brackets : Bracketing names body) : Bracketing names (Run.excluding sink body) := by
  rintro ⟨active, lines, calls⟩
  rw [perform_excluding_of_accepts accepts]
  cases active with
  | false =>
      -- Neither line of the exclusion is sent, since the body leaves output off.
      obtain ⟨events, added⟩ := brackets ⟨false, lines, calls⟩
      simp only [Bool.false_eq_true, ↓reduceIte]
      generalize body.perform ⟨false, lines, calls⟩ = done at added ⊢
      obtain ⟨outcome, after⟩ := done
      have quiet : after.active = false := added.active
      cases outcome with
      | error fault => exact ⟨events, added⟩
      | ok value =>
          dsimp only
          rw [quiet, if_neg Bool.false_ne_true]
          exact ⟨events, added.lines, rfl, added.paths, fun _ => added.exclusions ⟨value, rfl⟩,
            added.sections⟩
  | true =>
      obtain ⟨events, added⟩ := brackets ⟨true, .beginExclusion :: lines, calls⟩
      simp only [↓reduceIte]
      generalize body.perform ⟨true, .beginExclusion :: lines, calls⟩ = done at added ⊢
      obtain ⟨outcome, after⟩ := done
      have loud : after.active = true := added.active
      have sent : after.lines = (events.map (Line.retitled names)).reverse ++
        .beginExclusion :: lines := added.lines
      have opened : Line.PathsNested (.beginExclusion :: events) :=
        added.paths.cons_of_isExclusion rfl
      cases outcome with
      | error fault =>
          refine ⟨.beginExclusion :: events, ?_, loud, opened, ?_, ?_⟩
          · simp [sent, Line.retitled]
          · rintro ⟨value, finished⟩
            cases finished
          · intro inactive
            cases inactive
      | ok value =>
          have closed : Line.PathsNested [.endExclusion] := rfl
          refine ⟨.beginExclusion :: events ++ [.endExclusion], ?_, loud, ?_, ?_, ?_⟩
          · simp [loud, sent, Line.retitled]
          · exact opened.append closed
          · intro _
            exact (added.exclusions ⟨value, rfl⟩).exclusion
          · intro inactive
            cases inactive

/-- A traced section closes its mark in any case. -/
theorem traced (accepts : sink.Accepts) (title : String) {body : Run Node Leaf Failure α}
    (brackets : Bracketing names body) :
    Bracketing names (Run.traced sink (names title) body) := by
  intro before
  obtain ⟨events, added⟩ := brackets
    { before with active := true, lines := .beginPath (names title) :: before.lines }
  rw [perform_traced_of_accepts accepts]
  generalize body.perform
    { before with active := true, lines := .beginPath (names title) :: before.lines } = done
    at added ⊢
  obtain ⟨outcome, after⟩ := done
  refine ⟨.beginPath title :: events ++ [.endPath title], ?_, rfl, ?_, ?_, ?_⟩
  · have loud : after.active = true := added.active
    have sent : after.lines = (events.map (Line.retitled names)).reverse ++
      .beginPath (names title) :: before.lines := added.lines
    simp [loud, sent, Line.retitled]
  · exact added.paths.path title
  · intro finished
    exact (added.exclusions finished).path title
  · intro _
    exact .path added.paths title

theorem traceCongruence (accepts : sink.Accepts) (names : String → String) :
    TraceCongruence (fun _ (left _ : Run Node Leaf Failure _) => Bracketing names left)
      sink sink names where
  toCongruence := congruence
  step _ _ := send accepts rfl rfl rfl
  abort := send accepts rfl rfl rfl
  excluding brackets := brackets.excluding accepts
  traced title _ _ brackets := brackets.traced accepts title

end Bracketing

end Run

variable [Keyed Node]

/-- **Trace brackets are nested.** Let the titles of a path tell its traced parts apart, and let
names be given to be shown in their place. Whatever fails on the way, with a sink that takes every
line, navigation adds lines to the trace in which each part that is opened is closed again, the last
opened first; it leaves trace output on or off as it was; if output was off, every line lies in a
traced section; and if nothing fails, exclusions are closed and nested as well. -/
theorem Path.navigate_bracketed {setting : Setting Node Leaf Failure}
    (accepts : setting.sink.Accepts) (path : Path Leaf) (names : String → String)
    (start : List Node) (before : Journal Node Leaf) :
    let done := ((path.retitled names).navigate setting start).perform before
    ∃ events, Run.Bracketed names before done.2 (∃ found, done.1 = .ok found) events := by
  have congruent : Run.TraceCongruence
      (fun _ (left _ : Run Node Leaf Failure _) => Run.Bracketing names left)
      setting.sink setting.sink names := Run.Bracketing.traceCongruence accepts names
  exact congruent.run_untraced setting path (.ofList start) before

end TreeQuery

namespace TreeQuery.Grove

/-- In the grove, with one name shown for all parts of a path that fails. -/
theorem detour_bracketed :
    let done := (((detour (.traced "part")).retitled fun _ => "shown").navigate setting
      [spot 0 "r"]).perform {}
    ∃ events, Run.Bracketed (fun _ => "shown") {} done.2 (∃ found, done.1 = .ok found) events := by
  apply Path.navigate_bracketed
  exact fun _ _ => rfl

end TreeQuery.Grove
