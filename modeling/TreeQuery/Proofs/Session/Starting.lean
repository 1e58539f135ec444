import TreeQuery.Proofs.Session.Quiet
import TreeQuery.Session.Query

/-! # How navigations start

A navigation checks its configuration before it builds its context. A configuration in which the
check finds anything is refused as a whole, with all that was found in the message. One that passes
the check leads to a context in which lines can be sent and nodes can be asked about, unless lines
would go to a logger whose name is no text: the check only looks whether there is a name, and
whether a logger can have it shows when the logger is wanted. Nothing else can go wrong while a
context is built (`TreeQuery.Session.runPath_starts`).
-/

namespace TreeQuery

/-- A text among others stands in what they are joined to. -/
theorem exists_intercalate_eq {text : String} {texts : List String} (separator : String)
    (member : text ∈ texts) :
    ∃ before after, separator.intercalate texts = before ++ text ++ after := by
  induction texts with
  | nil => exact nomatch member
  | cons head rest ih =>
      cases rest with
      | nil =>
          obtain rfl := List.mem_singleton.mp member
          exact ⟨"", "", by simp⟩
      | cons next rest =>
          rw [String.intercalate_cons_cons]
          rcases List.mem_cons.mp member with rfl | later
          · exact ⟨"", separator ++ separator.intercalate (next :: rest), by
              simp [String.append_assoc]⟩
          · obtain ⟨before, after, same⟩ := ih later
            exact ⟨head ++ separator ++ before, after, by simp [same, String.append_assoc]⟩

/-- A refusal tells about every problem that was found. -/
theorem ConfigProblem.exists_summary_eq {problem : ConfigProblem} {problems : List ConfigProblem}
    (found : problem ∈ problems) :
    ∃ before after, summary problems = before ++ problem.message ++ after := by
  have told : problem.message ∈ problems.map message := List.mem_map_of_mem found
  obtain ⟨before, after, same⟩ := exists_intercalate_eq "; " told
  refine ⟨"Invalid configuration: " ++ before, after, ?_⟩
  calc summary problems
    _ = "Invalid configuration: " ++ (before ++ problem.message ++ after) :=
        congrArg ("Invalid configuration: " ++ ·) same
    _ = "Invalid configuration: " ++ before ++ problem.message ++ after := by
        simp only [String.append_assoc]

/-- A target to which lines can be sent: an object that keeps them, or a logger with a level. -/
def SinkTarget.TakesLines : SinkTarget → Prop
  | sink _ => True
  | logger _ level => ∃ number, level.int? = some number ∧ 0 ≤ number
  | unusable _ => False

namespace TraceOptions

variable {options : TraceOptions}

/-- The lines would go to a logger, and what is to be its name is no text. -/
def Nameless (options : TraceOptions) : Prop :=
  options.sink = .absent ∧ options.loggerName.text? = none

/-- Trace settings pass the check if there is a name, a level, and no sink that takes no lines. -/
theorem problems_eq_nil_iff : options.problems = [] ↔
    options.loggerName.truthy = true ∧ (∃ number, options.level.int? = some number ∧ 0 ≤ number) ∧
      ∀ value, options.sink ≠ .value value := by
  unfold problems
  rw [List.append_eq_nil_iff, List.append_eq_nil_iff, and_assoc]
  refine and_congr ?_ (and_congr ?_ ?_)
  · simp
  · cases options.level.int? <;> simp
  · cases options.sink <;> simp

/-- Trace settings that pass the check fail to have a target only if there is no text to name a
logger with. -/
theorem target_eq_error_iff (accepted : options.problems = []) :
    options.target = .error .notText ↔ options.Nameless := by
  obtain ⟨named, -, -⟩ := problems_eq_nil_iff.mp accepted
  unfold target Nameless
  cases options.sink with
  | absent => cases options.loggerName.text? <;> simp [named]
  | sink index => simp
  | value value => simp

/-- Lines can be sent to the target of trace settings that pass the check. -/
theorem target_takesLines {target : SinkTarget} (accepted : options.problems = [])
    (found : options.target = .ok target) : target.TakesLines := by
  obtain ⟨named, leveled, taken⟩ := problems_eq_nil_iff.mp accepted
  unfold TraceOptions.target at found
  cases sinkIs : options.sink with
  | absent =>
      rw [sinkIs] at found
      cases nameIs : options.loggerName.text? with
      | none => simp [named, nameIs] at found
      | some name =>
          obtain rfl : SinkTarget.logger name options.level = target := by
            simpa [named, nameIs] using found
          exact leveled
  | sink index =>
      obtain rfl : SinkTarget.sink index = target := by simpa [sinkIs] using found
      trivial
  | value value => exact absurd sinkIs (taken value)

end TraceOptions

namespace Config

variable {Adapter : Type} {provides : Adapter → Capability → Bool} {config : Config Adapter}

/-- The configured trace settings lead to a logger, and what is to be its name is no text. -/
def Nameless (config : Config Adapter) : Prop :=
  ∃ options, config.trace = .options options ∧ options.Nameless

/-- A configuration passes the check if there are trace settings that do, and the adapter provides
what is asked of adapters. -/
theorem problems_eq_nil_iff : config.problems provides = [] ↔
    (∃ options, config.trace = .options options ∧ options.problems = []) ∧
      ∀ adapter, config.adapter? = some adapter →
        ∀ capability, provides adapter capability = true := by
  unfold problems
  cases config.trace with
  | value value => simp
  | options options =>
      cases config.adapter? with
      | none => simp
      | some adapter =>
          have both : (∀ capability, provides adapter capability = true) ↔
              provides adapter .children = true ∧ provides adapter .parent = true :=
            ⟨fun all => ⟨all _, all _⟩, fun both capability => by cases capability <;> tauto⟩
          simp [both]

theorem start_of_problems {standard : Adapter} {given? : Option Adapter}
    (found : config.problems provides ≠ []) :
    config.start provides standard given? = .error (.invalid (config.problems provides)) := by
  unfold start
  split
  · next accepted _ => exact absurd accepted found
  · rfl

/-- A configuration that passes the check does not start if there is no text to name its logger
with. -/
theorem start_of_nameless {standard : Adapter} {given? : Option Adapter}
    (accepted : config.problems provides = []) (nameless : config.Nameless) :
    config.start provides standard given? = .error .loggerName := by
  obtain ⟨options, set, nameless⟩ := nameless
  obtain ⟨⟨_, same, passed⟩, -⟩ := problems_eq_nil_iff.mp accepted
  obtain rfl : options = _ := by simpa [set] using same
  unfold start
  rw [accepted, set]
  simp only [(TraceOptions.target_eq_error_iff passed).mpr nameless]

/-- Any other configuration that passes the check starts, with a target to which lines can be
sent. -/
theorem start_of_accepted (standard : Adapter) (given? : Option Adapter)
    (accepted : config.problems provides = []) (named : ¬ config.Nameless) :
    ∃ options target, config.trace = .options options ∧ options.target = .ok target ∧
      target.TakesLines ∧ config.start provides standard given? =
        .ok ((given?.or config.adapter?).getD standard, target) := by
  obtain ⟨⟨options, set, passed⟩, -⟩ := problems_eq_nil_iff.mp accepted
  cases found : options.target with
  | error cause =>
      exact absurd ⟨options, set, (TraceOptions.target_eq_error_iff passed).mp found⟩ named
  | ok target =>
      refine ⟨options, target, set, found, TraceOptions.target_takesLines passed found, ?_⟩
      unfold start
      rw [accepted, set]
      simp only [found]

/-- The adapter that a navigation picks from a configuration that passes the check provides what is
asked of adapters. -/
theorem adapter_provides {standard : Adapter} {capability : Capability}
    (complete : provides standard capability = true) (accepted : config.problems provides = []) :
    provides (config.adapter?.getD standard) capability = true := by
  obtain ⟨-, equipped⟩ := problems_eq_nil_iff.mp accepted
  cases chosen : config.adapter? with
  | none => exact complete
  | some adapter => exact equipped adapter chosen capability

end Config

namespace Session

/-- Where lines can be sent, a line is refused only by an object that keeps lines. -/
theorem sink_of_takesLines {target : SinkTarget} (session : Session) (takes : target.TakesLines)
    (earlier : List Line) (line : Line) :
    session.sink target earlier line = none ∨
      session.sink target earlier line = some .sinkRefused := by
  cases target with
  | sink index =>
      simp only [sink, LineKeeper.sink]
      split <;> simp
  | logger name level =>
      obtain ⟨number, same, -⟩ := takes
      simp [sink, same]
  | unusable value => exact takes.elim

/-- What a navigation does once it has its adapter and its target. -/
def runWith (adapter : Operand) (target : SinkTarget) (path : Nat) (start : NodeSource Value) :
    Act (SinkTarget × RunResult (Collections Value × Nat)) := do
  let source ← finished (← admitted start) start
  let session ← get
  let setting := session.setting (session.adapterOf adapter) target
  let program := session.paths.program setting patience path
  let result ← runEngine false target (session.collections.navigate program source)
  return (target, result)

theorem perform_runPath (session : Session) (config : Config Operand) (given? : Option Operand)
    (path : Nat) (start : NodeSource Value) :
    (runPath config given? path start).perform session =
      match config.start session.provides (.object (.adapter 0 .standard)) given? with
      | .error (.invalid problems) => (.error (.raised (.configuration problems)), session)
      | .error .loggerName => (.error (.raised .loggerName), session)
      | .ok (adapter, target) => (runWith adapter target path start).perform session := by
  unfold runPath
  rw [perform_get_bind]
  cases config.start session.provides (.object (.adapter 0 .standard)) given? with
  | error cause => cases cause <;> rfl
  | ok context => rfl

/-- **A navigation starts unless its configuration has problems or its logger no name.** A
navigation to which no adapter is given refuses a configuration in which the check finds problems:
it tells about each of them and leaves the session as it was. If the check finds none, it goes on
with the configured adapter or the standard one, which provides what is asked of adapters, and with
a target to which lines can be sent, unless lines would go to a logger and there is no text to name
it with. Then it fails for want of the name, and the session is as it was. -/
theorem runPath_starts (session : Session) (config : Config Operand) (path : Nat)
    (start : NodeSource Value) :
    (config.problems session.provides ≠ [] →
      (runPath config none path start).perform session =
          (.error (.raised (.configuration (config.problems session.provides))), session) ∧
        ∀ problem ∈ config.problems session.provides, ∃ before after,
          (Failure.configuration (config.problems session.provides)).message =
            before ++ problem.message ++ after) ∧
    (config.problems session.provides = [] → config.Nameless →
      (runPath config none path start).perform session = (.error (.raised .loggerName), session)) ∧
    (config.problems session.provides = [] → ¬ config.Nameless →
      ∃ options target adapter, config.trace = .options options ∧ options.target = .ok target ∧
        adapter = config.adapter?.getD (.object (.adapter 0 .standard)) ∧
        (∀ capability, session.provides adapter capability = true) ∧
        (∀ earlier line, session.sink target earlier line = none ∨
          session.sink target earlier line = some .sinkRefused) ∧
        (runPath config none path start).perform session =
          (runWith adapter target path start).perform session) := by
  rw [perform_runPath]
  refine ⟨fun found => ⟨?_, fun problem member => ConfigProblem.exists_summary_eq member⟩, ?_, ?_⟩
  · rw [Config.start_of_problems found]
  · intro accepted nameless
    rw [Config.start_of_nameless accepted nameless]
  · intro accepted named
    obtain ⟨options, target, set, found, takes, starts⟩ :=
      Config.start_of_accepted (.object (.adapter 0 .standard)) none accepted named
    refine ⟨options, target, _, set, found, rfl, fun capability => ?_,
      session.sink_of_takesLines takes, ?_⟩
    · exact Config.adapter_provides (by cases capability <;> rfl) accepted
    · rw [starts, Option.none_or]

section Settings

/-- Trace settings in which nothing is right, and a number in the place of the adapter. -/
def garbled : Config Operand where
  trace := .options { loggerName := .text "", level := .text "high", sink := .value (.int 3) }
  adapter? := some (.object (.value (.int 7)))

/-- Trace settings with a number as the name of the logger, and with a sink or without one. -/
def numbered (sink : SinkField) : Config Operand where
  trace := .options { loggerName := .int 5, sink }

theorem garbled_problems : garbled.problems (provides {}) =
    [.loggerNameEmpty, .levelNoLevel, .sinkTakesNoLines, .adapterLacks .children,
      .adapterLacks .parent] := by
  decide

/-- All five problems of the first configuration are told. A number names no logger, but with a sink
there is no need for a logger. -/
theorem garbled_and_numbered_start :
    (∀ problem ∈ garbled.problems (provides {}), ∃ before after,
      (Failure.configuration (garbled.problems (provides {}))).message =
        before ++ problem.message ++ after) ∧
    (runPath (numbered .absent) none 0 (.list [])).perform {} = (.error (.raised .loggerName), {}) ∧
    (∃ options target adapter, (numbered (.sink 0)).trace = .options options ∧
      options.target = .ok target ∧ adapter = .object (.adapter 0 .standard) ∧
      (∀ capability, provides {} adapter capability = true) ∧
      (∀ earlier line, sink {} target earlier line = none ∨
        sink {} target earlier line = some .sinkRefused) ∧
      (runPath (numbered (.sink 0)) none 0 (.list [])).perform {} =
        (runWith adapter target 0 (.list [])).perform {}) := by
  refine ⟨?_, ?_, ?_⟩
  · exact ((runPath_starts {} garbled 0 (.list [])).1 (by rw [garbled_problems]; nofun)).2
  · exact (runPath_starts {} (numbered .absent) 0 (.list [])).2.1 (by decide) ⟨_, rfl, rfl, rfl⟩
  · refine (runPath_starts {} (numbered (.sink 0)) 0 (.list [])).2.2 (by decide) ?_
    rintro ⟨_, set, sinkless, -⟩
    cases set
    exact nomatch sinkless

/-- A configuration with a number as the name of the logger passes the check, and no navigation
starts with it. -/
theorem numbered_accepted_and_unusable :
    (numbered .absent).problems (provides {}) = [] ∧
      ∀ path start, (runPath (numbered .absent) none path start).perform {} =
        (.error (.raised .loggerName), {}) := by
  refine ⟨by decide, fun path start => ?_⟩
  rw [perform_runPath]
  rfl

end Settings

end Session

end TreeQuery
