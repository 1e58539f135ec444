import TreeQuery.Value

/-! # Configurations

A configuration says where trace lines go and which adapter a navigation uses when none is given.
Its fields are filled in freely and may hold anything, so a configuration is checked before it is
used, and all that is wrong with it is reported at once. Without a sink of their own trace lines go
to the logger with the configured name. A logger name only has to be nonempty to pass the check, but
a logger can be had only for a name that is a text.
-/

namespace TreeQuery

/-- What stands in the place of a sink: nothing, a sink object, or a value that takes no lines. -/
inductive SinkField where
  | absent
  | sink (index : Nat)
  | value (value : Value)
  deriving Repr

structure TraceOptions where
  loggerName : Value := .text "nodepathlib.trace"
  level : Value := .int 20
  sink : SinkField := .absent
  deriving Repr

/-- What stands in the place of the trace settings. -/
inductive TraceField where
  | options (options : TraceOptions)
  | value (value : Value)
  deriving Repr

/-- What an adapter has to be able to do for a configuration to accept it. -/
inductive Capability where
  | children
  | parent
  deriving DecidableEq, Repr

/-- A configuration over adapters of some type. -/
structure Config (Adapter : Type) where
  trace : TraceField := .options {}
  adapter? : Option Adapter := none
  deriving Repr

/-- What may be wrong with a configuration. -/
inductive ConfigProblem where
  | traceIsNoOptions
  | loggerNameEmpty
  | levelNoLevel
  | sinkTakesNoLines
  | adapterLacks (capability : Capability)
  deriving DecidableEq, Repr

def ConfigProblem.message : ConfigProblem → String
  | traceIsNoOptions => "trace must be a TraceConfig"
  | loggerNameEmpty => "trace.logger_name cannot be empty"
  | levelNoLevel => "trace.level must be a non-negative logging level"
  | sinkTakesNoLines => "trace.sink must be callable"
  | adapterLacks .children => "adapter is missing get_children()"
  | adapterLacks .parent => "adapter is missing get_parent()"

def ConfigProblem.summary (problems : List ConfigProblem) : String :=
  "Invalid configuration: " ++ "; ".intercalate (problems.map message)

inductive SinkTarget where
  | sink (index : Nat)
  | logger (name : String) (level : Value)
  | unusable (value : Value)
  deriving Repr

/-- A logger was wanted under a name that is no text. -/
inductive LoggerNameError where
  | notText
  deriving DecidableEq, Repr

namespace TraceOptions

/-- The problems of trace settings: an empty name, a level that is no whole number from zero on,
and a sink that takes no lines. -/
def problems (options : TraceOptions) : List ConfigProblem :=
  (if options.loggerName.truthy then [] else [.loggerNameEmpty]) ++
  (if options.level.int?.any (0 ≤ ·) then [] else [.levelNoLevel]) ++
  (match options.sink with
    | .value _ => [.sinkTakesNoLines]
    | _ => [])

/-- Where the lines go: to the sink if one is set, and else to the logger. An empty name stands for
the root of all loggers. -/
def target (options : TraceOptions) : Except LoggerNameError SinkTarget :=
  match options.sink with
  | .sink index => .ok (.sink index)
  | .value value => .ok (.unusable value)
  | .absent =>
      if !options.loggerName.truthy then .ok (.logger "root" options.level)
      else match options.loggerName.text? with
        | some name => .ok (.logger name options.level)
        | none => .error .notText

end TraceOptions

namespace Config

variable {Adapter : Type}

/-- The problems of a configuration, in the order in which they are reported. Without proper trace
settings nothing else is looked at. -/
def problems (provides : Adapter → Capability → Bool) (config : Config Adapter) :
    List ConfigProblem :=
  match config.trace with
  | .value _ => [.traceIsNoOptions]
  | .options options =>
      options.problems ++ match config.adapter? with
        | none => []
        | some adapter =>
            ([.children, .parent].filter (!provides adapter ·)).map .adapterLacks

/-- Why a navigation could not start with a configuration. -/
inductive StartError where
  | invalid (problems : List ConfigProblem)
  | loggerName
  deriving DecidableEq, Repr

/-- Checks a configuration and picks what a navigation runs with: the adapter given with the
navigation, else the configured one, else the standard one, and the target of trace lines. -/
def start (provides : Adapter → Capability → Bool) (standard : Adapter) (config : Config Adapter)
    (given? : Option Adapter) : Except StartError (Adapter × SinkTarget) :=
  match config.problems provides, config.trace with
  | [], .options options => match options.target with
      | .ok target => .ok ((given?.or config.adapter?).getD standard, target)
      | .error .notText => .error .loggerName
  | problems, _ => .error (.invalid problems)

end Config

end TreeQuery
