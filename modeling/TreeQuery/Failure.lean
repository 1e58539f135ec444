import TreeQuery.Collections
import TreeQuery.Config
import TreeQuery.Host
import TreeQuery.Path.Store
import TreeQuery.Text.Template

/-! # Failures

What may go wrong while trees are built and queried, by its cause, and the message of each cause.
A failure of a host is passed on as it is.
-/

namespace TreeQuery

/-- The kinds of failure that a host may bring up. -/
inductive HostFailure where
  | missingKey
  | badValue
  | runtime
  | lookup
  | path
  deriving DecidableEq, Repr

/-- The causes of failures. Values are named by their types or by their written forms. -/
inductive Failure where
  | host (kind : HostFailure) (message : String)
  | hostChild (number : Int)
  | unusableStep (step : String)
  | axisMismatch (left right : String)
  | composition (cause : UnsupportedComposition)
  | unhashable (typeName : String)
  | notText (index : Nat) (typeName : String)
  | notIterable (typeName : String)
  | notCallable (typeName : String)
  | noAttribute (typeName name : String)
  | noOperator (sign left right : String)
  | noNegation (typeName : String)
  | alreadyAttached (child parent : String)
  | collection (cause : CollectionError)
  | configuration (problems : List ConfigProblem)
  | loggerName
  | logLevel
  | sinkRefused
  | template (cause : Text.TemplateError)
  | invalidPattern
  | unknownName (name : String)
  deriving DecidableEq, Repr

/-- The message of a failure, which for a refused composition is that of its cause. -/
def Failure.message : Failure → String
  | host _ message => message
  | hostChild number => "host child " ++ toString number
  | unusableStep step => "cannot use " ++ step ++ " as a path step"
  | axisMismatch left right => axisMismatchMessage left right
  | composition cause => cause.message
  | unhashable typeName => "unhashable type: '" ++ typeName ++ "'"
  | notText index typeName =>
      "sequence item " ++ toString index ++ ": expected str instance, " ++ typeName ++ " found"
  | notIterable typeName => "'" ++ typeName ++ "' object is not iterable"
  | notCallable typeName => "'" ++ typeName ++ "' object is not callable"
  | noAttribute typeName name =>
      "'" ++ typeName ++ "' object has no attribute '" ++ name ++ "'"
  | noOperator sign left right =>
      "unsupported operand type(s) for " ++ sign ++ ": '" ++ left ++ "' and '" ++ right ++ "'"
  | noNegation typeName => "bad operand type for unary ~: '" ++ typeName ++ "'"
  | alreadyAttached child parent => child ++ " is already attached to " ++ parent
  | collection cause => cause.message
  | configuration problems => ConfigProblem.summary problems
  | loggerName => "A logger name must be a string"
  | logLevel => "level must be an integer"
  | sinkRefused => "sink failure"
  | template cause => cause.message
  | invalidPattern => ""
  | unknownName name => Text.quoted name

/-- The message of a fault. The end signal itself says nothing. -/
def Fault.message : Fault Failure → String
  | raised failure => failure.message
  | missingStep index => "path step [" ++ toString index ++ "] is None"
  | exhausted => "the search was given up"
  | endSignal => ""
  | strayEndSignal => "generator raised StopIteration"

end TreeQuery
