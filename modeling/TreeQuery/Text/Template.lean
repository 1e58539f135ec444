import TreeQuery.Value

/-! # Templates

A template is a text with places for arguments: `%s` takes an argument as it is shown in a message,
`%d` takes a number cut down to a whole one, and `%%` stands for a percent sign. The places take the
arguments in order, and every argument has to be taken.
-/

namespace TreeQuery.Text

/-- Why a template could not be filled. -/
inductive TemplateError where
  | tooFewArguments
  | tooManyArguments
  | notANumber (typeName : String)
  | incomplete
  | unknownPlace (character : Char)
  deriving DecidableEq, Repr

def TemplateError.message : TemplateError → String
  | tooFewArguments => "not enough arguments for format string"
  | tooManyArguments => "not all arguments converted during string formatting"
  | notANumber typeName => "%d format: a real number is required, not " ++ typeName
  | incomplete => "incomplete format"
  | unknownPlace character =>
      "unsupported format character " ++ quoted (String.singleton character)

/-- The whole number that a place for a number shows for a value. -/
def wholePart? : Value → Option Int
  | .real bits => some (Decimal.Binary.ofBits bits).truncate
  | value => value.int?

/-- Fills the places of a template from left to right. -/
def fillPlaces (object : Place → String) :
    List Char → List Value → Except TemplateError (List Char)
  | [], [] => .ok []
  | [], _ :: _ => .error .tooManyArguments
  | '%' :: '%' :: rest, arguments => ('%' :: ·) <$> fillPlaces object rest arguments
  | '%' :: 's' :: _, [] | '%' :: 'd' :: _, [] => .error .tooFewArguments
  | '%' :: 's' :: rest, argument :: arguments =>
      ((argument.shown object).toList ++ ·) <$> fillPlaces object rest arguments
  | '%' :: 'd' :: rest, argument :: arguments => match wholePart? argument with
      | some whole => ((toString whole).toList ++ ·) <$> fillPlaces object rest arguments
      | none => .error (.notANumber (argument.typeName object))
  | '%' :: other :: _, _ => .error (.unknownPlace other)
  | ['%'], _ => .error .incomplete
  | character :: rest, arguments => (character :: ·) <$> fillPlaces object rest arguments

/-- A template with its places filled, or as it stands when there is nothing to fill in. -/
def fill (object : Place → String) (template : String) (arguments : List Value) :
    Except TemplateError String :=
  if arguments.isEmpty then .ok template
  else String.ofList <$> fillPlaces object template.toList arguments

end TreeQuery.Text
