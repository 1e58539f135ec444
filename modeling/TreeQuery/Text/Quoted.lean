import TreeQuery.Text.Printable

/-! # Quoted text

A quoted text stands between single quotes, or between double quotes when it holds a single quote
and no double one. Within it a backslash and the quote that surrounds it are written with a
backslash before them, the three common layout characters by their letters, and any other
character that is not printable by its code point in as few of two, four or eight hexadecimal
digits as hold it.
-/

namespace TreeQuery.Text

/-- A number in lower-case hexadecimal, filled with zeros on the left up to a width. -/
def hexadecimal (width number : Nat) : List Char :=
  let digits := Nat.toDigits 16 number
  List.replicate (width - digits.length) '0' ++ digits

/-- The code point of a character, written with the shortest of the three numeric escapes. -/
def numericEscape (character : Char) : List Char :=
  let point := character.toNat
  if point < 0x100 then '\\' :: 'x' :: hexadecimal 2 point
  else if point < 0x10000 then '\\' :: 'u' :: hexadecimal 4 point
  else '\\' :: 'U' :: hexadecimal 8 point

/-- One character as it stands inside a text that the given quote surrounds. -/
def quoteChar (quote character : Char) : List Char :=
  if character = '\\' ∨ character = quote then ['\\', character]
  else if character = '\n' then ['\\', 'n']
  else if character = '\r' then ['\\', 'r']
  else if character = '\t' then ['\\', 't']
  else if isPrintable character then [character]
  else numericEscape character

/-- The quote that surrounds a text: the single one, unless the text holds it and not the other. -/
def quoteFor (characters : List Char) : Char :=
  if '\'' ∈ characters ∧ '"' ∉ characters then '"' else '\''

/-- A text between quotes, with everything escaped that would not read as itself there. -/
def quoted (text : String) : String :=
  let characters := text.toList
  let quote := quoteFor characters
  String.ofList (quote :: characters.flatMap (quoteChar quote) ++ [quote])

end TreeQuery.Text
