/-! # Literals

A literal is a constant of which only the written form is known: a decimal fraction, an imaginary
number, an ellipsis, or a text of bytes between quotes with a `b` in front. Its type, its truth and
the bytes that it holds are read off that form.
-/

namespace TreeQuery.Literal

def isBytes (written : String) : Bool :=
  written.startsWith "b'" || written.startsWith "b\""

/-- The type name of a literal, told by the way it is written. -/
def typeName (written : String) : String :=
  if written = "Ellipsis" then "ellipsis"
  else if isBytes written then "bytes"
  else if written.endsWith "j" || written.endsWith "j)" then "complex"
  else "float"

def hexadecimalDigit (digit : Char) : Nat :=
  if digit.isDigit then digit.toNat - 48
  else if 'a' ≤ digit then digit.toNat - 87 else digit.toNat - 55

/-- The bytes that the characters between the quotes stand for. A backslash is followed by a letter
for a layout character, by an `x` and two digits, or by a character that stands for itself. -/
def readBytes : List Char → List Nat
  | [] => []
  | '\\' :: 'x' :: high :: low :: rest =>
      (hexadecimalDigit high * 16 + hexadecimalDigit low) :: readBytes rest
  | '\\' :: 'n' :: rest => 10 :: readBytes rest
  | '\\' :: 'r' :: rest => 13 :: readBytes rest
  | '\\' :: 't' :: rest => 9 :: readBytes rest
  | '\\' :: other :: rest => other.toNat :: readBytes rest
  | character :: rest => character.toNat :: readBytes rest

def bytes? (written : String) : Option (List Nat) :=
  if isBytes written then some (readBytes (written.toList.drop 2).dropLast) else none

/-- Whether the digits of a number before its exponent are all zero. A form without digits is no
number. -/
def isZero (written : String) : Bool :=
  let digits := (written.toList.takeWhile fun character => character ≠ 'e').filter Char.isDigit
  !digits.isEmpty && digits.all fun digit => digit = '0'

/-- The truth of a literal: zero and a text without bytes are false. -/
def truthy (written : String) : Bool :=
  match bytes? written with
  | some bytes => !bytes.isEmpty
  | none => !isZero written

/-- Whether all occurrences of a literal are one object. There is one ellipsis, and one text for
each byte and for no byte. -/
def isUnique (written : String) : Bool :=
  match bytes? written with
  | some bytes => bytes.length ≤ 1
  | none => written = "Ellipsis"

end TreeQuery.Literal
