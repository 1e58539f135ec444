import TreeQuery.Pattern.Basic

/-! # Reading patterns

A pattern is written as a text: `.` stands for any character but a line break, `^` and `$` for the
start and the end, brackets for a class, parentheses for a group, a bar for a choice and `*`, `+`,
`?` and counts in braces for repetition. The text is cut into tokens first. A stack of open groups
then takes the tokens one by one. A text that is not a pattern is refused: one with a bracket or a
group left open or a parenthesis too many, with nothing in front of a repetition, with bounds in the
wrong order, with two groups of one name or with a backslash that escapes nothing.
-/

namespace TreeQuery.Pattern

inductive Token where
  | atom (pattern : Pattern)
  | assertion (anchor : Anchor)
  | repetition (least : Nat) (most? : Option Nat)
  | openGroup (name? : Option String)
  | closeGroup
  | bar
  deriving Repr

/-- The class or the character that an escaped letter or sign stands for, inside brackets and
outside. A letter that stands for nothing may not be escaped. -/
def escaped? : Char → Option ClassItem
  | 'd' => some (.digit false)
  | 'D' => some (.digit true)
  | 'w' => some (.word false)
  | 'W' => some (.word true)
  | 's' => some (.blank false)
  | 'S' => some (.blank true)
  | 'n' => some (.range '\n' '\n')
  | 'r' => some (.range '\r' '\r')
  | 't' => some (.range '\t' '\t')
  | 'a' => some (.range '\x07' '\x07')
  | 'f' => some (.range '\x0c' '\x0c')
  | 'v' => some (.range '\x0b' '\x0b')
  | character =>
      if character.isAlphanum then none else some (.range character character)

/-- The next item of a class and the rest of the text. -/
def classItem? : List Char → Option (ClassItem × List Char)
  | [] => none
  | '\\' :: 'b' :: rest => some (.range '\x08' '\x08', rest)
  | '\\' :: character :: rest => (escaped? character).map fun item => (item, rest)
  | ['\\'] => none
  | character :: rest => some (.range character character, rest)

/-- The range between two items, if both are single characters in order. -/
def rangeBetween? : ClassItem → ClassItem → Option ClassItem
  | .range first first', .range last last' =>
      if first = first' ∧ last = last' ∧ first ≤ last then some (.range first last) else none
  | _, _ => none

/-- The items of a class up to its closing bracket, and the rest of the text. A bracket in first
place and a hyphen before the closing bracket stand for themselves. -/
def classItems? : Nat → List ClassItem → List Char → Option (List ClassItem × List Char)
  | 0, _, _ => none
  | fuel + 1, found, characters =>
      match found, characters with
      | _ :: _, ']' :: rest => some (found.reverse, rest)
      | _, _ => do
          let (first, rest) ← classItem? characters
          match rest with
          | '-' :: ']' :: rest => some ((.range '-' '-' :: first :: found).reverse, rest)
          | '-' :: rest =>
              let (last, rest) ← classItem? rest
              let range ← rangeBetween? first last
              classItems? fuel (range :: found) rest
          | rest => classItems? fuel (first :: found) rest

/-- A number in decimal digits, if there is one, and the rest of the text. -/
def number? (characters : List Char) : Option Nat × List Char :=
  let digits := characters.takeWhile Char.isDigit
  let value := digits.foldl (fun total digit => total * 10 + (digit.toNat - 48)) 0
  (if digits.isEmpty then none else some value, characters.dropWhile Char.isDigit)

/-- The bounds after an opening brace and the rest after the closing one, unless the brace stands
for itself. -/
def bounds? (characters : List Char) : Option (Nat × Option Nat × List Char) :=
  if characters.head? = some '}' then none
  else
    let (least?, rest) := number? characters
    match rest with
    | ',' :: rest =>
        let (most?, rest) := number? rest
        match rest with
        | '}' :: rest => some (least?.getD 0, most?, rest)
        | _ => none
    | '}' :: rest => least?.map fun least => (least, some least, rest)
    | _ => none

/-- The text after a repetition, without the sign that prefers few rounds to many. Both ways find a
match where there is one. -/
def afterRepetition : List Char → List Char
  | '?' :: rest => rest
  | rest => rest

/-- The name of a group up to its closing bracket, and the rest of the text. -/
def groupName? (characters : List Char) : Option (String × List Char) :=
  let name := characters.takeWhile (· ≠ '>')
  match name, characters.dropWhile (· ≠ '>') with
  | first :: _, '>' :: rest =>
      if name.all Text.isWord && !Text.isDigit first then some (String.ofList name, rest) else none
  | _, _ => none

/-- The first token of a text that is not empty, and the rest of the text. -/
def token? : List Char → Option (Token × List Char)
  | [] => none
  | '.' :: rest => some (.atom .anyCharacter, rest)
  | '^' :: rest => some (.assertion .start, rest)
  | '$' :: rest => some (.assertion .lastLine, rest)
  | '*' :: rest => some (.repetition 0 none, afterRepetition rest)
  | '+' :: rest => some (.repetition 1 none, afterRepetition rest)
  | '?' :: rest => some (.repetition 0 (some 1), afterRepetition rest)
  | '{' :: rest => match bounds? rest with
      | some (least, most?, rest) => some (.repetition least most?, afterRepetition rest)
      | none => some (.atom (.oneOf [.range '{' '{'] false), rest)
  | '(' :: '?' :: ':' :: rest => some (.openGroup none, rest)
  | '(' :: '?' :: 'P' :: '<' :: rest =>
      (groupName? rest).map fun (name, rest) => (.openGroup (some name), rest)
  | '(' :: '?' :: _ => none
  | '(' :: rest => some (.openGroup none, rest)
  | ')' :: rest => some (.closeGroup, rest)
  | '|' :: rest => some (.bar, rest)
  | '[' :: '^' :: rest =>
      (classItems? (rest.length + 1) [] rest).map fun (items, rest) =>
        (.atom (.oneOf items true), rest)
  | '[' :: rest =>
      (classItems? (rest.length + 1) [] rest).map fun (items, rest) =>
        (.atom (.oneOf items false), rest)
  | '\\' :: 'b' :: rest => some (.assertion (.wordBoundary false), rest)
  | '\\' :: 'B' :: rest => some (.assertion (.wordBoundary true), rest)
  | '\\' :: 'A' :: rest => some (.assertion .start, rest)
  | '\\' :: 'Z' :: rest => some (.assertion .finish, rest)
  | '\\' :: character :: rest =>
      (escaped? character).map fun item => (.atom (.oneOf [item] false), rest)
  | ['\\'] => none
  | character :: rest => some (.atom (.oneOf [.range character character] false), rest)

/-- The tokens of a text of at most the given length. -/
def tokens? : Nat → List Char → Option (List Token)
  | _, [] => some []
  | 0, _ => none
  | fuel + 1, characters => do
      let (token, rest) ← token? characters
      return token :: (← tokens? fuel rest)

/-- An item of a sequence, and whether a repetition may follow it. -/
structure Item where
  pattern : Pattern
  repeatable : Bool

/-- A group that is still open: its finished alternatives and the items of the one at hand, both
latest first. -/
structure OpenGroup where
  alternatives : List Pattern := []
  items : List Item := []

def sequenceOf (items : List Item) : Pattern :=
  match items.reverse.map Item.pattern with
  | [] => .empty
  | first :: rest => rest.foldl .sequence first

def OpenGroup.close (group : OpenGroup) : Pattern :=
  group.alternatives.foldl (fun later earlier => .choice earlier later) (sequenceOf group.items)

/-- The groups that are open, innermost first, and the group names seen. -/
structure Reader where
  current : OpenGroup := {}
  outer : List OpenGroup := []
  names : List String := []

def Reader.push (reader : Reader) (item : Item) : Reader :=
  { reader with current := { reader.current with items := item :: reader.current.items } }

/-- Takes one token, unless it does not fit. -/
def Reader.take? (reader : Reader) : Token → Option Reader
  | .atom pattern => some (reader.push ⟨pattern, true⟩)
  | .assertion asserted => some (reader.push ⟨.anchor asserted, false⟩)
  | .repetition least most? =>
      match reader.current.items with
      | ⟨pattern, true⟩ :: rest =>
          if most?.any (· < least) then none
          else
            let item := ⟨pattern.repeated least most?, false⟩
            some { reader with current := { reader.current with items := item :: rest } }
      | _ => none
  | .openGroup name? =>
      if name?.any reader.names.contains then none
      else some ⟨{}, reader.current :: reader.outer, name?.toList ++ reader.names⟩
  | .closeGroup =>
      match reader.outer with
      | [] => none
      | group :: outer =>
          some (({ reader with current := group, outer } : Reader).push
            ⟨reader.current.close, true⟩)
  | .bar =>
      some { reader with
        current := ⟨sequenceOf reader.current.items :: reader.current.alternatives, []⟩ }

/-- The pattern with the given text, if it is one. -/
def parse? (text : String) : Option Pattern := do
  let tokens ← tokens? text.length text.toList
  let reader ← tokens.foldlM Reader.take? {}
  if reader.outer.isEmpty then some reader.current.close else none

end TreeQuery.Pattern
