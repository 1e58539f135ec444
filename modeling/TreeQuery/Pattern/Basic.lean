import TreeQuery.Text.Letters

/-! # Patterns

A pattern describes texts: single characters and classes of them, assertions about a position,
sequences, choices and repetitions. Whether a pattern occurs in a text does not depend on the order
in which its alternatives are tried, so a pattern takes a set of positions to the set of positions
that it can reach from them. A set of positions is an ascending list. A repetition goes on from the
positions that its last round reached for the first time; without an upper bound it needs no more
rounds than the text has characters, since no shortest way visits a position twice.
-/

namespace TreeQuery

/-- A class of characters, as a list of its parts. -/
inductive ClassItem where
  | range (first last : Char)
  | digit (negated : Bool)
  | word (negated : Bool)
  | blank (negated : Bool)
  deriving DecidableEq, Repr

def ClassItem.holds (character : Char) : ClassItem → Bool
  | range first last => first ≤ character && character ≤ last
  | digit negated => Text.isDigit character != negated
  | word negated => Text.isWord character != negated
  | blank negated => Text.isBlank character != negated

/-- What is asserted about a position. -/
inductive Anchor where
  | start
  | finish
  | lastLine
  | wordBoundary (negated : Bool)
  deriving DecidableEq, Repr

inductive Pattern where
  | empty
  | anyCharacter
  | oneOf (items : List ClassItem) (negated : Bool)
  | anchor (anchor : Anchor)
  | sequence (first second : Pattern)
  | choice (left right : Pattern)
  | upTo (most? : Option Nat) (body : Pattern)
  deriving Repr

namespace Pattern

/-- A pattern that occurs the given number of times before another. -/
def before (body tail : Pattern) : Nat → Pattern
  | 0 => tail
  | count + 1 => sequence body (before body tail count)

/-- A pattern repeated from `least` to `most` times, without bound if there is no `most`. -/
def repeated (body : Pattern) (least : Nat) (most? : Option Nat) : Pattern :=
  body.before (upTo (most?.map (· - least)) body) least

def wordBefore (text : Array Char) (position : Nat) : Bool :=
  0 < position && (text[position - 1]?).any Text.isWord

def wordAfter (text : Array Char) (position : Nat) : Bool :=
  (text[position]?).any Text.isWord

/-- Whether an assertion holds at a position. A final line break does not hide the end of the last
line. A text without characters has no place between two of them, be it a boundary or not. -/
def assertionHolds (text : Array Char) (position : Nat) : Anchor → Bool
  | .start => position == 0
  | .finish => position == text.size
  | .lastLine =>
      position == text.size || (position + 1 == text.size && text[position]? == some '\n')
  | .wordBoundary negated =>
      0 < text.size && (wordBefore text position != wordAfter text position) != negated

/-- Positions after one more character that passes a test. -/
def advance (text : Array Char) (accepts : Char → Bool) (positions : List Nat) : List Nat :=
  (positions.filter fun position => (text[position]?).any accepts).map (· + 1)

/-- The positions of two ascending lists, in ascending order. -/
def merge : List Nat → List Nat → List Nat
  | [], second => second
  | first, [] => first
  | left :: lefts, right :: rights =>
      if left < right then left :: merge lefts (right :: rights)
      else if right < left then right :: merge (left :: lefts) rights
      else left :: merge lefts rights
termination_by first second => first.length + second.length

/-- The positions of an ascending list that are not in another one. -/
def without : List Nat → List Nat → List Nat
  | [], _ => []
  | first, [] => first
  | left :: lefts, right :: rights =>
      if left < right then left :: without lefts (right :: rights)
      else if right < left then without (left :: lefts) rights
      else without lefts rights
termination_by first second => first.length + second.length

/-- All that comes up when a step is applied again and again, to what is known and recent first and
then to what the last application found. -/
def closure (step : List Nat → List Nat) : Nat → List Nat → List Nat → List Nat
  | 0, known, _ => known
  | rounds + 1, known, recent =>
      let found := without (step recent) known
      if found.isEmpty then known else closure step rounds (merge known found) found

/-- The positions that a pattern can reach from some positions. -/
def reach (text : Array Char) : Pattern → List Nat → List Nat
  | empty, positions => positions
  | anyCharacter, positions => advance text (· != '\n') positions
  | oneOf items negated, positions =>
      advance text (fun character => items.any (ClassItem.holds character) != negated) positions
  | anchor assertion, positions =>
      positions.filter fun position => assertionHolds text position assertion
  | sequence first second, positions => match first.reach text positions with
      | [] => []
      | reached => second.reach text reached
  | choice left right, positions => merge (left.reach text positions) (right.reach text positions)
  | upTo most? body, positions =>
      closure (body.reach text) (most?.getD text.size) positions positions

/-- Whether a pattern occurs anywhere in a text. -/
def occursIn (pattern : Pattern) (text : String) : Bool :=
  let characters := text.toList.toArray
  !(pattern.reach characters (List.range (characters.size + 1))).isEmpty

end Pattern

end TreeQuery
