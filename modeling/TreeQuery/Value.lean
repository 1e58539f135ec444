import TreeQuery.Decimal.Shortest
import TreeQuery.Index
import TreeQuery.Literal
import TreeQuery.Text.Quoted

/-! # Dynamic values

Host trees belong to somebody else, so what their nodes hold is known only when it is looked at:
an attribute may hold nothing, a number, a text, a sequence or another node. A node itself is a
value too, and any value may stand where a node is wanted. As nodes two equal values may be two
different ones, since a value that a host keeps is an object of its own. Here are the values, their
truth, their equality, their keys, the names of their types and their texts.
-/

namespace TreeQuery

/-- Where a host object lives. Its place is its identity. -/
inductive Place where
  | member (index : Nat)
  | object (index : Nat)
  deriving DecidableEq, Repr, Hashable

instance : Coded Place where
  code
    | .member index => 2 * index
    | .object index => 2 * index + 1

/-- What tells nodes apart within a navigation. Nodes with one key are one node. An object may be
known by an identifier or a key of its own choice, by its place, as what an attribute of another
object always holds, by the occasion on which it came up, or by its position in another object. A
value of which there is one object only is known by its text. -/
inductive Key where
  | identifier (text : String)
  | custom (form : String)
  | identity (place : Place)
  | held (place : Place) (name : String)
  | occurrence (number : Nat)
  | item (owner : Key) (index : Nat)
  | datum (text : String)
  deriving DecidableEq, Repr

namespace Key

/-- A number for a text, with which the numbers of most other texts differ. -/
def textCode (text : String) : Nat :=
  text.toList.foldl (fun code character => (37 * code + character.toNat) % 65536) 0

/-- A number for a key, with which the numbers of most other keys differ. -/
def code : Key → Nat
  | identifier text | custom text | datum text => textCode text
  | identity place => Coded.code place
  | held place name => Coded.code place + textCode name
  | occurrence number => number
  | item owner index => owner.code + index

end Key

instance : Coded Key := ⟨Key.code⟩

/-- A value that a host may hold. A node carries its key beside its place, and so does a value that
is an object of its own; a literal is a constant of which only the written form is known. -/
inductive Value where
  | null
  | bool (value : Bool)
  | int (value : Int)
  | real (bits : UInt64)
  | text (value : String)
  | list (items : List Value)
  | tuple (items : List Value)
  | dict (entries : List (String × Value))
  | node (place : Place) (key : Key)
  | literal (written : String)
  | own (key : Key) (content : Value)
  deriving Inhabited, Repr

namespace Value

/-- The constant with the given written form: a whole number or a truth value where it is one. -/
def ofWritten (written : String) : Value :=
  match written with
  | "True" => bool true
  | "False" => bool false
  | "None" => null
  | _ =>
      let digits := match written.toList with
        | '-' :: rest => rest
        | characters => characters
      if digits.isEmpty || !digits.all Char.isDigit then literal written
      else
        let size : Int := digits.foldl (fun total digit => total * 10 + (digit.toNat - 48)) 0
        int (if written.startsWith "-" then -size else size)

/-- A value without the key that makes it an object of its own. -/
def content : Value → Value
  | own _ content => content.content
  | value => value

/-- The truth of a value: nothing, zero and whatever is empty are false. -/
def truthy : Value → Bool
  | null => false
  | bool value => value
  | int value => value != 0
  | real bits => (Decimal.Binary.ofBits bits).whole != 0
  | text value => !value.isEmpty
  | list items | tuple items => !items.isEmpty
  | dict entries => !entries.isEmpty
  | node _ _ => true
  | literal written => Literal.truthy written
  | own _ content => truthy content

def isNull : Value → Bool
  | null => true
  | own _ content => isNull content
  | _ => false

def int? : Value → Option Int
  | bool value => some (if value then 1 else 0)
  | int value => some value
  | own _ content => int? content
  | _ => none

def text? : Value → Option String
  | text value => some value
  | own _ content => text? content
  | _ => none

def place? : Value → Option Place
  | node place _ => some place
  | own _ content => place? content
  | _ => none

/-- Equality of values without parts. Numbers are equal when they are the same number, whatever
their types, and a truth value counts as one or zero. -/
def equalsAtom : Value → Value → Bool
  | null, null => true
  | text left, text right => left == right
  | node left _, node right _ => left == right
  | literal left, literal right => left == right
  | real left, real right =>
      let left := Decimal.Binary.ofBits left
      let right := Decimal.Binary.ofBits right
      left == right || (left.whole == 0 && right.whole == 0)
  | real left, right => right.int?.any (Decimal.Binary.ofBits left).equalsInt
  | left, real right => left.int?.any (Decimal.Binary.ofBits right).equalsInt
  | left, right => match left.int?, right.int? with
      | some left, some right => left == right
      | _, _ => false

mutual

/-- Equality of values: sequences of one type item by item, mappings entry by entry in any order,
and all else by `equalsAtom`. -/
def equals : Value → Value → Bool
  | list left, right => match right.content with
      | list right => equalsItems left right
      | _ => false
  | tuple left, right => match right.content with
      | tuple right => equalsItems left right
      | _ => false
  | dict left, right => match right.content with
      | dict right => left.length == right.length && includes left right
      | _ => false
  | own _ left, right => equals left right
  | left, right => equalsAtom left right.content

def equalsItems : List Value → List Value → Bool
  | [], [] => true
  | left :: lefts, right :: rights => equals left right && equalsItems lefts rights
  | _, _ => false

/-- Whether every entry on the left has an equal one on the right. -/
def includes : List (String × Value) → List (String × Value) → Bool
  | [], _ => true
  | (name, value) :: rest, entries =>
      (match entries.lookup name with
        | some other => equals value other
        | none => false) && includes rest entries

end

mutual

/-- The type name of the first part of a value that cannot be hashed, if there is one. Lists and
mappings cannot, and a tuple is as good as its items. -/
def unhashable? : Value → Option String
  | list _ => some "list"
  | dict _ => some "dict"
  | tuple items => unhashableItem? items
  | own _ content => unhashable? content
  | _ => none

def unhashableItem? : List Value → Option String
  | [] => none
  | item :: rest => match unhashable? item with
      | some name => some name
      | none => unhashableItem? rest

end

def typeName (objectType : Place → String) : Value → String
  | null => "NoneType"
  | bool _ => "bool"
  | int _ => "int"
  | real _ => "float"
  | text _ => "str"
  | list _ => "list"
  | tuple _ => "tuple"
  | dict _ => "dict"
  | node place _ => objectType place
  | literal written => Literal.typeName written
  | own _ content => typeName objectType content

mutual

/-- The written form of a value, in which a text is quoted. Only the host knows how its objects are
written. -/
def written (object : Place → String) : Value → String
  | null => "None"
  | bool value => if value then "True" else "False"
  | int value => toString value
  | real bits => Decimal.standard.write (Decimal.Binary.ofBits bits)
  | text value => Text.quoted value
  | list items => "[" ++ ", ".intercalate (writtenItems object items) ++ "]"
  | tuple [item] => "(" ++ written object item ++ ",)"
  | tuple items => "(" ++ ", ".intercalate (writtenItems object items) ++ ")"
  | dict entries => "\x7b" ++ ", ".intercalate (writtenEntries object entries) ++ "\x7d"
  | node place _ => object place
  | literal form => form
  | own _ content => written object content

def writtenItems (object : Place → String) : List Value → List String
  | [] => []
  | item :: rest => written object item :: writtenItems object rest

def writtenEntries (object : Place → String) : List (String × Value) → List String
  | [] => []
  | (name, value) :: rest =>
      (Text.quoted name ++ ": " ++ written object value) :: writtenEntries object rest

end

/-- A value as part of a message, where a text stands as it is. -/
def shown (object : Place → String) (value : Value) : String :=
  value.text?.getD (written object value)

/-- The written form of a value that holds no host object. -/
def plain (value : Value) : String :=
  written (fun _ => "object") value

/-- Whether all occurrences of a value are one object. There is one nothing, one of each truth
value, of each whole number close to zero, of each text with at most one character of the first
block of code points, and one tuple without items. A node is one object anyway. -/
def isUnique : Value → Bool
  | null | bool _ | node _ _ | own _ _ => true
  | int value => -5 ≤ value && value ≤ 256
  | real _ => false
  | text value => match value.toList with
      | [] => true
      | [character] => character.toNat < 0x100
      | _ => false
  | list _ | dict _ => false
  | tuple items => items.isEmpty
  | literal written => Literal.isUnique written

/-- A value as an object with the given key, unless there is one object of it only. -/
def owned (value : Value) (key : Key) : Value :=
  if value.isUnique then value else own key value

/-- A text as the one object that all its occurrences are. -/
def interned (characters : String) : Value :=
  own (.datum (Text.quoted characters)) (text characters)

/-- The key of a value: an object brings its own, and a value of which there is one object only is
told by its text. -/
def key : Value → Key
  | node _ key | own key _ => key
  | value => .datum value.plain

/-- The items of a sequence as objects. Those that are not objects already are told apart by their
positions in it. -/
def objects (owner : Key) (items : List Value) : List Value :=
  items.zipIdx.map fun (item, index) => item.owned (.item owner index)

/-- The items that a value hands out one after the other, if it is a sequence. A mapping hands out
its names, a text its characters and a text of bytes their numbers. -/
def items? (value : Value) : Option (List Value) :=
  match value.content with
  | list items | tuple items => some (objects value.key items)
  | dict entries => some (entries.map fun entry => text entry.1)
  | text characters =>
      some (objects value.key (characters.toList.map fun character => text (.singleton character)))
  | literal written =>
      (Literal.bytes? written).map fun bytes => bytes.map fun (byte : Nat) => int byte
  | _ => none

mutual

/-- A text that two values share exactly when they are equal as keys. A number is told by its size,
whatever its type, and the entries of a mapping may stand in any order. -/
def keyForm : Value → String
  | list items => "[" ++ ", ".intercalate (keyForms items) ++ "]"
  | tuple items => "(" ++ ", ".intercalate (keyForms items) ++ ")"
  | dict entries =>
      let forms := (keyEntries entries).mergeSort fun left right => decide (left ≤ right)
      "\x7b" ++ ", ".intercalate forms ++ "\x7d"
  | own _ content => keyForm content
  | real bits =>
      let number := Decimal.Binary.ofBits bits
      if number.equalsInt number.truncate then toString number.truncate
      else plain (real bits)
  | value => match value.int? with
      | some whole => toString whole
      | none => value.plain

def keyForms : List Value → List String
  | [] => []
  | item :: rest => keyForm item :: keyForms rest

def keyEntries : List (String × Value) → List String
  | [] => []
  | (name, value) :: rest => (Text.quoted name ++ ": " ++ keyForm value) :: keyEntries rest

end

end Value

end TreeQuery
