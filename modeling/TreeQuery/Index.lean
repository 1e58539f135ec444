/-! # Indexes

An index keeps values under keys and finds them without a look at all keys. It is a binary tree in
which the bits of a number that goes with each key, its code, lead to a bucket. Keys may share a
code; then they share a bucket and are told apart there. So the codes decide how fast a value is
found and never which one: what was inserted last under a key is what is found there.
-/

namespace TreeQuery

/-- Keys with numbers by which an index can be searched. Several keys may have one number. -/
class Coded (Key : Type) where
  code : Key → Nat

/-- Values under keys. A fork looks at the lowest bit of a code and hands on the code without it. -/
inductive Index (Key α : Type) where
  | bucket (entries : List (Key × α))
  | fork (even odd : Index Key α)
  deriving Repr

namespace Index

variable {Key α : Type}

/-- The index without entries that looks at a given number of bits. -/
def ofDepth : Nat → Index Key α
  | 0 => bucket []
  | depth + 1 =>
      let half := ofDepth depth
      fork half half

/-- The index without entries that has about as many buckets as the given number. -/
def withRoom (size : Nat) : Index Key α := ofDepth size.log2

variable [DecidableEq Key]

/-- What is found under a key on the way that a code leads. -/
def findAt (key : Key) : Nat → Index Key α → Option α
  | _, bucket entries => entries.lookup key
  | code, fork even odd =>
      if code % 2 = 0 then findAt key (code / 2) even else findAt key (code / 2) odd

/-- Puts a value under a key on the way that a code leads. -/
def insertAt (key : Key) (value : α) : Nat → Index Key α → Index Key α
  | _, bucket entries => bucket ((key, value) :: entries)
  | code, fork even odd =>
      if code % 2 = 0 then fork (insertAt key value (code / 2) even) odd
      else fork even (insertAt key value (code / 2) odd)

theorem findAt_ofDepth (key : Key) (depth code : Nat) :
    findAt key code (ofDepth depth : Index Key α) = none := by
  induction depth generalizing code with
  | zero => rfl
  | succ depth ih => simp only [ofDepth, findAt, ih, ite_self]

/-- An inserted value is found under its key, and under other keys what was there before, provided
that equal keys go with equal codes. -/
theorem findAt_insertAt {key wanted : Key} {code way : Nat} (same : wanted = key → way = code)
    (value : α) (index : Index Key α) :
    findAt wanted way (insertAt key value code index) =
      if wanted = key then some value else findAt wanted way index := by
  induction index generalizing code way with
  | bucket entries =>
      by_cases equal : wanted = key
      · simp [insertAt, findAt, equal]
      · simp [insertAt, findAt, List.lookup_cons, beq_eq_false_iff_ne.mpr equal, equal]
  | fork even odd ihEven ihOdd =>
      have halves : wanted = key → way / 2 = code / 2 := fun equal => same equal ▸ rfl
      by_cases equal : wanted = key
      · subst equal
        rw [same rfl, insertAt, if_pos rfl]
        split
        · next low => rw [findAt, if_pos low, ihEven (fun _ => rfl), if_pos rfl]
        · next low => rw [findAt, if_neg low, ihOdd (fun _ => rfl), if_pos rfl]
      · rw [insertAt, if_neg equal]
        split
        · rw [findAt, findAt, ihEven halves, if_neg equal]
        · rw [findAt, findAt, ihOdd halves, if_neg equal]

variable [Coded Key]

def find? (index : Index Key α) (key : Key) : Option α := index.findAt key (Coded.code key)

def insert (index : Index Key α) (key : Key) (value : α) : Index Key α :=
  index.insertAt key value (Coded.code key)

def contains (index : Index Key α) (key : Key) : Bool := (index.find? key).isSome

@[simp] theorem find?_withRoom (size : Nat) (key : Key) :
    (withRoom size : Index Key α).find? key = none :=
  findAt_ofDepth key _ _

/-- An inserted value is found under its key, and under other keys what was there before. -/
theorem find?_insert (index : Index Key α) (key wanted : Key) (value : α) :
    (index.insert key value).find? wanted =
      if wanted = key then some value else index.find? wanted :=
  findAt_insertAt (fun equal => equal ▸ rfl) value index

/-- The key of an inserted value is there, and so are the keys from before. -/
theorem contains_insert (index : Index Key α) (key wanted : Key) (value : α) :
    (index.insert key value).contains wanted =
      (decide (wanted = key) || index.contains wanted) := by
  rw [contains, contains, find?_insert]
  by_cases equal : wanted = key <;> simp [equal]

/-- The index of the keys of a list, with buckets for as many keys as the given number. -/
def ofKeys (size : Nat) (keys : List Key) : Index Key Unit :=
  keys.foldr (fun key index => index.insert key ()) (withRoom size)

/-- An index has the keys of the list that it was made of. -/
@[simp] theorem contains_ofKeys (size : Nat) (keys : List Key) (key : Key) :
    (ofKeys size keys).contains key = decide (key ∈ keys) := by
  induction keys with
  | nil => simp [ofKeys, contains]
  | cons first rest ih =>
      rw [ofKeys, List.foldr_cons, contains_insert, ← ofKeys, ih]
      by_cases equal : key = first <;> simp [equal]

end Index

end TreeQuery
