import TreeQuery.Path
import TreeQuery.Value

/-! # Stored paths

Paths are objects: the same path may be part of several others and be known under several names.
Composing a path with a composite of the kind in question grows that composite in place, so that
whoever refers to it sees it grow; composing it with any other path makes a new composite. What a
stored path means at a moment is the path that is read out of the store. A composite may come to
contain itself, and then there is no such path.
-/

namespace TreeQuery

/-- A part of a composite: a path object, or a stray in the place of one. -/
inductive PathPart (Leaf : Type) where
  | path (index : Nat)
  | stray (operand? : Option (Predicate Leaf))
  deriving DecidableEq, Repr

/-- The path that a part stands for, given those that path objects stand for. -/
def PathPart.read? {Leaf : Type} (readPath? : Nat → Option (Path Leaf)) :
    PathPart Leaf → Option (Path Leaf)
  | path index => readPath? index
  | stray operand? => some (.stray operand?)

/-- A path object: its kind, with its parts. -/
inductive PathShape (Leaf : Type) where
  | simple (steps : List (Option (Predicate Leaf)))
  | union (delegates : List (PathPart Leaf))
  | exclusion (base : PathPart Leaf) (excluded : List (PathPart Leaf))
  | chain (links : List (PathPart Leaf))
  deriving DecidableEq, Repr

def PathShape.className {Leaf : Type} : PathShape Leaf → String
  | simple _ => "ElementPath"
  | union _ => "UnionPath"
  | exclusion _ _ => "ExclusionPath"
  | chain _ => "AppendPath"

/-- A path object with the name under which it is traced, if it is. -/
structure StoredPath (Leaf : Type) where
  shape : PathShape Leaf
  name? : Option Value := none
  deriving Repr

/-- All path objects. A path object is known by its position. -/
structure PathStore (Leaf : Type) where
  paths : Array (StoredPath Leaf) := #[]
  deriving Repr

/-- A composition that a path does not allow: nothing may be united with an exclusion. -/
inductive UnsupportedComposition where
  | unionAfterExclusion
  deriving DecidableEq, Repr

def UnsupportedComposition.message : UnsupportedComposition → String
  | .unionAfterExclusion => "or_() is not supported after exclude()"

namespace PathStore

variable {Leaf : Type}

def create (store : PathStore Leaf) (shape : PathShape Leaf) : PathStore Leaf × Nat :=
  ({ paths := store.paths.push { shape } }, store.paths.size)

def reshape (store : PathStore Leaf) (path : Nat) (shape : PathShape Leaf) : PathStore Leaf :=
  { paths := store.paths.modify path fun stored => { stored with shape } }

/-- The shape of a path object. A position without an object counts as the path without steps. -/
def shape (store : PathStore Leaf) (path : Nat) : PathShape Leaf :=
  (store.paths[path]?.map StoredPath.shape).getD (.simple [])

/-- The union of a path and a part. A union takes the part in as its last delegate. -/
def or (store : PathStore Leaf) (path : Nat) (other : PathPart Leaf) :
    Except UnsupportedComposition (PathStore Leaf × Nat) :=
  match store.shape path with
  | .union delegates => .ok (store.reshape path (.union (delegates ++ [other])), path)
  | .exclusion _ _ => .error .unionAfterExclusion
  | _ => .ok (store.create (.union [.path path, other]))

/-- A path without the results of a part. An exclusion takes the part in as its last excluded
one. -/
def exclude (store : PathStore Leaf) (path : Nat) (other : PathPart Leaf) :
    PathStore Leaf × Nat :=
  match store.shape path with
  | .exclusion base excluded => (store.reshape path (.exclusion base (excluded ++ [other])), path)
  | _ => store.create (.exclusion (.path path) [other])

/-- A path followed by another. A chain takes the other path in as its last link. -/
def append (store : PathStore Leaf) (path other : Nat) : PathStore Leaf × Nat :=
  match store.shape path with
  | .chain links => (store.reshape path (.chain (links ++ [.path other])), path)
  | _ => store.create (.chain [.path path, .path other])

/-- A path followed by steps, which make a simple path of their own. Without steps nothing
happens. -/
def appendSteps (store : PathStore Leaf) (path : Nat) (steps : List (Option (Predicate Leaf))) :
    PathStore Leaf × Nat :=
  match steps with
  | [] => (store, path)
  | _ =>
      let (store, continuation) := store.create (.simple steps)
      store.append path continuation

def trace (store : PathStore Leaf) (path : Nat) (name : Value) : PathStore Leaf :=
  { paths := store.paths.modify path fun stored => { stored with name? := some name } }

/-- The title under which a path object is traced, if it is. -/
def title? (store : PathStore Leaf) (path : Nat) : Option String :=
  (store.paths[path]?.bind StoredPath.name?).map fun name => name.shown fun _ => "object"

/-- The path of a shape, given the paths that its parts stand for. -/
def readShape? (readPart? : PathPart Leaf → Option (Path Leaf)) :
    PathShape Leaf → Option (Path Leaf)
  | .simple steps => some (.simple steps)
  | .union delegates => .union <$> delegates.mapM readPart?
  | .exclusion base excluded => do
      let base ← readPart? base
      return .exclusion base (← excluded.mapM readPart?)
  | .chain links => .chain <$> links.mapM readPart?

/-- A path under the title under which it is traced, if it is. -/
def entitled (title? : Option String) (body : Path Leaf) : Path Leaf :=
  match title? with
  | none => body
  | some title => .traced title body

/-- The path that an object stands for, if no reference chain from it is longer than the depth. -/
def readTo? (store : PathStore Leaf) : Nat → Nat → Option (Path Leaf)
  | 0, _ => none
  | depth + 1, path =>
      entitled (store.title? path) <$>
        readShape? (PathPart.read? (store.readTo? depth)) (store.shape path)

/-- The path that an object stands for, unless it contains itself. -/
def read? (store : PathStore Leaf) (path : Nat) : Option (Path Leaf) :=
  store.readTo? store.paths.size path

@[simp] theorem shape_create_self (store : PathStore Leaf) (shape : PathShape Leaf) :
    (store.create shape).1.shape (store.create shape).2 = shape := by
  simp [PathStore.shape, create]

theorem shape_create_of_lt (store : PathStore Leaf) {path : Nat} (shape : PathShape Leaf)
    (present : path < store.paths.size) :
    (store.create shape).1.shape path = store.shape path := by
  simp [PathStore.shape, create, Array.getElem?_push_lt, present]

theorem shape_reshape_self (store : PathStore Leaf) {path : Nat} (shape : PathShape Leaf)
    (present : path < store.paths.size) : (store.reshape path shape).shape path = shape := by
  simp [PathStore.shape, reshape, Array.getElem_modify, present]

theorem shape_reshape_of_ne (store : PathStore Leaf) {path other : Nat} (shape : PathShape Leaf)
    (apart : path ≠ other) : (store.reshape path shape).shape other = store.shape other := by
  simp [PathStore.shape, reshape, Array.getElem?_modify, apart]

end PathStore

end TreeQuery
