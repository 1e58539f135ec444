import TreeQuery.Predicate

/-! # Paths

A path is a program that takes a frontier to a frontier. A simple path is a list of steps, each a
predicate; a step may be missing, which is noticed only when the step is due. Paths compose: a
union collects the results of several paths, an exclusion takes the results of some paths out of
the result of another, and a chain runs each path on the result of the one before. A composite keeps
whatever it is given as a part; what is no path stands in it as a stray, which cannot be run.
-/

namespace TreeQuery

/-- A path over leaf tests. A traced path reports under a title what the path below it does. A stray
is nothing, a predicate or a foreign object in the place of a path. -/
inductive Path (Leaf : Type) where
  | simple (steps : List (Option (Predicate Leaf)))
  | union (delegates : List (Path Leaf))
  | exclusion (base : Path Leaf) (excluded : List (Path Leaf))
  | chain (links : List (Path Leaf))
  | traced (title : String) (body : Path Leaf)
  | stray (operand? : Option (Predicate Leaf))
  deriving Repr

namespace Path

variable {Leaf : Type}

/-- The label of a step, where a missing one counts as nothing. -/
def stepLabel : Option (Predicate Leaf) → Except Leaf String
  | some step => step.label
  | none => .ok "None"

/-- The written form of a stray. Only the host knows how its objects are written. -/
def strayForm (form : Leaf → Except Leaf String) : Option (Predicate Leaf) → Except Leaf String
  | none => .ok "None"
  | some (.foreign object) => form object
  | some predicate => predicate.written

mutual

/-- The written form of a path, which there is only if every step has a label. Titles do not
show. -/
def written (form : Leaf → Except Leaf String) : Path Leaf → Except Leaf String
  | simple steps => do
      return "ElementPath(" ++ " / ".intercalate (← steps.mapM stepLabel) ++ ")"
  | union delegates => do return " | ".intercalate (← writtenAll form delegates)
  | exclusion base excluded => do
      let base ← written form base
      return base ++ " - [" ++ ", ".intercalate (← writtenAll form excluded) ++ "]"
  | chain links => do return " >> ".intercalate (← writtenAll form links)
  | traced _ body => written form body
  | stray operand? => strayForm form operand?

def writtenAll (form : Leaf → Except Leaf String) : List (Path Leaf) → Except Leaf (List String)
  | [] => .ok []
  | path :: rest => do
      let first ← written form path
      return first :: (← writtenAll form rest)

end

end Path

end TreeQuery
