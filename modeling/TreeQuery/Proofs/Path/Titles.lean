import TreeQuery.Proofs.Path.Induction

/-! # Titles of paths

A traced path is a path with a title. Titles may be dropped everywhere in a path, or be replaced by
others; neither changes anything else about it.
-/

namespace TreeQuery.Path

variable {Leaf : Type}

mutual

/-- The path without its titles. -/
def untraced : Path Leaf → Path Leaf
  | simple steps => simple steps
  | union delegates => union (untracedAll delegates)
  | exclusion base excluded => exclusion (untraced base) (untracedAll excluded)
  | chain links => chain (untracedAll links)
  | traced _ body => untraced body
  | stray operand? => stray operand?

def untracedAll : List (Path Leaf) → List (Path Leaf)
  | [] => []
  | path :: rest => untraced path :: untracedAll rest

end

mutual

/-- The path with other titles. -/
def retitled (names : String → String) : Path Leaf → Path Leaf
  | simple steps => simple steps
  | union delegates => union (retitledAll names delegates)
  | exclusion base excluded => exclusion (retitled names base) (retitledAll names excluded)
  | chain links => chain (retitledAll names links)
  | traced title body => traced (names title) (retitled names body)
  | stray operand? => stray operand?

def retitledAll (names : String → String) : List (Path Leaf) → List (Path Leaf)
  | [] => []
  | path :: rest => retitled names path :: retitledAll names rest

end

theorem retitledAll_eq_map (names : String → String) (paths : List (Path Leaf)) :
    retitledAll names paths = paths.map (retitled names) := by
  induction paths with
  | nil => rw [retitledAll, List.map_nil]
  | cons path rest ih => rw [retitledAll, ih, List.map_cons]

/-- A path keeps its titles when each is replaced by itself. -/
theorem retitled_id (path : Path Leaf) : path.retitled id = path := by
  have all : ∀ paths : List (Path Leaf), (∀ path ∈ paths, path.retitled id = path) →
      retitledAll id paths = paths := by
    intro paths same
    rw [retitledAll_eq_map]
    exact (List.map_congr_left same).trans (List.map_id paths)
  induction path using induct with
  | simple steps => rw [retitled]
  | union delegates ih => rw [retitled, all delegates ih]
  | exclusion base excluded baseIH excludedIH => rw [retitled, baseIH, all excluded excludedIH]
  | chain links ih => rw [retitled, all links ih]
  | traced title body ih => rw [retitled, ih, id]
  | stray operand? => rw [retitled]

end TreeQuery.Path
