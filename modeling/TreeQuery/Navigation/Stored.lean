import TreeQuery.Navigation
import TreeQuery.Path.Store

/-! # Navigation by stored paths

A stored path is run as it stands in the store, part by part as each part comes to be due. A
composite that contains itself can be run too, and comes to an end when it always runs out of nodes
in time. Where a stored path can be read out of the store, its program is that of the path read.
-/

namespace TreeQuery

variable {Node Leaf Failure : Type} [Keyed Node]

/-- What a part of a composite does, given what path objects do. -/
def PathPart.program (setting : Setting Node Leaf Failure)
    (ofPath : Nat → Program Node Leaf Failure) : PathPart Leaf → Program Node Leaf Failure
  | path index => ofPath index
  | stray operand? => .stray setting operand?

/-- What a path object of a shape does, given what its parts do. -/
def PathShape.program (setting : Setting Node Leaf Failure)
    (ofPart : PathPart Leaf → Program Node Leaf Failure) :
    PathShape Leaf → Program Node Leaf Failure
  | simple steps => .simple setting steps
  | union delegates => .union (delegates.map ofPart)
  | exclusion base excluded => .exclusion setting.sink (ofPart base) (excluded.map ofPart)
  | chain links => .chain (links.map ofPart)

namespace PathStore

/-- What a path object does. It is given up when path objects are run inside each other deeper than
the number allows. -/
def program (setting : Setting Node Leaf Failure) (store : PathStore Leaf) :
    Nat → Nat → Program Node Leaf Failure
  | 0, _, _ => throw .exhausted
  | depth + 1, path, start =>
      Program.entitled setting.sink (store.title? path)
        (PathShape.program setting (PathPart.program setting (store.program setting depth))
          (store.shape path)) start

/-- A part that can be read does what the path read does, if this holds for path objects. -/
theorem program_part_of_read {setting : Setting Node Leaf Failure}
    {readPath? : Nat → Option (Path Leaf)} {ofPath : Nat → Program Node Leaf Failure}
    (agree : ∀ index path, readPath? index = some path → ofPath index = path.run setting)
    {part : PathPart Leaf} {path : Path Leaf} (found : part.read? readPath? = some path) :
    part.program setting ofPath = path.run setting := by
  cases part with
  | path index => exact agree index path found
  | stray operand? =>
      rw [PathPart.read?, Option.some.injEq] at found
      rw [← found, PathPart.program, Path.run]

theorem map_program_of_mapM_read {setting : Setting Node Leaf Failure}
    {readPart? : PathPart Leaf → Option (Path Leaf)}
    {ofPart : PathPart Leaf → Program Node Leaf Failure}
    (agree : ∀ part path, readPart? part = some path → ofPart part = path.run setting)
    {parts : List (PathPart Leaf)} {paths : List (Path Leaf)}
    (found : parts.mapM readPart? = some paths) :
    parts.map ofPart = Path.runs setting paths := by
  induction parts generalizing paths with
  | nil =>
      rw [List.mapM_nil] at found
      cases found
      rw [List.map_nil, Path.runs]
  | cons part rest ih =>
      rw [List.mapM_cons] at found
      obtain ⟨first, read, later⟩ := Option.bind_eq_some_iff.mp found
      obtain ⟨others, readRest, same⟩ := Option.bind_eq_some_iff.mp later
      cases same
      rw [List.map_cons, Path.runs, agree part first read, ih readRest]

/-- A shape whose parts can be read does what the path read does. -/
theorem program_shape_of_read {setting : Setting Node Leaf Failure}
    {readPart? : PathPart Leaf → Option (Path Leaf)}
    {ofPart : PathPart Leaf → Program Node Leaf Failure}
    (agree : ∀ part path, readPart? part = some path → ofPart part = path.run setting)
    {shape : PathShape Leaf} {path : Path Leaf} (found : readShape? readPart? shape = some path) :
    shape.program setting ofPart = path.run setting := by
  cases shape with
  | simple steps =>
      rw [readShape?, Option.some.injEq] at found
      rw [← found, PathShape.program, Path.run]
  | union delegates =>
      obtain ⟨paths, read, same⟩ := Option.map_eq_some_iff.mp found
      rw [← same, PathShape.program, Path.run, map_program_of_mapM_read agree read]
  | exclusion base excluded =>
      obtain ⟨first, read, later⟩ := Option.bind_eq_some_iff.mp found
      obtain ⟨others, readRest, same⟩ := Option.bind_eq_some_iff.mp later
      cases same
      rw [PathShape.program, Path.run, agree base first read,
        map_program_of_mapM_read agree readRest]
  | chain links =>
      obtain ⟨paths, read, same⟩ := Option.map_eq_some_iff.mp found
      rw [← same, PathShape.program, Path.run, map_program_of_mapM_read agree read]

/-- A path object that can be read does what the path read does. -/
theorem program_of_readTo? {setting : Setting Node Leaf Failure} {store : PathStore Leaf}
    {depth allowed index : Nat} {path : Path Leaf} (enough : depth ≤ allowed)
    (found : store.readTo? depth index = some path) :
    store.program setting allowed index = path.run setting := by
  induction depth generalizing allowed index path with
  | zero => exact absurd found (by simp [readTo?])
  | succ depth ih =>
      obtain ⟨allowed, rfl⟩ := Nat.exists_eq_add_of_lt enough
      obtain ⟨body, read, same⟩ := Option.map_eq_some_iff.mp found
      have agree : (store.shape index).program setting
          (PathPart.program setting (store.program setting (depth + allowed))) =
            body.run setting :=
        program_shape_of_read (fun _ _ => program_part_of_read fun _ _ => ih (by omega)) read
      funext start
      rw [program, agree, ← same]
      cases store.title? index with
      | none => rfl
      | some title => rw [entitled, Path.run]

end PathStore

end TreeQuery
