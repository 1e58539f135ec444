import TreeQuery.Collections.Query
import TreeQuery.Proofs.Run.Yield

/-! # Collections beside collections

Operations that hand out a result put at most new collections beside the old ones, and each old one
keeps its nodes (`TreeQuery.Collections.Extends`). What they hand out is either the shared empty
collection or none of the old ones (`TreeQuery.Collections.Adds`).
-/

namespace TreeQuery.Collections

variable {Node Leaf Failure : Type} [Keyed Node]

/-- Replacing nodes makes no collection. -/
theorem size_put (collections : Collections Node) (index : Nat) (frontier : Frontier Node) :
    (collections.put index frontier).frontiers.size = collections.frontiers.size :=
  Array.size_setIfInBounds

/-- The old collections with the nodes they had, and perhaps others. -/
structure Extends (old new : Collections Node) : Prop where
  grown : old.frontiers.size ≤ new.frontiers.size
  kept : ∀ index < old.frontiers.size, new.get index = old.get index

namespace Extends

variable {first second third : Collections Node}

theorem refl (collections : Collections Node) : Extends collections collections :=
  ⟨Nat.le_refl _, fun _ _ => rfl⟩

/-- What stayed as it was over two changes stayed so over both. -/
theorem trans (early : Extends first second) (late : Extends second third) :
    Extends first third where
  grown := Nat.le_trans early.grown late.grown
  kept index present :=
    (late.kept index (Nat.lt_of_lt_of_le present early.grown)).trans (early.kept index present)

/-- A further collection leaves those of long ago alone. -/
theorem create (grown : Extends first second) (frontier : Frontier Node) :
    Extends first (second.create frontier).1 where
  grown := by
    rw [Collections.create, Array.size_push]
    exact Nat.le_succ_of_le grown.grown
  kept index present :=
    (get_create_of_lt second frontier (Nat.lt_of_lt_of_le present grown.grown)).trans
      (grown.kept index present)

/-- A collection that is none of the old ones may change. -/
theorem put (grown : Extends first second) {index : Nat} (recent : first.frontiers.size ≤ index)
    (frontier : Frontier Node) : Extends first (second.put index frontier) where
  grown := by
    rw [size_put]
    exact grown.grown
  kept other present :=
    (get_put_of_ne second frontier (Nat.ne_of_gt (Nat.lt_of_lt_of_le present recent))).trans
      (grown.kept other present)

end Extends

/-- A collection handed out that is the shared one or new, beside old ones that are as they were. -/
structure Adds (old : Collections Node) (handed : Collections Node × Nat) : Prop where
  old_extends : old.Extends handed.1
  present : handed.2 < handed.1.frontiers.size
  apart : handed.2 = shared ∨ old.frontiers.size ≤ handed.2

/-- A collection that is handed out beside the old ones and has the nodes of a frontier. -/
structure Hands (old : Collections Node) (frontier : Frontier Node)
    (handed : Collections Node × Nat) : Prop where
  old_extends : old.Extends handed.1
  present : handed.2 < handed.1.frontiers.size
  nodes : handed.1.get handed.2 = frontier

/-- Collections of which the shared one is there and has no node. -/
structure WellFormed (collections : Collections Node) : Prop where
  present : shared < collections.frontiers.size
  nothing : collections.get shared = ∅

section Handing

variable (collections : Collections Node) (frontier : Frontier Node)

theorem size_create :
    (collections.create frontier).1.frontiers.size = collections.frontiers.size + 1 :=
  Array.size_push _

/-- A new collection is none of the old ones. -/
theorem create_adds : collections.Adds (collections.create frontier) where
  old_extends := (Extends.refl collections).create frontier
  present := by
    rw [size_create]
    exact Nat.lt_succ_self _
  apart := .inr (Nat.le_refl _)

theorem create_hands : collections.Hands frontier (collections.create frontier) where
  old_extends := (create_adds collections frontier).old_extends
  present := (create_adds collections frontier).present
  nodes := get_create_self collections frontier

/-- A union is handed out as a collection of its own. -/
theorem union_adds (index : Nat) (source : NodeSource Node) :
    collections.Adds (collections.union index source) :=
  create_adds collections _

/-- A difference is handed out as a collection of its own. -/
theorem difference_adds (index : Nat) (source : NodeSource Node) :
    collections.Adds (collections.difference index source) :=
  create_adds collections _

variable {collections frontier}

/-- Handing out the shared collection changes nothing. -/
theorem shared_adds (present : shared < collections.frontiers.size) :
    collections.Adds (collections, shared) :=
  ⟨.refl collections, present, .inl rfl⟩

/-- No nodes are handed out as the shared collection. -/
theorem result_of_isEmpty (none : frontier.isEmpty = true) :
    collections.result frontier = (collections, shared) :=
  if_pos none

/-- Nodes are handed out as a new collection. -/
theorem result_of_not_isEmpty (some : ¬frontier.isEmpty = true) :
    collections.result frontier = collections.create frontier :=
  if_neg some

/-- What a navigation has found is handed out like the result of any other operation. -/
theorem result_adds (present : shared < collections.frontiers.size) :
    collections.Adds (collections.result frontier) := by
  by_cases none : frontier.isEmpty = true
  · rw [result_of_isEmpty none]
    exact shared_adds present
  · rw [result_of_not_isEmpty none]
    exact create_adds collections frontier

/-- What is handed out as a result has the nodes of the result. -/
theorem get_result (nothing : collections.get shared = ∅) :
    (collections.result frontier).1.get (collections.result frontier).2 = frontier := by
  by_cases none : frontier.isEmpty = true
  · rw [result_of_isEmpty none, nothing, Frontier.isEmpty_iff.mp none]
  · rw [result_of_not_isEmpty none, get_create_self]

/-- A result is handed out as the shared collection just if it has no node. -/
theorem result_shared_iff (present : shared < collections.frontiers.size) :
    (collections.result frontier).2 = shared ↔ frontier = ∅ := by
  by_cases none : frontier.isEmpty = true
  · rw [result_of_isEmpty none]
    exact iff_of_true rfl (Frontier.isEmpty_iff.mp none)
  · rw [result_of_not_isEmpty none, ← Frontier.isEmpty_iff]
    exact iff_of_false (Nat.ne_of_gt present) none

theorem filterRun_adds {accepts : Node → Run Node Leaf Failure Bool} {index : Nat}
    {handed : Collections Node × Nat} (present : shared < collections.frontiers.size)
    (yields : (collections.filterRun accepts index).Yields handed) : collections.Adds handed := by
  rw [filterRun] at yields
  split at yields
  · rw [yields.of_pure]
    exact shared_adds present
  · obtain ⟨found, _, ended⟩ := yields.of_bind
    rw [ended.of_pure]
    exact result_adds present

/-- A navigation hands out what its program finds, as a result. -/
theorem result_of_navigate {program : Program Node Leaf Failure} {source : NodeSource Node}
    {handed : Collections Node × Nat}
    (yields : (collections.navigate program source).Yields handed) :
    ∃ found, (program (Frontier.ofList (collections.listed source))).Yields found ∧
      handed = collections.result found := by
  obtain ⟨found, ran, ended⟩ := yields.of_bind
  exact ⟨found, ran, ended.of_pure⟩

end Handing

namespace WellFormed

variable {collections : Collections Node}

/-- The shared collection keeps its nodes, of which there are none. -/
theorem of_extends {new : Collections Node} (formed : collections.WellFormed)
    (grown : collections.Extends new) : new.WellFormed where
  present := Nat.lt_of_lt_of_le formed.present grown.grown
  nothing := (grown.kept shared formed.present).trans formed.nothing

/-- The shared collection stays empty as long as nothing is put into it. -/
theorem put {index : Nat} {frontier : Frontier Node} (formed : collections.WellFormed)
    (harmless : index = shared → frontier = ∅) : (collections.put index frontier).WellFormed where
  present := by
    rw [size_put]
    exact formed.present
  nothing := by
    by_cases same : index = shared
    · rw [same, get_put_self collections frontier formed.present, harmless same]
    · rw [get_put_of_ne collections frontier same, formed.nothing]

/-- An addition to the shared collection is refused, and any other one leaves it alone. -/
theorem add {index : Nat} {node : Node} {changed : Collections Node × Bool}
    (formed : collections.WellFormed) (done : collections.add index node = .ok changed) :
    changed.1.WellFormed ∧ changed.1.frontiers.size = collections.frontiers.size := by
  rw [Collections.add] at done
  split at done
  · cases done
  · next apart =>
    cases done
    exact ⟨formed.put fun same => absurd same apart, size_put _ _ _⟩

/-- The same holds of several additions. -/
theorem addAll {index : Nat} {source : NodeSource Node} {changed : Collections Node × Bool}
    (formed : collections.WellFormed) (done : collections.addAll index source = .ok changed) :
    changed.1.WellFormed ∧ changed.1.frontiers.size = collections.frontiers.size := by
  rw [Collections.addAll] at done
  dsimp only at done
  split at done
  · split at done
    · cases done
      exact ⟨formed, rfl⟩
    · cases done
  · next apart =>
    cases done
    exact ⟨formed.put fun same => absurd same apart, size_put _ _ _⟩

/-- Nothing can be removed from the shared collection, which is empty anyway. -/
theorem removeAll {index : Nat} (source : NodeSource Node) (formed : collections.WellFormed) :
    (collections.removeAll index source).1.WellFormed := by
  have harmless (nodes : List Node) (same : index = shared) :
      (collections.get index).removeAll nodes = ∅ := by
    rw [same, formed.nothing]
    rfl
  rw [Collections.removeAll.eq_def]
  cases source with
  | list nodes => exact formed.put (harmless nodes)
  | collection argument =>
      dsimp only
      split
      · split
        · exact formed.put (harmless _)
        · exact formed
      · exact formed.put (harmless _)

end WellFormed

theorem size_removeAll (collections : Collections Node) (index : Nat) (source : NodeSource Node) :
    (collections.removeAll index source).1.frontiers.size = collections.frontiers.size := by
  rw [removeAll.eq_def]
  cases source with
  | list nodes => exact size_put _ _ _
  | collection argument =>
      dsimp only
      split
      · split
        · exact size_put _ _ _
        · rfl
      · exact size_put _ _ _

end TreeQuery.Collections
