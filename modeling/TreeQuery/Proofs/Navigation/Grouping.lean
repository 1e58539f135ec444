import TreeQuery.Proofs.Navigation.Loops
import TreeQuery.Proofs.Navigation.Steps
import TreeQuery.Proofs.Path.Composition

/-! # Composites inside composites

A union among the delegates of a union, a chain among the links of a chain and an exclusion under an
exclusion do what they would do spread out: in every run the outcome, the lines and the calls are
the same. So a composite that grows in place does what a new composite around it would do
(`TreeQuery.PathStore.growing_agrees_with_nesting`).
-/

namespace TreeQuery

variable {Node Leaf Failure : Type} [Keyed Node]

namespace Frontier

/-- A frontier has no two nodes of one key, so that it is collected as it is. -/
theorem empty_insertAll_nodes (frontier : Frontier Node) :
    (∅ : Frontier Node).insertAll frontier.nodes = frontier := by
  apply ext_nodes
  rw [nodes_insertAll_eq_keepFirst, nodes_empty, List.nil_append, keepFirst_nodes]

/-- Nodes may be put together before they are added. -/
theorem insertAll_nodes_insertAll (frontier first : Frontier Node) (second : List Node) :
    frontier.insertAll (first.insertAll second).nodes =
      (frontier.insertAll first.nodes).insertAll second := by
  apply ext_nodes
  rw [insertAll_insertAll, nodes_insertAll_eq_keepFirst, nodes_insertAll_eq_keepFirst,
    nodes_insertAll_eq_keepFirst, keepFirst_append_keepFirst]

end Frontier

namespace Program

/-- Adding results to what was found before is adding what they come to together. -/
theorem sequence_adding_insertAll {isOver : Frontier Node → Bool}
    (ongoing : ∀ found, isOver found = false) (start : Frontier Node)
    (delegates : List (Program Node Leaf Failure)) (before found : Frontier Node) :
    Run.sequence isOver (delegates.map (adding start)) (before.insertAll found.nodes) = do
      return before.insertAll
        (← Run.sequence isOver (delegates.map (adding start)) found).nodes := by
  induction delegates generalizing found with
  | nil => simp only [List.map_nil, Run.sequence, pure_bind]
  | cons program rest ih =>
      rw [List.map_cons, Run.sequence_cons_of_not_over _ _ (ongoing _),
        Run.sequence_cons_of_not_over _ _ (ongoing _)]
      simp only [adding, bind_assoc, pure_bind, ← Frontier.insertAll_nodes_insertAll]
      congr 1
      funext result
      exact ih _

variable (front back : List (Program Node Leaf Failure))

/-- A union as the first alternative of a union contributes its own alternatives. -/
theorem union_union_cons : union (union front :: back) = union (front ++ back) := by
  funext start
  rw [union_eq_sequence, union_eq_sequence, List.map_append, Run.sequence_append, List.map_cons]
  cases nowhere : start.isEmpty with
  | true =>
      rw [Run.sequence_of_over _ rfl, Run.sequence_of_over _ rfl, pure_bind,
        Run.sequence_of_over _ rfl]
  | false =>
      rw [Run.sequence_cons_of_not_over _ _ rfl, adding, union_eq_sequence, nowhere]
      simp only [Frontier.empty_insertAll_nodes, bind_pure]

/-- A union as the last alternative of a union contributes its own alternatives. -/
theorem union_append_union : union (front ++ [union back]) = union (front ++ back) := by
  funext start
  rw [union_eq_sequence, union_eq_sequence, List.map_append, List.map_append, Run.sequence_append,
    Run.sequence_append]
  congr 1
  funext found
  cases nowhere : start.isEmpty with
  | true => rw [Run.sequence_of_over _ rfl, Run.sequence_of_over _ rfl]
  | false =>
      have inner := sequence_adding_insertAll (fun _ => rfl) start back found ∅
      rw [Frontier.nodes_empty, Frontier.insertAll_nil] at inner
      rw [List.map_cons, List.map_nil, Run.sequence_cons_of_not_over _ _ rfl, adding,
        union_eq_sequence, nowhere, inner]
      exact bind_pure _

/-- The links of a chain that opens another are links of that one. -/
theorem chain_chain_cons : chain (chain front :: back) = chain (front ++ back) := by
  funext start
  rw [chain_eq_sequence, chain_eq_sequence, Run.sequence_append]
  cases nowhere : start.isEmpty with
  | true =>
      rw [Run.sequence_of_over _ nowhere, Run.sequence_of_over _ nowhere, pure_bind,
        Run.sequence_of_over _ nowhere]
  | false => rw [Run.sequence_cons_of_not_over _ _ nowhere, chain_eq_sequence]

/-- The links of a chain that ends another are links of that one. -/
theorem chain_append_chain : chain (front ++ [chain back]) = chain (front ++ back) := by
  funext start
  rw [chain_eq_sequence, chain_eq_sequence, Run.sequence_append, Run.sequence_append]
  congr 1
  funext found
  cases nowhere : found.isEmpty with
  | true => rw [Run.sequence_of_over _ nowhere, Run.sequence_of_over _ nowhere]
  | false =>
      rw [Run.sequence_cons_of_not_over _ _ nowhere, chain_eq_sequence]
      exact bind_pure _

/-- Excluding from what an exclusion has left is excluding more from its base. -/
theorem exclusion_exclusion (sink : Sink Failure) (base : Program Node Leaf Failure) :
    exclusion sink (exclusion sink base front) back = exclusion sink base (front ++ back) := by
  funext start
  rw [exclusion_eq_sequence, exclusion_eq_sequence, List.map_append, ← List.cons_append,
    Run.sequence_append]
  cases nowhere : start.isEmpty with
  | true =>
      rw [Run.sequence_of_over _ nowhere, Run.sequence_of_over _ nowhere, pure_bind,
        Run.sequence_of_over _ nowhere]
  | false => rw [Run.sequence_cons_of_not_over _ _ nowhere, exclusion_eq_sequence]

end Program

namespace Path

variable (setting : Setting Node Leaf Failure) (front back : List (Path Leaf))

/-- The paths of a union within a union run in their order, whichever of them stand within. -/
theorem run_union_union_cons :
    (union (union front :: back)).run setting = (union (front ++ back)).run setting := by
  simp only [run, runs_eq_map, List.map_cons, List.map_append]
  exact Program.union_union_cons _ _

theorem run_union_append_union :
    (union (front ++ [union back])).run setting = (union (front ++ back)).run setting := by
  simp only [run, runs_eq_map, List.map_cons, List.map_nil, List.map_append]
  exact Program.union_append_union _ _

/-- The paths of a chain within a chain run one after the other all the same. -/
theorem run_chain_chain_cons :
    (chain (chain front :: back)).run setting = (chain (front ++ back)).run setting := by
  simp only [run, runs_eq_map, List.map_cons, List.map_append]
  exact Program.chain_chain_cons _ _

theorem run_chain_append_chain :
    (chain (front ++ [chain back])).run setting = (chain (front ++ back)).run setting := by
  simp only [run, runs_eq_map, List.map_cons, List.map_nil, List.map_append]
  exact Program.chain_append_chain _ _

/-- An exclusion of an exclusion withdraws from its base in one go. -/
theorem run_exclusion_exclusion (base : Path Leaf) :
    (exclusion (exclusion base front) back).run setting =
      (exclusion base (front ++ back)).run setting := by
  simp only [run, runs_eq_map, List.map_append]
  exact Program.exclusion_exclusion _ _ _ _

end Path

namespace PathStore

variable {setting : Setting Node Leaf Failure} {store : PathStore Leaf} {path depth : Nat}

/-- A path object that can be read does what the path read does, to every sufficient depth. -/
theorem program_of_read? {read : Path Leaf} (found : store.read? path = some read)
    (deep : store.paths.size ≤ depth) : store.program setting depth path = read.run setting :=
  program_of_readTo? deep found

section Growing

variable {other : Nat} (closed : store.Closed) (free : store.CircleFree)
  (present : path < store.paths.size) (last : other < store.paths.size)
  (untraced : store.title? path = none) (deep : store.paths.size < depth)

include closed free present last untraced deep

/-- An untraced composite of a list of parts that takes in one more does what a new composite of it
and the part would do, if such composites do when one is the first part of another. -/
theorem program_grow {shapeOf : List (PathPart Leaf) → PathShape Leaf}
    {pathOf : List (Path Leaf) → Path Leaf}
    (reads : ∀ readPart? parts,
      readShape? readPart? (shapeOf parts) = pathOf <$> parts.mapM readPart?)
    (made : ∀ parts, (shapeOf parts).parts = parts)
    (nests : ∀ front back, (pathOf (pathOf front :: back)).run setting =
      (pathOf (front ++ back)).run setting)
    {parts : List (PathPart Leaf)} (shape : store.shape path = shapeOf parts)
    (still : (store.reshape path (shapeOf (parts ++ [.path other]))).CircleFree) :
    (store.reshape path (shapeOf (parts ++ [.path other]))).program setting depth path =
      (store.create (shapeOf [.path path, .path other])).1.program setting depth
        store.paths.size := by
  obtain ⟨first, read⟩ := free.exists_readTo? closed present
  obtain ⟨second, readLast⟩ := free.exists_readTo? closed last
  have wrapped := read?_create_pair closed present (below_path last) read readLast reads made
  obtain ⟨paths, rfl, grown⟩ := read?_grow closed present (below_path last) read readLast reads made
    free shape still
  rw [untraced] at wrapped grown
  rw [program_of_read? grown (by rw [size_reshape]; exact deep.le),
    program_of_read? wrapped (by rw [size_create]; exact deep)]
  exact (nests paths [second]).symm

theorem program_grow_exclusion {base : PathPart Leaf} {excluded : List (PathPart Leaf)}
    (shape : store.shape path = .exclusion base excluded)
    (still : (store.reshape path (.exclusion base (excluded ++ [.path other]))).CircleFree) :
    (store.reshape path (.exclusion base (excluded ++ [.path other]))).program setting depth path =
      (store.create (.exclusion (.path path) [.path other])).1.program setting depth
        store.paths.size := by
  obtain ⟨first, read⟩ := free.exists_readTo? closed present
  obtain ⟨second, readLast⟩ := free.exists_readTo? closed last
  have wrapped := read?_create_exclusion closed present (below_path last) read readLast
  obtain ⟨kept, paths, rfl, grown⟩ :=
    read?_grow_exclusion closed present (below_path last) read readLast free shape still
  rw [untraced] at wrapped grown
  rw [program_of_read? grown (by rw [size_reshape]; exact deep.le),
    program_of_read? wrapped (by rw [size_create]; exact deep)]
  exact (Path.run_exclusion_exclusion setting paths [second] kept).symm

end Growing

/-- **Growing in place agrees with nesting.** In every run, whatever fails in it and whether or not
trace output is on, a union with a union for its first or its last delegates has the outcome, the
lines and the calls of the union of all delegates. So it is with chains, and with an exclusion under
an exclusion. Hence an untraced composite that takes in one more path in place does what a new
composite of it and that path would do, as long as no path object comes to hold itself. -/
theorem growing_agrees_with_nesting (setting : Setting Node Leaf Failure) :
    (∀ front back : List (Path Leaf),
      (Path.union (.union front :: back)).run setting = (Path.union (front ++ back)).run setting ∧
      (Path.union (front ++ [.union back])).run setting =
        (Path.union (front ++ back)).run setting ∧
      (Path.chain (.chain front :: back)).run setting = (Path.chain (front ++ back)).run setting ∧
      (Path.chain (front ++ [.chain back])).run setting =
        (Path.chain (front ++ back)).run setting ∧
      ∀ base, (Path.exclusion (.exclusion base front) back).run setting =
        (Path.exclusion base (front ++ back)).run setting) ∧
    ∀ store : PathStore Leaf, store.Composed → store.CircleFree → ∀ path other,
      path < store.paths.size → other < store.paths.size → store.title? path = none →
      ∀ depth, store.paths.size < depth →
        let program (composed : PathStore Leaf × Nat) :=
          composed.1.program setting depth composed.2
        (∀ delegates, store.shape path = .union delegates → ∀ grown,
          store.or path (.path other) = .ok grown → grown.1.CircleFree →
            program grown = program (store.create (.union [.path path, .path other]))) ∧
        (∀ links, store.shape path = .chain links → (store.append path other).1.CircleFree →
          program (store.append path other) =
            program (store.create (.chain [.path path, .path other]))) ∧
        (∀ base excluded, store.shape path = .exclusion base excluded →
          (store.exclude path (.path other)).1.CircleFree →
            program (store.exclude path (.path other)) =
              program (store.create (.exclusion (.path path) [.path other]))) := by
  constructor
  · intro front back
    exact ⟨Path.run_union_union_cons setting front back,
      Path.run_union_append_union setting front back, Path.run_chain_chain_cons setting front back,
      Path.run_chain_append_chain setting front back,
      Path.run_exclusion_exclusion setting front back⟩
  · intro store composed free path other present last untraced depth deep program
    refine ⟨?_, ?_, ?_⟩
    · intro delegates shape grown united still
      rw [or, shape] at united
      cases united
      exact program_grow composed.closed free present last untraced deep (fun _ _ => rfl)
        (fun _ => rfl) (Path.run_union_union_cons setting) shape still
    · intro links shape still
      have grown : store.append path other =
          (store.reshape path (.chain (links ++ [.path other])), path) := by
        rw [append, shape]
      rw [grown] at still ⊢
      exact program_grow composed.closed free present last untraced deep (fun _ _ => rfl)
        (fun _ => rfl) (Path.run_chain_chain_cons setting) shape still
    · intro base excluded shape still
      have grown : store.exclude path (.path other) =
          (store.reshape path (.exclusion base (excluded ++ [.path other])), path) := by
        rw [exclude, shape]
      rw [grown] at still ⊢
      exact program_grow_exclusion composed.closed free present last untraced deep shape still

end PathStore

end TreeQuery

namespace TreeQuery.Grove

open PathStore (below_path)

/-- Two simple paths and a composite of each kind that holds the first of them. -/
def mixed : PathStore String :=
  let children := ({} : PathStore String).create (.simple [some (.traversal .children .any)])
  let accepted := children.1.create (.simple [some (named "b"), none])
  let union := accepted.1.create (.union [.path 0])
  let chain := union.1.create (.chain [.path 0])
  (chain.1.create (.exclusion (.path 0) [])).1

theorem simple_below (steps : List (Option (Predicate String))) (count : Nat) :
    ∀ part ∈ (PathShape.simple steps).parts, part.Below count :=
  fun _ member => absurd member List.not_mem_nil

theorem mixed_composed : mixed.Composed := by
  refine .create (.create (.create (.create (.create .empty (simple_below _ _))
    (simple_below _ _)) ?_) ?_) ?_
  all_goals exact List.forall_mem_singleton.mpr (below_path (by decide))

theorem mixed_layered : mixed.Layered := by
  refine .create (.create (.create (.create (.create PathStore.layered_empty (simple_below _ _))
    (simple_below _ _)) ?_) ?_) ?_
  all_goals exact List.forall_mem_singleton.mpr (below_path (by decide))

/-- No path object comes to hold itself when a composite takes in the second simple path. -/
theorem mixed_grown_circleFree {shape : PathShape String} {path : Nat} (present : path < 5)
    (made : shape.parts = [.path 0, .path 1]) (later : 1 < path) :
    (mixed.reshape path shape).CircleFree := by
  refine (mixed_layered.reshape present ?_).circleFree
  rw [made, List.forall_mem_cons, List.forall_mem_singleton]
  exact ⟨below_path (Nat.zero_lt_of_lt later), below_path later⟩

/-- In the grove, for a union, a chain and an exclusion that take in a path with a missing step. -/
theorem mixed_growing_agrees :
    mixed.Composed ∧ mixed.CircleFree ∧
    let program (composed : PathStore String × Nat) := composed.1.program setting 9 composed.2
    (∃ grown, mixed.or 2 (.path 1) = .ok grown ∧ grown.1.CircleFree ∧
      program grown = program (mixed.create (.union [.path 2, .path 1]))) ∧
    (mixed.append 3 1).1.CircleFree ∧
    program (mixed.append 3 1) = program (mixed.create (.chain [.path 3, .path 1])) ∧
    (mixed.exclude 4 (.path 1)).1.CircleFree ∧
    program (mixed.exclude 4 (.path 1)) =
      program (mixed.create (.exclusion (.path 4) [.path 1])) := by
  have agrees := (PathStore.growing_agrees_with_nesting setting).2 mixed mixed_composed
    mixed_layered.circleFree
  have united : (mixed.reshape 2 (.union [.path 0, .path 1])).CircleFree :=
    mixed_grown_circleFree (by decide) rfl (by decide)
  have chained : (mixed.append 3 1).1.CircleFree :=
    mixed_grown_circleFree (by decide) rfl (by decide)
  have excluded : (mixed.exclude 4 (.path 1)).1.CircleFree :=
    mixed_grown_circleFree (by decide) rfl (by decide)
  refine ⟨mixed_composed, mixed_layered.circleFree, ⟨_, rfl, united, ?_⟩, chained, ?_, excluded, ?_⟩
  · exact (agrees 2 1 (by decide) (by decide) rfl 9 (by decide)).1 [.path 0] rfl _ rfl united
  · exact (agrees 3 1 (by decide) (by decide) rfl 9 (by decide)).2.1 [.path 0] rfl chained
  · exact (agrees 4 1 (by decide) (by decide) rfl 9 (by decide)).2.2 (.path 0) [] rfl excluded

end TreeQuery.Grove
