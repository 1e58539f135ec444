import Mathlib.Data.ENat.Lattice
import TreeQuery.Proofs.Navigation.Distribution
import TreeQuery.Proofs.Navigation.Nearest
import TreeQuery.Proofs.Run.Muted

/-! # Deepening from several starts

A traversal that deepens moves all its starts down together and stops at the first generation with a
match. So it finds nothing below a start whose nearest match is deeper than that of another start,
and where nodes have keys of their own it finds what is found from each of the nearest starts alone,
in their order (`TreeQuery.Path.search_from_nearest_starts`). Children may have several parents.
-/

namespace TreeQuery

open Frontier (Gathers keepFirst)

variable {Node Leaf Failure : Type}

namespace Tree

/-- How far below a node the nearest nodes are that pass a test, not counting the node itself. Where
there are none, they are infinitely far. -/
noncomputable def matchDepth (children : Node → Listing Node Failure) (passes : Node → Bool)
    (node : Node) : ℕ∞ :=
  sInf {depth | ∃ count : ℕ, depth = (count + 1 : ℕ) ∧
    ∃ found, Descends children node (count + 1) found ∧ passes found = true}

section MatchDepth

variable {children : Node → Listing Node Failure} {passes : Node → Bool} {node : Node}

theorem matchDepth_le {count : ℕ} {found : Node}
    (descends : Descends children node (count + 1) found) (passed : passes found = true) :
    matchDepth children passes node ≤ (count + 1 : ℕ) :=
  sInf_le ⟨count, rfl, found, descends, passed⟩

/-- A match that is not infinitely far is at its depth. -/
theorem exists_of_matchDepth_ne_top (finite : matchDepth children passes node ≠ ⊤) :
    ∃ count : ℕ, matchDepth children passes node = (count + 1 : ℕ) ∧
      ∃ found, Descends children node (count + 1) found ∧ passes found = true := by
  have some : {depth : ℕ∞ | ∃ count : ℕ, depth = (count + 1 : ℕ) ∧
      ∃ found, Descends children node (count + 1) found ∧ passes found = true}.Nonempty := by
    rw [Set.nonempty_iff_ne_empty]
    intro none
    exact finite (by rw [matchDepth, none, sInf_empty])
  exact csInf_mem some

/-- The least of finitely many depths is one of them, unless all are infinite. -/
theorem exists_matchDepth_eq_iInf {nodes : List Node}
    (finite : (⨅ node ∈ nodes, matchDepth children passes node) ≠ ⊤) :
    ∃ node ∈ nodes, matchDepth children passes node =
      ⨅ node ∈ nodes, matchDepth children passes node := by
  have some : (matchDepth children passes '' {node | node ∈ nodes}).Nonempty := by
    obtain ⟨node, member⟩ := List.exists_mem_of_ne_nil nodes (by rintro rfl; simp at finite)
    exact ⟨_, node, member, rfl⟩
  have attained := csInf_mem some
  rw [sInf_image] at attained
  exact attained

end MatchDepth

end Tree

variable {region : Set Node} {host : Host Node Failure} {passes : Node → Bool}

theorem Axis.confined_descendants (confined : Tree.Confined host.children region) :
    ∀ relation ∈ descendants.relations, Tree.Confined (host.related relation) region := by
  rw [relations, List.forall_mem_singleton]
  exact confined

variable [Keyed Node]

/-- The matches among the nodes to which a number of moves down leads. -/
def Axis.generation (host : Host Node Failure) (passes : Node → Bool) (count : ℕ)
    (nodes : List Node) : List Node :=
  ((moved host descendants)^[count] nodes).filter passes

section Generations

open Axis (generation)

variable (confined : Tree.Confined host.children region) (unique : Set.InjOn Keyed.key region)

include confined unique

/-- Moving down together gathers what each start leads to, however often it is done. -/
theorem Axis.iterate_moved_gathers (count : ℕ) :
    ∃ reached, Gathers region reached (moved host descendants)^[count] := by
  induction count with
  | zero => exact ⟨_, .refl⟩
  | succ count ih =>
      obtain ⟨reached, gathers⟩ := ih
      have first := moved_gathers unique (confined_descendants confined)
      exact ⟨_, first.andThen gathers⟩

/-- The matches of a generation are those of each start, in order. -/
theorem Axis.generation_eq_flatMap (count : ℕ) {nodes : List Node}
    (inside : ∀ node ∈ nodes, node ∈ region) :
    generation host passes count (keepFirst nodes) =
      keepFirst (nodes.flatMap fun node => generation host passes count [node]) := by
  obtain ⟨reached, moves⟩ := iterate_moved_gathers confined unique count
  have chosen := moves.andThen (.filter unique passes)
  have whole : Gathers region _ fun nodes => generation host passes count (keepFirst nodes) :=
    { stays := chosen.stays
      gathers := fun nodes inside => by
        rw [Frontier.keepFirst_keepFirst]
        exact chosen.gathers nodes inside }
  exact whole.eq_flatMap (fun nodes => by rw [Frontier.keepFirst_keepFirst]) inside

/-- A generation below a node has a match if a node at its depth passes the test. -/
theorem Axis.generation_ne_nil_iff {count : ℕ} {node : Node} (inside : node ∈ region) :
    generation host passes count [node] ≠ [] ↔
      ∃ found, Tree.Descends host.children node count found ∧ passes found = true := by
  have within : ∀ other ∈ [node], other ∈ region := List.forall_mem_singleton.mpr inside
  simp only [generation, ne_eq, List.filter_eq_nil_iff, not_forall, not_not, exists_prop,
    mem_iterate_moved_descendants confined unique within, List.mem_singleton, exists_eq_left]

/-- Above the nearest match there is none. -/
theorem Axis.generation_eq_nil {count : ℕ} {node : Node} (inside : node ∈ region)
    (shallow : (count + 1 : ℕ) < Tree.matchDepth host.children passes node) :
    generation host passes (count + 1) [node] = [] := by
  by_contra some
  obtain ⟨found, descends, passed⟩ := (generation_ne_nil_iff confined unique inside).mp some
  exact absurd (Tree.matchDepth_le descends passed) (not_le_of_gt shallow)

theorem Axis.generation_ne_nil {count : ℕ} {node : Node} (inside : node ∈ region)
    (depth : Tree.matchDepth host.children passes node = (count + 1 : ℕ)) :
    generation host passes (count + 1) [node] ≠ [] := by
  obtain ⟨count', same, found⟩ :=
    Tree.exists_of_matchDepth_ne_top (depth ▸ ENat.natCast_ne_top (count + 1))
  have equal : count + 1 = count' + 1 := Nat.cast_injective (depth.symm.trans same)
  rw [equal]
  exact (generation_ne_nil_iff confined unique inside).mpr found

/-- Deepening from one node stops at its depth. -/
theorem firstMatch_singleton {count : ℕ} {node : Node} (inside : node ∈ region)
    (depth : Tree.matchDepth host.children passes node = (count + 1 : ℕ)) :
    firstMatch (Axis.moved host .descendants) passes [node] =
      generation host passes (count + 1) [node] := by
  apply firstMatch_of_first
  · exact Axis.generation_ne_nil confined unique inside depth
  · intro earlier less
    apply Axis.generation_eq_nil confined unique inside
    rw [depth, Nat.cast_lt]
    omega

/-- Deepening from several nodes stops at the least of their depths, and takes what there is below
the nodes of that depth. -/
theorem firstMatch_nearest {nodes : List Node} {count : ℕ}
    (inside : ∀ node ∈ nodes, node ∈ region)
    (least : (⨅ node ∈ nodes, Tree.matchDepth host.children passes node) = (count + 1 : ℕ)) :
    firstMatch (Axis.moved host .descendants) passes (keepFirst nodes) =
      keepFirst ((nodes.filter fun node =>
          decide (Tree.matchDepth host.children passes node = (count + 1 : ℕ))).flatMap
        fun node => firstMatch (Axis.moved host .descendants) passes [node]) := by
  have deeper : ∀ node ∈ nodes,
      ((count + 1 : ℕ) : ℕ∞) ≤ Tree.matchDepth host.children passes node :=
    fun node member => least ▸ iInf₂_le node member
  have parts : ∀ count, generation host passes count (keepFirst nodes) =
      keepFirst (nodes.flatMap fun node => generation host passes count [node]) :=
    fun count => Axis.generation_eq_flatMap confined unique count inside
  have stops : firstMatch (Axis.moved host .descendants) passes (keepFirst nodes) =
      generation host passes (count + 1) (keepFirst nodes) := by
    apply firstMatch_of_first
    · change generation host passes (count + 1) (keepFirst nodes) ≠ []
      obtain ⟨node, member, depth⟩ :=
        Tree.exists_matchDepth_eq_iInf (least ▸ ENat.natCast_ne_top (count + 1))
      rw [least] at depth
      have some := Axis.generation_ne_nil confined unique (inside node member) depth
      obtain ⟨found, present⟩ := List.exists_mem_of_ne_nil _ some
      have listed : found ∈ nodes.flatMap fun node => generation host passes (count + 1) [node] :=
        List.mem_flatMap.mpr ⟨node, member, present⟩
      obtain ⟨first, kept, -⟩ := Frontier.exists_mem_keepFirst listed
      rw [parts]
      exact List.ne_nil_of_mem kept
    · intro earlier less
      change generation host passes (earlier + 1) (keepFirst nodes) = []
      rw [parts, List.flatMap_eq_nil_iff.mpr]
      · rfl
      · intro node member
        apply Axis.generation_eq_nil confined unique (inside node member)
        refine lt_of_lt_of_le ?_ (deeper node member)
        rw [Nat.cast_lt]
        omega
  have idle : (nodes.filter fun node =>
      decide (Tree.matchDepth host.children passes node = (count + 1 : ℕ))).flatMap
        (fun node => generation host passes (count + 1) [node]) =
      nodes.flatMap fun node => generation host passes (count + 1) [node] := by
    apply Frontier.flatMap_filter_of_nil
    intro node member other
    apply Axis.generation_eq_nil confined unique (inside node member)
    exact lt_of_le_of_ne (deeper node member) (Ne.symm (of_decide_eq_false other))
  rw [stops, parts, ← idle]
  congr 1
  apply List.flatMap_congr
  intro node member
  obtain ⟨present, depth⟩ := List.mem_filter.mp member
  exact (firstMatch_singleton confined unique (inside node present) (of_decide_eq_true depth)).symm

/-- Deepening finds nothing where no start has a match below it. -/
theorem firstMatch_nowhere {nodes : List Node} (inside : ∀ node ∈ nodes, node ∈ region)
    (none : (⨅ node ∈ nodes, Tree.matchDepth host.children passes node) = ⊤) :
    firstMatch (Axis.moved host .descendants) passes (keepFirst nodes) = [] := by
  apply firstMatch_of_none
  intro count
  change generation host passes (count + 1) (keepFirst nodes) = []
  rw [Axis.generation_eq_flatMap confined unique _ inside, List.flatMap_eq_nil_iff.mpr]
  · rfl
  · intro node member
    apply Axis.generation_eq_nil confined unique (inside node member)
    have infinite : Tree.matchDepth host.children passes node = ⊤ :=
      top_le_iff.mp (none ▸ iInf₂_le node member)
    rw [infinite]
    exact ENat.natCast_lt_top (count + 1)

end Generations

namespace Path

variable {setting : Setting Node Leaf Failure} {test : Predicate Leaf}

omit [Keyed Node] in
theorem Fit.search_descendants (confined : Tree.Confined setting.host.children region)
    (labelled : ∃ text, test.label = .ok text) (answers : test.Answers setting.answer region) :
    (Path.search .descendants test).Fit setting.host setting.answer region := by
  apply Fit.search
  apply Predicate.Fit.traversal labelled answers
  · exact Axis.confined_descendants confined
  · decide

/-- A search that deepens ends, with trace output off, with the first match below its starts. -/
theorem search_endsMuted (grounded : Tree.Grounded setting.host.children region)
    (labelled : ∃ text, test.label = .ok text) (answers : test.Answers setting.answer region)
    (patient : region.ncard ≤ setting.patience) {start : List Node}
    (inside : ∀ node ∈ start, node ∈ region) :
    ∃ found, ((search .descendants test).navigate setting start).EndsMuted (.ok found) ∧
      found.nodes = firstMatch (Axis.moved setting.host .descendants) (test.holds setting.answer)
        (keepFirst start) := by
  have fit : (search .descendants test).Fit setting.host setting.answer region :=
    .search_descendants grounded.confined labelled answers
  have settles : ((search .descendants test).navigate (setting.reporting .accepting) start).Settles
      fun found => found.nodes =
        (search .descendants test).meaning setting.host setting.answer start := by
    apply Fit.navigate_settles
    · exact fun _ _ => rfl
    · exact grounded
    · exact patient
    · exact fit
    · exact inside
  obtain ⟨found, ends, finds⟩ := settles
  exact ⟨found, navigate_endsMuted rfl ends, finds⟩

/-- **Only the nearest starts count.** In a finite region of a tree without circles, where nodes may
have several parents but have keys of their own, and with a test that does not fail, deepening from
several starts with patience enough finds nothing if no start has a match below it. Else it finds
what is found from each of those starts alone whose nearest match is no deeper than that of any
other, put together in their order. -/
theorem search_from_nearest_starts (grounded : Tree.Grounded setting.host.children region)
    (unique : Set.InjOn Keyed.key region) (labelled : ∃ text, test.label = .ok text)
    (answers : test.Answers setting.answer region) :
    ∃ enough, ∀ patience, enough ≤ patience →
      ∀ start : List Node, (∀ node ∈ start, node ∈ region) →
        let patient := { setting with patience := patience }
        let depth := Tree.matchDepth setting.host.children (test.holds setting.answer)
        let least := ⨅ node ∈ start, depth node
        ∃ (single : Node → Frontier Node) (found : Frontier Node),
          (∀ node ∈ start,
            ((search .descendants test).navigate patient [node]).EndsMuted (.ok (single node))) ∧
          ((search .descendants test).navigate patient start).EndsMuted (.ok found) ∧
          (least = ⊤ → found = ∅) ∧
          (least ≠ ⊤ → found = (start.filter fun node => decide (depth node = least)).foldl
            (fun found node => found.insertAll (single node).nodes) ∅) := by
  refine ⟨region.ncard, fun patience patient start inside => ?_⟩
  dsimp only
  have searches : ∀ start : List Node, (∀ node ∈ start, node ∈ region) → ∃ found,
      ((search .descendants test).navigate { setting with patience } start).EndsMuted (.ok found) ∧
        found.nodes = firstMatch (Axis.moved setting.host .descendants)
          (test.holds setting.answer) (keepFirst start) := by
    intro start inside
    apply search_endsMuted
    · exact grounded
    · exact labelled
    · exact answers
    · exact patient
    · exact inside
  choose! single singleEnds singleFinds using fun node (within : node ∈ region) =>
    searches [node] (List.forall_mem_singleton.mpr within)
  obtain ⟨found, ends, finds⟩ := searches start inside
  refine ⟨single, found, fun node member => singleEnds node (inside node member), ends, ?_, ?_⟩
  · intro none
    apply Frontier.ext_nodes
    rw [finds, firstMatch_nowhere grounded.confined unique inside none]
    rfl
  · intro finite
    obtain ⟨node, member, attained⟩ := Tree.exists_matchDepth_eq_iInf finite
    obtain ⟨count, depth, -⟩ := Tree.exists_of_matchDepth_ne_top (attained ▸ finite)
    have least := attained.symm.trans depth
    apply Frontier.ext_nodes
    rw [finds, firstMatch_nearest grounded.confined unique inside least,
      Frontier.nodes_foldl_insertAll, Frontier.nodes_empty, List.nil_append, least]
    congr 1
    apply List.flatMap_congr
    intro node chosen
    exact (singleFinds node (inside node (List.mem_filter.mp chosen).1)).symm

end Path

end TreeQuery

namespace TreeQuery.Grove

/-- In the part of the grove, for its lowest node, to which the other nodes are not equally near. -/
theorem nearer_start_counts :
    ∃ enough, ∀ patience, enough ≤ patience →
      ∀ start : List Value, (∀ node ∈ start, node ∈ part) →
        let patient := { setting with patience := patience }
        let depth := Tree.matchDepth setting.host.children ((named "z").holds setting.answer)
        let least := ⨅ node ∈ start, depth node
        ∃ (single : Value → Frontier Value) (found : Frontier Value),
          (∀ node ∈ start, ((Path.search .descendants (named "z")).navigate patient
            [node]).EndsMuted (.ok (single node))) ∧
          ((Path.search .descendants (named "z")).navigate patient start).EndsMuted (.ok found) ∧
          (least = ⊤ → found = ∅) ∧
          (least ≠ ⊤ → found = (start.filter fun node => decide (depth node = least)).foldl
            (fun found node => found.insertAll (single node).nodes) ∅) := by
  apply Path.search_from_nearest_starts
  · exact part_isTree.toGrounded
  · exact part_keys
  · exact ⟨_, rfl⟩
  · exact fun _ _ => ⟨_, rfl⟩

end TreeQuery.Grove
