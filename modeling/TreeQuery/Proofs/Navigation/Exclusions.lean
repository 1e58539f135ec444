import TreeQuery.Proofs.Navigation.Laws

/-! # Excluding several paths

An exclusion takes one result after the other out of what its base found, and stops as soon as
nothing is left. Neither the order of the excluded paths nor their repetition makes a difference to
what remains, and excluding them one by one is excluding their union
(`TreeQuery.Path.exclusions_agree`).
-/

namespace TreeQuery

variable {Node Leaf Failure : Type} [Keyed Node] {setting : Setting Node Leaf Failure}

namespace Frontier

/-- What is taken out of a frontier is decided by the keys that occur. -/
theorem removeAll_congr {gone lost : List Node}
    (same : ∀ key, key ∈ gone.map Keyed.key ↔ key ∈ lost.map Keyed.key)
    (frontier : Frontier Node) : frontier.removeAll gone = frontier.removeAll lost := by
  apply ext_nodes
  rw [nodes_removeAll_eq_without, nodes_removeAll_eq_without, without_congr same]

/-- A frontier of nodes takes out what the nodes themselves take out. -/
theorem removeAll_ofList (frontier : Frontier Node) (gone : List Node) :
    frontier.removeAll (ofList gone).nodes = frontier.removeAll gone := by
  apply removeAll_congr
  intro key
  rw [nodes_ofList_eq_keepFirst, mem_keys_keepFirst]

end Frontier

namespace Path

/-- From a sink that takes every line, a path that finds something in one run finds it in every
run. -/
theorem ends_of_yields (accepts : setting.sink.Accepts) {path : Path Leaf}
    {start found : Frontier Node} (yields : (path.run setting start).Yields found) :
    (path.run setting start).Ends (.ok found) := by
  have ends := (Evaluation.run_takes accepts path start).ends
  exact yields.of_ends ends ▸ ends

variable {start : Frontier Node} {paths : List (Path Leaf)} {results : Path Leaf → Frontier Node}
  (each : ∀ path ∈ paths, (path.run setting start).Ends (.ok (results path)))

include each

/-- From no node nothing is found. -/
theorem flatMap_results_eq_nil (nowhere : start = ∅) :
    (paths.flatMap fun path => (results path).nodes) = [] := by
  rw [List.flatMap_eq_nil_iff]
  intro path member
  rw [eq_empty_of_run_ends (each path member) nowhere]
  rfl

theorem collect_ends (found : Frontier Node) :
    (Program.collect (runs setting paths) start found).Ends
      (.ok (found.insertAll (paths.flatMap fun path => (results path).nodes))) := by
  induction paths generalizing found with
  | nil =>
      rw [List.flatMap_nil, Frontier.insertAll_nil]
      exact .pure found
  | cons path rest ih =>
      obtain ⟨here, there⟩ := List.forall_mem_cons.mp each
      rw [List.flatMap_cons, ← Frontier.insertAll_insertAll]
      exact here.bind_ok (ih there _)

theorem union_ends :
    ((union paths).run setting start).Ends
      (.ok (.ofList (paths.flatMap fun path => (results path).nodes))) := by
  rw [run]
  apply Frontier.ends_unless_empty
  · intro nowhere
    rw [flatMap_results_eq_nil each nowhere]
    rfl
  · exact collect_ends each ∅

/-- Stopping as soon as nothing is left leaves what would be left in the end. -/
theorem withdraw_ends (accepts : setting.sink.Accepts) (found : Frontier Node) :
    (Program.withdraw setting.sink (runs setting paths) start found).Ends
      (.ok (found.removeAll (paths.flatMap fun path => (results path).nodes))) := by
  induction paths generalizing found with
  | nil =>
      rw [List.flatMap_nil, Frontier.removeAll_nil]
      exact .pure found
  | cons path rest ih =>
      obtain ⟨here, there⟩ := List.forall_mem_cons.mp each
      rw [List.flatMap_cons, ← Frontier.removeAll_removeAll]
      refine (Run.Ends.send accepts _).bind_ok (here.bind_ok ?_)
      refine (Run.Ends.send accepts _).bind_ok (Frontier.ends_unless_empty ?_ (ih there _))
      intro none
      rw [none]
      rfl

theorem exclusion_ends (accepts : setting.sink.Accepts) {base : Path Leaf} {left : Frontier Node}
    (finds : (base.run setting start).Ends (.ok left)) :
    ((exclusion base paths).run setting start).Ends
      (.ok (left.removeAll (paths.flatMap fun path => (results path).nodes))) := by
  rw [run]
  apply Frontier.ends_unless_empty
  · intro nowhere
    rw [eq_empty_of_run_ends finds nowhere]
    rfl
  · refine finds.bind_ok (Frontier.ends_unless_empty ?_ (withdraw_ends each accepts left))
    intro none
    rw [none]
    rfl

omit each

/-- **Exclusions agree.** Where a base and the paths to exclude each find something, what remains of
what the base found is what no excluded path found, in the order of the base. It remains for every
list of the same excluded paths, whatever their order and however often each of them is there, and
it remains if their union is excluded. That no path is run any more once nothing is left does not
show. -/
theorem exclusions_agree (accepts : setting.sink.Accepts) {base : Path Leaf}
    {excluded : List (Path Leaf)} {start : List Node} {left : Frontier Node}
    {results : Path Leaf → Frontier Node} (finds : (base.navigate setting start).Yields left)
    (each : ∀ path ∈ excluded, (path.navigate setting start).Yields (results path)) :
    ∃ remaining : Frontier Node,
      remaining.nodes =
        Frontier.without (excluded.flatMap fun path => (results path).keys) left.nodes ∧
      (∀ others : List (Path Leaf), (∀ path, path ∈ others ↔ path ∈ excluded) →
        ((exclusion base others).navigate setting start).Ends (.ok remaining)) ∧
      ((exclusion base [union excluded]).navigate setting start).Ends (.ok remaining) := by
  have begun := ends_of_yields accepts finds
  have ends := fun path member => ends_of_yields accepts (each path member)
  refine ⟨left.removeAll (excluded.flatMap fun path => (results path).nodes), ?_, ?_, ?_⟩
  · rw [Frontier.nodes_removeAll_eq_without, List.map_flatMap]
    rfl
  · intro others same
    have gone : left.removeAll (others.flatMap fun path => (results path).nodes) =
        left.removeAll (excluded.flatMap fun path => (results path).nodes) := by
      apply Frontier.removeAll_congr
      intro key
      simp only [List.map_flatMap, List.mem_flatMap, same]
    rw [← gone]
    exact exclusion_ends (fun path member => ends path ((same path).mp member)) accepts begun
  · rw [← Frontier.removeAll_ofList]
    exact exclusion_pair_ends begun (union_ends ends) accepts

end Path

end TreeQuery

namespace TreeQuery.Grove

/-- Looks for the children with an identifier. -/
def childrenNamed (identifier : String) : Path String :=
  .simple [some (.traversal .children (named identifier))]

/-- In the grove, where the second of two excluded paths is a union that finds what the first does,
besides something that the base does not find. -/
theorem childrenNamed_exclusions_agree :
    let base : Path String := .simple [some (.traversal .children .any)]
    let inner := Path.union [childrenNamed "a", .simple []]
    (∃ left : Frontier Value, (base.navigate setting [spot 0 "r"]).Yields left) ∧
    (∀ path ∈ [childrenNamed "a", inner], ∃ found : Frontier Value,
      (path.navigate setting [spot 0 "r"]).Yields found) ∧
    ∃ remaining : Frontier Value, remaining.nodes = [spot 2 "b"] ∧
      (∀ others, (∀ path, path ∈ others ↔ path ∈ [childrenNamed "a", inner]) →
        ((Path.exclusion base others).navigate setting [spot 0 "r"]).Ends (.ok remaining)) ∧
      ((Path.exclusion base [.union [childrenNamed "a", inner]]).navigate setting
        [spot 0 "r"]).Ends (.ok remaining) := by
  intro base inner
  have accepts : setting.sink.Accepts := fun _ _ => rfl
  -- What the simple path and the union each find.
  let results : Path String → Frontier Value
    | .union _ => .ofList [spot 1 "a", spot 0 "r"]
    | _ => .ofList [spot 1 "a"]
  have finds : (base.navigate setting [spot 0 "r"]).Yields (.ofList [spot 1 "a", spot 2 "b"]) :=
    ⟨{}, _, rfl⟩
  have each : ∀ path ∈ [childrenNamed "a", inner],
      (path.navigate setting [spot 0 "r"]).Yields (results path) := by
    rw [List.forall_mem_cons, List.forall_mem_singleton]
    exact ⟨⟨{}, _, rfl⟩, {}, _, rfl⟩
  exact ⟨⟨_, finds⟩, fun path member => ⟨_, each path member⟩,
    Path.exclusions_agree accepts finds each⟩

end TreeQuery.Grove
