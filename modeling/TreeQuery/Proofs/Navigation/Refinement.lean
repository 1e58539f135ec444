import TreeQuery.Proofs.Navigation.Steps

/-! # Navigation finds what paths denote

Navigation looks at the frontier before each step and each part of a path and stops as soon as it is
empty. None of these short cuts shows in the result: in a grounded region where nothing fails, every
path ends with exactly the nodes that it denotes, in the same order, whatever is traced
(`TreeQuery.Path.navigate_settles_on_meaning`).
-/

namespace TreeQuery

open Frontier (Consists keepFirst without)

variable {Node Leaf Failure : Type} [Keyed Node] {setting : Setting Node Leaf Failure}
  {region : Set Node}

/-- A path none of whose parts fails in a region: no step is missing, every step is fit, and no
stray stands in the place of a path. -/
inductive Path.Fit (host : Host Node Failure) (answer : Leaf → Node → Except (Fault Failure) Value)
    (region : Set Node) : Path Leaf → Prop where
  | simple {steps : List (Option (Predicate Leaf))} :
      (∀ step? ∈ steps, ∃ step, step? = some step ∧ step.Fit host answer region) →
        Fit host answer region (.simple steps)
  | union {delegates : List (Path Leaf)} :
      (∀ delegate ∈ delegates, Fit host answer region delegate) →
        Fit host answer region (.union delegates)
  | exclusion {base : Path Leaf} {excluded : List (Path Leaf)} :
      Fit host answer region base → (∀ path ∈ excluded, Fit host answer region path) →
        Fit host answer region (.exclusion base excluded)
  | chain {links : List (Path Leaf)} :
      (∀ link ∈ links, Fit host answer region link) → Fit host answer region (.chain links)
  | traced {body : Path Leaf} (title : String) :
      Fit host answer region body → Fit host answer region (.traced title body)

/-- The path of a single traversal. -/
def Path.search (axis : Axis) (test : Predicate Leaf) : Path Leaf :=
  .simple [some (.traversal axis test)]

omit [Keyed Node] in
theorem Path.Fit.search {host : Host Node Failure}
    {answer : Leaf → Node → Except (Fault Failure) Value} {axis : Axis} {test : Predicate Leaf}
    (fit : (Predicate.traversal axis test).Fit host answer region) :
    (Path.search axis test).Fit host answer region := by
  apply Fit.simple
  rw [List.forall_mem_singleton]
  exact ⟨_, rfl, fit⟩

/-- A run settles on the meaning of a path from every frontier within the region. -/
def Path.Refined (setting : Setting Node Leaf Failure) (region : Set Node) (path : Path Leaf) :
    Prop :=
  ∀ start : Frontier Node, (∀ node ∈ start.nodes, node ∈ region) →
    (path.run setting start).Settles
      (Consists region (path.meaning setting.host setting.answer start.nodes))

namespace Program

/-- Steps settle on what they select one after the other. -/
theorem runSteps_settles (accepts : setting.sink.Accepts)
    (grounded : Tree.Grounded setting.host.children region)
    (patient : region.ncard ≤ setting.patience) {steps : List (Option (Predicate Leaf))}
    (fit : ∀ step? ∈ steps, ∃ step, step? = some step ∧
      step.Fit setting.host setting.answer region)
    (index : Nat) {frontier : Frontier Node} (inside : ∀ node ∈ frontier.nodes, node ∈ region) :
    (runSteps setting index steps frontier).Settles
      (Consists region (steps.foldl (fun nodes step? => step?.elim [] fun step =>
        step.selected setting.host setting.answer nodes) frontier.nodes)) := by
  induction steps generalizing index frontier with
  | nil => exact .pure (Frontier.consists_nodes inside)
  | cons step? rest ih =>
      obtain ⟨step, rfl, fits⟩ := fit step? List.mem_cons_self
      rw [runSteps, List.foldl_cons, Option.elim_some]
      apply Frontier.settles_unless_empty
      · intro none
        rw [none, step.selected_nil, Path.foldl_selected_nil]
      · intro some
        apply (fits.step_settles grounded inside some patient).bind
        intro found consists
        apply (Setting.labelOf_settles fits.labelled).bind
        intro label _
        apply Run.Settles.after_send accepts
        have later := ih (fun other member => fit other (List.mem_cons_of_mem _ member))
          (index + 1) consists.inside
        rw [consists.1] at later
        split
        · exact .after_send accepts _ later
        · exact later

theorem collect_settles {delegates : List (Path Leaf)}
    (refined : ∀ delegate ∈ delegates, delegate.Refined setting region) {start : Frontier Node}
    (inside : ∀ node ∈ start.nodes, node ∈ region) {found : Frontier Node}
    (within : ∀ node ∈ found.nodes, node ∈ region) :
    (collect (Path.runs setting delegates) start found).Settles
      (Consists region (keepFirst (found.nodes ++ delegates.flatMap fun delegate =>
        delegate.meaning setting.host setting.answer start.nodes))) := by
  induction delegates generalizing found with
  | nil =>
      rw [Path.runs, List.flatMap_nil, List.append_nil, Frontier.keepFirst_nodes]
      exact .pure (Frontier.consists_nodes within)
  | cons delegate rest ih =>
      rw [Path.runs, collect]
      refine (refined delegate List.mem_cons_self start inside).bind fun result consists => ?_
      have grown := Frontier.nodes_insertAll_eq_keepFirst found result.nodes
      have still : ∀ node ∈ (found.insertAll result.nodes).nodes, node ∈ region := by
        intro node member
        rw [grown] at member
        rcases List.mem_append.mp (Frontier.mem_of_mem_keepFirst member) with old | new
        · exact within node old
        · exact consists.inside node new
      rw [List.flatMap_cons, ← consists.1, ← List.append_assoc,
        ← Frontier.keepFirst_keepFirst_append, ← grown]
      exact ih (fun other member => refined other (List.mem_cons_of_mem _ member)) still

theorem withdraw_settles (accepts : setting.sink.Accepts) {excluded : List (Path Leaf)}
    (refined : ∀ path ∈ excluded, path.Refined setting region) {start : Frontier Node}
    (inside : ∀ node ∈ start.nodes, node ∈ region) {found : Frontier Node}
    (within : ∀ node ∈ found.nodes, node ∈ region) :
    (withdraw setting.sink (Path.runs setting excluded) start found).Settles
      (Consists region (without ((excluded.flatMap fun path =>
        path.meaning setting.host setting.answer start.nodes).map Keyed.key) found.nodes)) := by
  induction excluded generalizing found with
  | nil =>
      rw [Path.runs, List.flatMap_nil, List.map_nil, Frontier.without_nil]
      exact .pure (Frontier.consists_nodes within)
  | cons path rest ih =>
      rw [Path.runs, withdraw]
      refine .after_send accepts _ ?_
      refine (refined path List.mem_cons_self start inside).bind fun result consists => ?_
      refine .after_send accepts _ ?_
      have left := Frontier.nodes_removeAll_eq_without found result.nodes
      rw [List.flatMap_cons, ← consists.1, List.map_append, ← Frontier.without_without, ← left]
      apply Frontier.settles_unless_empty
      · intro none
        rw [none]
        rfl
      · intro _
        apply ih fun other member => refined other (List.mem_cons_of_mem _ member)
        intro node member
        rw [left, Frontier.mem_without] at member
        exact within node member.1

theorem chain_settles {links : List (Path Leaf)}
    (refined : ∀ link ∈ links, link.Refined setting region) {start : Frontier Node}
    (inside : ∀ node ∈ start.nodes, node ∈ region) :
    (chain (Path.runs setting links) start).Settles
      (Consists region (links.foldl (fun nodes link =>
        link.meaning setting.host setting.answer nodes) start.nodes)) := by
  induction links generalizing start with
  | nil => exact .pure (Frontier.consists_nodes inside)
  | cons link rest ih =>
      rw [Path.runs, chain, List.foldl_cons]
      apply Frontier.settles_unless_empty
      · intro none
        rw [none, link.meaning_nil, List.foldl_fixed' (Path.meaning_nil _ _)]
      · intro _
        apply (refined link List.mem_cons_self start inside).bind
        intro found consists
        rw [← consists.1]
        exact ih (fun other member => refined other (List.mem_cons_of_mem _ member))
          consists.inside

end Program

namespace Path

/-- In a grounded region every fit path settles on its meaning. -/
theorem Fit.refined (accepts : setting.sink.Accepts)
    (grounded : Tree.Grounded setting.host.children region)
    (patient : region.ncard ≤ setting.patience) {path : Path Leaf}
    (fit : path.Fit setting.host setting.answer region) : path.Refined setting region := by
  induction fit with
  | simple fits =>
      intro start inside
      rw [run, Program.simple, meaning, Frontier.keepFirst_nodes]
      apply Frontier.settles_unless_empty
      · intro none
        rw [none, foldl_selected_nil]
      · intro _
        exact Program.runSteps_settles accepts grounded patient fits 0 inside
  | @union delegates _ ih =>
      intro start inside
      rw [run, Program.union, meaning, meanings_eq_map, List.flatMap_map]
      apply Frontier.settles_unless_empty
      · intro none
        have nothing : (delegates.flatMap fun delegate =>
            delegate.meaning setting.host setting.answer []) = [] :=
          List.flatMap_eq_nil_iff.mpr fun delegate _ => delegate.meaning_nil _ _
        rw [none, nothing]
        rfl
      · intro _
        have nowhere : ∀ node ∈ (∅ : Frontier Node).nodes, node ∈ region :=
          Frontier.consists_empty.inside
        exact Program.collect_settles ih inside nowhere
  | @exclusion base excluded _ _ baseIH excludedIH =>
      intro start inside
      rw [run, Program.exclusion, meaning, meanings_eq_map, List.flatMap_map]
      apply Frontier.settles_unless_empty
      · intro none
        rw [none, base.meaning_nil]
        rfl
      · intro _
        apply (baseIH start inside).bind
        intro found consists
        rw [← consists.1]
        apply Frontier.settles_unless_empty
        · intro none
          rw [none]
          rfl
        · intro _
          exact Program.withdraw_settles accepts excludedIH inside consists.inside
  | chain _ ih =>
      intro start inside
      rw [run, meaning, meanings_eq_map, List.foldl_map, Frontier.keepFirst_nodes]
      exact Program.chain_settles ih inside
  | traced title _ ih =>
      intro start inside
      obtain ⟨found, ends, consists⟩ := ih start inside
      rw [run, meaning]
      exact ⟨found, ends.traced accepts title, consists⟩

/-- In a grounded region navigation along a fit path settles on its meaning. -/
theorem Fit.navigate_settles (accepts : setting.sink.Accepts)
    (grounded : Tree.Grounded setting.host.children region)
    (patient : region.ncard ≤ setting.patience) {path : Path Leaf}
    (fit : path.Fit setting.host setting.answer region) {start : List Node}
    (inside : ∀ node ∈ start, node ∈ region) :
    (path.navigate setting start).Settles fun found =>
      found.nodes = path.meaning setting.host setting.answer start := by
  have within : ∀ node ∈ (Frontier.ofList start).nodes, node ∈ region :=
    fun node member => inside node (Frontier.mem_of_mem_ofList member)
  have settles := fit.refined accepts grounded patient (.ofList start) within
  apply settles.mono
  intro found consists
  rw [consists.1, Frontier.nodes_ofList_eq_keepFirst, meaning_keepFirst]

/-- **Navigation finds what the path denotes.** In a finite region of the tree without circles,
closed under all that the steps of a path ask for, in which no listing, no test and no label fails,
navigation with a sink that takes every line comes to an end as soon as deepening may move on often
enough, and it ends with the nodes that the path denotes, in their order. -/
theorem navigate_settles_on_meaning {path : Path Leaf} (accepts : setting.sink.Accepts)
    (grounded : Tree.Grounded setting.host.children region)
    (fit : path.Fit setting.host setting.answer region) {start : List Node}
    (inside : ∀ node ∈ start, node ∈ region) :
    ∃ enough, ∀ patience, enough ≤ patience →
      (path.navigate { setting with patience := patience } start).Settles fun found =>
        found.nodes = path.meaning setting.host setting.answer start := by
  refine ⟨region.ncard, fun patience patient => ?_⟩
  apply Fit.navigate_settles
  · exact accepts
  · exact grounded
  · exact patient
  · exact fit
  · exact inside

end Path

end TreeQuery

namespace TreeQuery.Grove

/-- A path that deepens, excludes, chains and traces. -/
def query : Path String :=
  .union [
    .traced "near" (.search .descendants (named "z")),
    .exclusion (.search .children .any) [.search .children (named "b")],
    .chain [.search .children .any, .search .children (named "x")]]

theorem query_fit : query.Fit setting.host setting.answer region := by
  have all : (Path.search .children .any).Fit setting.host setting.answer region :=
    .search (step_fit rfl ⟨_, rfl⟩ fun _ _ => ⟨_, rfl⟩)
  have some : ∀ text, (Path.search .children (named text)).Fit setting.host setting.answer region :=
    fun _ => .search (step_fit rfl ⟨_, rfl⟩ fun _ _ => ⟨_, rfl⟩)
  apply Path.Fit.union
  simp only [List.forall_mem_cons, List.not_mem_nil, false_implies, implies_true, and_true]
  refine ⟨?_, ?_, ?_⟩
  · exact .traced "near" (.search (step_fit rfl ⟨_, rfl⟩ fun _ _ => ⟨_, rfl⟩))
  · apply Path.Fit.exclusion all
    rw [List.forall_mem_singleton]
    exact some "b"
  · apply Path.Fit.chain
    rw [List.forall_mem_cons, List.forall_mem_singleton]
    exact ⟨all, some "x"⟩

/-- In the grove, from a start that names a node twice. -/
theorem query_settles_on_meaning :
    ∃ enough, ∀ patience, enough ≤ patience →
      (query.navigate { setting with patience := patience }
        [spot 0 "r", spot 1 "a", spot 0 "r"]).Settles fun found =>
          found.nodes = query.meaning setting.host setting.answer
            [spot 0 "r", spot 1 "a", spot 0 "r"] := by
  apply Path.navigate_settles_on_meaning
  · exact fun _ _ => rfl
  · exact grounded
  · exact query_fit
  · intro node member
    simp only [List.mem_cons, List.not_mem_nil, or_false] at member
    rcases member with rfl | rfl | rfl <;> simp [region]

end TreeQuery.Grove
