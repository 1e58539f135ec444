import TreeQuery.Proofs.Navigation.Confinement
import TreeQuery.Proofs.Navigation.Evaluation
import TreeQuery.Proofs.Navigation.Grouping
import TreeQuery.Proofs.Navigation.Refinement

/-! # What compositions find

A union of two paths finds what the first finds and then what else the second does, an exclusion
what the first finds and the second does not, and a chain what the second finds from where the first
led (`TreeQuery.Path.union_pair_ends` and the like). What a composition of stored paths returns does
so, whether it is a new composite or an old one that grew in place, and with what the two paths did
before, also when they are one object or one contains the other
(`TreeQuery.PathStore.compositions_find`). It does not when a composite takes in itself.
-/

namespace TreeQuery

variable {Node Leaf Failure : Type}

namespace Run.Ends

variable {α : Type}

/-- A run that ends on a value from every journal yields it from some. -/
theorem yields {computation : Run Node Leaf Failure α} {value : α}
    (ends : Ends computation (.ok value)) : computation.Yields value :=
  ⟨{}, (computation.perform {}).2, Prod.ext (ends {}) rfl⟩

/-- A run ends in one way only. -/
theorem unique {computation : Run Node Leaf Failure α} {left right : Except (Fault Failure) α}
    (ends : Ends computation left) (also : Ends computation right) : left = right :=
  (ends {}).symm.trans (also {})

end Run.Ends

variable [Keyed Node] {setting : Setting Node Leaf Failure}

/-- Stopping at an empty frontier does not show where nothing is found from it. -/
theorem Frontier.ends_unless_empty {frontier found : Frontier Node}
    {rest : Run Node Leaf Failure (Frontier Node)} (nothing : frontier = ∅ → found = ∅)
    (ends : rest.Ends (.ok found)) :
    (if frontier.isEmpty then pure ∅ else rest).Ends (.ok found) := by
  split
  · next none =>
      rw [nothing (isEmpty_iff.mp none)]
      exact .pure ∅
  · exact ends

namespace Path

/-- Nothing is found from nowhere. -/
theorem eq_empty_of_run_ends {path : Path Leaf} {start found : Frontier Node}
    (ends : (path.run setting start).Ends (.ok found)) (nowhere : start = ∅) : found = ∅ := by
  subst nowhere
  exact eq_empty_of_run_yields ends.yields

section Pairs

variable {first second : Path Leaf} {start left right : Frontier Node}
  (one : (first.run setting start).Ends (.ok left))

include one

/-- A chain of two paths finds what the second finds from the results of the first. -/
theorem chain_pair_ends (next : (second.run setting left).Ends (.ok right)) :
    ((chain [first, second]).run setting start).Ends (.ok right) := by
  rw [run, runs, runs, runs]
  apply Frontier.ends_unless_empty
  · intro nowhere
    exact eq_empty_of_run_ends next (eq_empty_of_run_ends one nowhere)
  · refine one.bind_ok (Frontier.ends_unless_empty (eq_empty_of_run_ends next) ?_)
    exact next.bind_ok (.pure right)

variable (other : (second.run setting start).Ends (.ok right))

include other

/-- A union of two paths finds the results of both. -/
theorem union_pair_ends :
    ((union [first, second]).run setting start).Ends (.ok (left.insertAll right.nodes)) := by
  rw [run, runs, runs, runs]
  apply Frontier.ends_unless_empty
  · intro nowhere
    rw [eq_empty_of_run_ends one nowhere, eq_empty_of_run_ends other nowhere]
    rfl
  · refine one.bind_ok ?_
    rw [Frontier.empty_insertAll_nodes]
    exact other.bind_ok (.pure _)

/-- An exclusion finds the results of its base without the others. -/
theorem exclusion_pair_ends (accepts : setting.sink.Accepts) :
    ((exclusion first [second]).run setting start).Ends (.ok (left.removeAll right.nodes)) := by
  rw [run, runs, runs]
  apply Frontier.ends_unless_empty
  · intro nowhere
    rw [eq_empty_of_run_ends one nowhere]
    rfl
  · refine one.bind_ok (Frontier.ends_unless_empty ?_ ?_)
    · rintro rfl
      rfl
    · refine (Run.Ends.send accepts _).bind_ok (other.bind_ok ?_)
      refine (Run.Ends.send accepts _).bind_ok (Frontier.ends_unless_empty id ?_)
      exact .pure _

end Pairs

/-- Under a title a path ends as it does without. -/
theorem entitled_ends_iff (accepts : setting.sink.Accepts) {title? : Option String}
    {path : Path Leaf} {start : Frontier Node} {outcome : Except (Fault Failure) (Frontier Node)} :
    ((PathStore.entitled title? path).run setting start).Ends outcome ↔
      (path.run setting start).Ends outcome := by
  cases title? with
  | none => rfl
  | some title =>
      have body := (Evaluation.run_takes accepts path start).ends
      constructor
      · intro ends
        exact ends.unique (body.traced accepts title) ▸ body
      · exact fun ends => ends.traced accepts title

end Path

namespace PathStore

section Composing

variable {store : PathStore Leaf} {path other depth : Nat} (accepts : setting.sink.Accepts)
  (closed : store.Closed) (free : store.CircleFree) (present : path < store.paths.size)
  (last : other < store.paths.size) (deep : store.paths.size < depth)
  {start left found : Frontier Node}
  (one : (store.program setting depth path start).Ends (.ok left))

include accepts closed free present last deep one

/-- A composition finds what a composite of the two paths finds, if such composites do when one is
the first part of another. -/
theorem program_compose_ends {shapeOf : List (PathPart Leaf) → PathShape Leaf}
    {pathOf : List (Path Leaf) → Path Leaf}
    (reads : ∀ readPart? parts,
      readShape? readPart? (shapeOf parts) = pathOf <$> parts.mapM readPart?)
    (made : ∀ parts, (shapeOf parts).parts = parts)
    (nests : ∀ front back, (pathOf (pathOf front :: back)).run setting =
      (pathOf (front ++ back)).run setting)
    {composed : PathStore Leaf × Nat}
    (either : (∃ parts, store.shape path = shapeOf parts ∧
        composed = (store.reshape path (shapeOf (parts ++ [.path other])), path)) ∨
      composed = store.create (shapeOf [.path path, .path other]))
    (apart : ∀ parts, store.shape path = shapeOf parts →
      ¬ Relation.ReflTransGen store.Holds other path)
    (pair : ∀ first second : Path Leaf, (first.run setting start).Ends (.ok left) →
      second.run setting = store.program setting depth other →
        ((pathOf [first, second]).run setting start).Ends (.ok found)) :
    (composed.1.program setting depth composed.2 start).Ends (.ok found) := by
  obtain ⟨first, read⟩ := free.exists_readTo? closed present
  obtain ⟨second, readLast⟩ := free.exists_readTo? closed last
  have after : second.run setting = store.program setting depth other :=
    (program_of_read? readLast deep.le).symm
  rw [program_of_read? read deep.le] at one
  rcases either with ⟨parts, shape, rfl⟩ | rfl
  · have still : (store.reshape path (shapeOf (parts ++ [.path other]))).CircleFree := by
      rw [circleFree_reshape_iff present _ free]
      · exact apart parts shape
      · rw [shape, made, made]
    obtain ⟨paths, rfl, grown⟩ :=
      read?_grow closed present (below_path last) read readLast reads made free shape still
    rw [program_of_read? grown (by rw [size_reshape]; exact deep.le),
      Path.entitled_ends_iff accepts]
    rw [Path.entitled_ends_iff accepts] at one
    exact nests paths [second] ▸ pair _ second one after
  · have wrapped := read?_create_pair closed present (below_path last) read readLast reads made
    rw [index_create, program_of_read? wrapped (by rw [size_create]; exact deep)]
    exact pair first second one after

/-- A path object that is appended to another goes on from its results, whatever the two are made
of. -/
theorem program_append_ends
    (apart : ∀ links, store.shape path = .chain links →
      ¬ Relation.ReflTransGen store.Holds other path)
    (next : (store.program setting depth other left).Ends (.ok found)) :
    ((store.append path other).1.program setting depth (store.append path other).2 start).Ends
      (.ok found) :=
  program_compose_ends accepts closed free present last deep one (fun _ _ => rfl) (fun _ => rfl)
    (Path.run_chain_chain_cons setting) (append_cases store path other) apart
    fun _ _ first second => Path.chain_pair_ends first (second ▸ next)

variable (also : (store.program setting depth other start).Ends (.ok found))

include also

/-- A path object united with another finds the results of both. -/
theorem program_or_ends {united : PathStore Leaf × Nat}
    (allowed : store.or path (.path other) = .ok united)
    (apart : ∀ delegates, store.shape path = .union delegates →
      ¬ Relation.ReflTransGen store.Holds other path) :
    (united.1.program setting depth united.2 start).Ends (.ok (left.insertAll found.nodes)) := by
  refine program_compose_ends accepts closed free present last deep one (fun _ _ => rfl)
    (fun _ => rfl) (Path.run_union_union_cons setting) ?_ apart
    fun _ _ first second => Path.union_pair_ends first (second ▸ also)
  exact (or_cases allowed).imp_left fun ⟨delegates, shape, after, result⟩ =>
    ⟨delegates, shape, Prod.ext after result⟩

/-- A path object from which another is excluded finds its results without the others. -/
theorem program_exclude_ends
    (apart : ∀ base excluded, store.shape path = .exclusion base excluded →
      ¬ Relation.ReflTransGen store.Holds other path) :
    ((store.exclude path (.path other)).1.program setting depth
      (store.exclude path (.path other)).2 start).Ends (.ok (left.removeAll found.nodes)) := by
  obtain ⟨first, read⟩ := free.exists_readTo? closed present
  obtain ⟨second, readLast⟩ := free.exists_readTo? closed last
  rw [program_of_read? read deep.le] at one
  rw [program_of_read? readLast deep.le] at also
  rcases exclude_cases store path (.path other) with ⟨base, excluded, shape, same⟩ | same
  · have still : (store.reshape path (.exclusion base (excluded ++ [.path other]))).CircleFree := by
      rw [circleFree_reshape_iff present _ free]
      · exact apart base excluded shape
      · rw [shape]
        rfl
    obtain ⟨kept, paths, rfl, grown⟩ :=
      read?_grow_exclusion closed present (below_path last) read readLast free shape still
    rw [same, program_of_read? grown (by rw [size_reshape]; exact deep.le),
      Path.entitled_ends_iff accepts, ← Path.run_exclusion_exclusion]
    rw [Path.entitled_ends_iff accepts] at one
    exact Path.exclusion_pair_ends one also accepts
  · have wrapped := read?_create_exclusion closed present (below_path last) read readLast
    rw [same, index_create, program_of_read? wrapped (by rw [size_create]; exact deep)]
    exact Path.exclusion_pair_ends one also accepts

end Composing

/-- What two path objects find from a start, and what their compositions find accordingly, except
where a composite would take in a path that is, or contains, itself. -/
structure Composes (setting : Setting Node Leaf Failure) (store : PathStore Leaf)
    (depth path other : Nat) (start fromFirst fromSecond onward : Frontier Node) : Prop where
  first : (store.program setting depth path start).Ends (.ok fromFirst)
  second : (store.program setting depth other start).Ends (.ok fromSecond)
  next : (store.program setting depth other fromFirst).Ends (.ok onward)
  appended :
    (∀ links, store.shape path = .chain links → ¬ Relation.ReflTransGen store.Holds other path) →
      ((store.append path other).1.program setting depth (store.append path other).2 start).Ends
        (.ok onward)
  united : ∀ union, store.or path (.path other) = .ok union →
    (∀ delegates, store.shape path = .union delegates →
      ¬ Relation.ReflTransGen store.Holds other path) →
    (union.1.program setting depth union.2 start).Ends (.ok (fromFirst.insertAll fromSecond.nodes))
  excluded :
    (∀ base excluded, store.shape path = .exclusion base excluded →
      ¬ Relation.ReflTransGen store.Holds other path) →
    ((store.exclude path (.path other)).1.program setting depth
      (store.exclude path (.path other)).2 start).Ends (.ok (fromFirst.removeAll fromSecond.nodes))

/-- Where nothing fails, two path objects and their compositions come to results that agree. -/
theorem exists_composes (accepts : setting.sink.Accepts) {store : PathStore Leaf}
    (closed : store.Closed) (free : store.CircleFree) {path other depth : Nat}
    (present : path < store.paths.size) (last : other < store.paths.size)
    (deep : store.paths.size < depth) {first second : Path Leaf}
    (read : store.read? path = some first) (readLast : store.read? other = some second)
    {region : Set Node} (grounded : Tree.Grounded setting.host.children region)
    (patient : region.ncard ≤ setting.patience)
    (firstFit : first.Fit setting.host setting.answer region)
    (secondFit : second.Fit setting.host setting.answer region) {start : Frontier Node}
    (inside : start.Inside region) :
    ∃ fromFirst fromSecond onward,
      store.Composes setting depth path other start fromFirst fromSecond onward := by
  have settles : ∀ {index : Nat} {path : Path Leaf}, store.read? index = some path →
      path.Fit setting.host setting.answer region → ∀ start : Frontier Node, start.Inside region →
        ∃ found, (store.program setting depth index start).Ends (.ok found) ∧
          found.Inside region := by
    intro index path read fit start inside
    obtain ⟨found, ends, consists⟩ := fit.refined accepts grounded patient start inside
    rw [← program_of_read? read deep.le] at ends
    exact ⟨found, ends, consists.inside⟩
  obtain ⟨fromFirst, one, reached⟩ := settles read firstFit start inside
  obtain ⟨fromSecond, also, _⟩ := settles readLast secondFit start inside
  obtain ⟨onward, next, _⟩ := settles readLast secondFit fromFirst reached
  refine ⟨fromFirst, fromSecond, onward, one, also, next, ?_, ?_, ?_⟩
  · intro apart
    exact program_append_ends accepts closed free present last deep one apart next
  · intro united allowed apart
    exact program_or_ends accepts closed free present last deep one also allowed apart
  · intro apart
    exact program_exclude_ends accepts closed free present last deep one also apart

/-- **Compositions find what they say.** In a store of path objects without circles, take two
objects, which may be one or share parts, whose paths fail nowhere in a grounded region. Navigation
by either comes to an end there, and so does navigation by what a composition of the two returns.
Appending finds what the second found before from where the first led before, uniting what the first
found and then what the second found besides, excluding what the first found and the second did not.
The one exception is a composite that grows in place by a path that is, or contains, itself. -/
theorem compositions_find (accepts : setting.sink.Accepts) {store : PathStore Leaf}
    (composed : store.Composed) (free : store.CircleFree) {path other : Nat}
    (present : path < store.paths.size) (last : other < store.paths.size) :
    ∃ first second, store.read? path = some first ∧ store.read? other = some second ∧
      ∀ region, Tree.Grounded setting.host.children region →
        first.Fit setting.host setting.answer region →
        second.Fit setting.host setting.answer region →
        ∃ enough, ∀ patience, enough ≤ patience → ∀ depth, store.paths.size < depth →
          ∀ start : Frontier Node, start.Inside region → ∃ fromFirst fromSecond onward,
            store.Composes { setting with patience := patience } depth path other start
              fromFirst fromSecond onward := by
  obtain ⟨first, read⟩ := free.exists_readTo? composed.closed present
  obtain ⟨second, readLast⟩ := free.exists_readTo? composed.closed last
  refine ⟨first, second, read, readLast, fun region grounded firstFit secondFit => ?_⟩
  refine ⟨region.ncard, fun patience patient depth deep start inside => ?_⟩
  apply exists_composes
  · exact accepts
  · exact composed.closed
  · exact free
  · exact present
  · exact last
  · exact deep
  · exact read
  · exact readLast
  · exact grounded
  · exact patient
  · exact firstFit
  · exact secondFit
  · exact inside

end PathStore

end TreeQuery

namespace TreeQuery.Grove

/-- In the grove, for a chain and a path that it is made of. -/
theorem mixed_compositions_find :
    mixed.Composed ∧ mixed.CircleFree ∧ ¬ Relation.ReflTransGen mixed.Holds 0 3 ∧
      ∃ enough, ∀ patience, enough ≤ patience → ∀ depth, 5 < depth →
        ∀ start : Frontier Value, start.Inside region → ∃ fromFirst fromSecond onward,
          mixed.Composes { setting with patience := patience } depth 3 0 start
            fromFirst fromSecond onward := by
  have accepts : setting.sink.Accepts := fun _ _ => rfl
  have fit : (Path.search .children .any).Fit setting.host setting.answer region :=
    .search (step_fit rfl ⟨_, rfl⟩ fun _ _ => ⟨_, rfl⟩)
  refine ⟨mixed_composed, mixed_layered.circleFree, ?_, ?_⟩
  · intro below
    obtain ⟨middle, holds, _⟩ := below.cases_head.resolve_left (by decide)
    exact absurd holds List.not_mem_nil
  · obtain ⟨first, second, read, readLast, composes⟩ := PathStore.compositions_find
      accepts mixed_composed mixed_layered.circleFree (by decide : 3 < 5)
      (by decide : 0 < 5)
    cases read
    cases readLast
    exact composes region grounded (.chain (List.forall_mem_singleton.mpr fit)) fit

/-- A chain that takes in itself finds nothing in the end, even where what it was before finds nodes
from where it led. -/
theorem chain_in_itself :
    mixed.Composed ∧ mixed.CircleFree ∧
      ∃ fromFirst onward : Frontier Value, onward ≠ ∅ ∧
        (mixed.program setting 9 3 (.ofList [spot 0 "r"])).Ends (.ok fromFirst) ∧
        (mixed.program setting 9 3 fromFirst).Ends (.ok onward) ∧
        ((mixed.append 3 3).1.program setting 9 (mixed.append 3 3).2
          (.ofList [spot 0 "r"])).Ends (.ok ∅) := by
  refine ⟨mixed_composed, mixed_layered.circleFree, .ofList [spot 1 "a", spot 2 "b"],
    .ofList [spot 3 "x", spot 5 "y"], ?_, ?_, ?_, ?_⟩
  · exact fun same => by cases congrArg Frontier.size same
  all_goals
    rintro ⟨_ | _, lines, calls⟩
    all_goals rfl

end TreeQuery.Grove
