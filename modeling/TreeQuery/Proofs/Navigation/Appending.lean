import TreeQuery.Proofs.Navigation.Laws
import TreeQuery.Proofs.Navigation.Splitting
import TreeQuery.Proofs.Trace.Transparency

/-! # Appending steps

Appending steps to a path object makes a chain of it and the steps, or a longer chain where it is
one already. Either way the steps are run on what the object found before
(`TreeQuery.PathStore.programs_split`), unless the object is a chain that contains itself: such a
chain is longer wherever it occurs in itself.
-/

namespace TreeQuery

variable {Node Leaf Failure : Type} [Keyed Node] {setting : Setting Node Leaf Failure}

namespace Program

variable (steps : List (Option (Predicate Leaf))) (start : Frontier Node)

theorem chain_append_simple (links : List (Program Node Leaf Failure)) :
    chain (links ++ [simple setting steps]) start = chain links start >>= simple setting steps := by
  rw [chain_eq_sequence, chain_eq_sequence, Run.sequence_append]
  congr 1
  funext found
  by_cases none : found.isEmpty = true
  · rw [Run.sequence_of_over _ none, simple_eq_sequence, Run.sequence_of_over _ none]
  · rw [Run.sequence_cons_of_not_over _ _ (by simpa using none)]
    exact bind_pure _

variable {first : Program Node Leaf Failure}

theorem chain_pair_simple_of_not_isEmpty (more : start.isEmpty = false) :
    chain [first, simple setting steps] start = first start >>= simple setting steps := by
  have single : chain [first] start = first start := by
    simp [chain, more]
  rw [← single]
  exact chain_append_simple steps start [first]

/-- Without titles in it, a run of steps does not depend on the trace. -/
theorem simple_alike (accepts : setting.sink.Accepts) :
    Run.Alike (simple setting steps start) (simple setting steps start) :=
  Path.run_alike_untraced accepts accepts setting (.simple steps) start

/-- The whole runs steps from where the first program came to. Where the first program is traced
under a title, the steps may be traced as part of it. -/
structure Continues (setting : Setting Node Leaf Failure) (title? : Option String)
    (steps : List (Option (Predicate Leaf))) (whole first : Program Node Leaf Failure) : Prop where
  untitled : title? = none → ∀ start, whole start = first start >>= simple setting steps
  titled : setting.sink.Accepts → ∀ start before,
    let here := (whole start).perform before
    let there := (first start >>= simple setting steps).perform before
    here.1 = there.1 ∧ here.2.calls = there.2.calls

namespace Continues

theorem of_eq {title? : Option String} {whole : Program Node Leaf Failure}
    (same : ∀ start, whole start = first start >>= simple setting steps) :
    Continues setting title? steps whole first where
  untitled _ := same
  titled _ start _ := by
    rw [same]
    exact ⟨rfl, rfl⟩

/-- A chain goes on with the steps that it takes in last. -/
theorem entitled_chain (title? : Option String) (links : List (Program Node Leaf Failure)) :
    Continues setting title? steps
      (entitled setting.sink title? (chain (links ++ [simple setting steps])))
      (entitled setting.sink title? (chain links)) := by
  cases title? with
  | none => exact of_eq steps fun start => chain_append_simple steps start links
  | some title =>
      refine ⟨fun untitled => (by cases untitled), fun accepts start before => ?_⟩
      simp only [entitled, chain_append_simple, Run.perform_traced_of_accepts accepts,
        Run.perform_bind]
      generalize Run.perform (chain links start) _ = reached
      obtain ⟨outcome, later⟩ := reached
      cases outcome with
      | error fault => exact ⟨rfl, rfl⟩
      | ok found => exact simple_alike steps found accepts _ _ rfl

/-- A chain of a composite and steps goes on with the steps. -/
theorem chain_pair (title? : Option String) {body : Program Node Leaf Failure}
    (idle : body ∅ = pure ∅) :
    Continues setting title? steps
      (chain [entitled setting.sink title? body, simple setting steps])
      (entitled setting.sink title? body) := by
  have nowhere : chain [entitled setting.sink title? body, simple setting steps] ∅ = pure ∅ := rfl
  constructor
  · rintro rfl start
    by_cases none : start.isEmpty = true
    · obtain rfl := Frontier.isEmpty_iff.mp none
      rw [nowhere, entitled, idle]
      rfl
    · exact chain_pair_simple_of_not_isEmpty steps start (by simpa using none)
  · intro accepts start before
    by_cases none : start.isEmpty = true
    · obtain rfl := Frontier.isEmpty_iff.mp none
      rw [nowhere]
      cases title? with
      | none =>
          rw [entitled, idle]
          exact ⟨rfl, rfl⟩
      | some title =>
          simp only [entitled, idle, Run.perform_bind, Run.perform_traced_of_accepts accepts]
          exact ⟨rfl, rfl⟩
    · rw [chain_pair_simple_of_not_isEmpty steps start (by simpa using none)]
      exact ⟨rfl, rfl⟩

end Continues

end Program

/-- From no node a path object that is not traced does nothing. -/
theorem PathShape.program_empty (ofPart : PathPart Leaf → Program Node Leaf Failure)
    (shape : PathShape Leaf) : shape.program setting ofPart ∅ = pure ∅ := by
  cases shape with
  | chain links => cases links <;> rfl
  | simple | union | exclusion => rfl

/-- What a shape does depends on its parts only. -/
theorem PathShape.program_congr {first second : PathPart Leaf → Program Node Leaf Failure}
    {shape : PathShape Leaf} (same : ∀ part ∈ shape.parts, first part = second part) :
    shape.program setting first = shape.program setting second := by
  cases shape with
  | simple steps => rfl
  | union delegates => exact congrArg Program.union (List.map_congr_left same)
  | exclusion base excluded =>
      obtain ⟨here, there⟩ := List.forall_mem_cons.mp same
      rw [program, program, here, List.map_congr_left there]
  | chain links => exact congrArg Program.chain (List.map_congr_left same)

namespace PathStore

variable {store after : PathStore Leaf} {path depth : Nat}

/-- In two stores a path object does the same when they agree about all that it is made of. -/
theorem program_congr
    (same : ∀ other, Relation.ReflTransGen store.Holds path other →
      after.shape other = store.shape other ∧ after.title? other = store.title? other) :
    after.program setting depth path = store.program setting depth path := by
  induction depth generalizing path with
  | zero => rfl
  | succ depth ih =>
      obtain ⟨shape, title⟩ := same path .refl
      funext start
      rw [program, program, shape, title]
      congr 1
      refine PathShape.program_congr fun part member => ?_
      cases part with
      | stray operand? => rfl
      | path index => exact ih fun other below => same other (.head member below)

theorem program_simple {steps : List (Option (Predicate Leaf))}
    (untitled : store.title? path = none) (shape : store.shape path = .simple steps) :
    store.program setting (depth + 1) path = .simple setting steps := by
  funext start
  rw [program, untitled, shape]
  rfl

section Appending

variable {steps : List (Option (Predicate Leaf))} (closed : store.Closed)
  (present : path < store.paths.size)

include closed present

/-- A new object changes nothing about what the old ones do. -/
theorem program_create_of_lt (shape : PathShape Leaf) :
    (store.create shape).1.program setting depth path = store.program setting depth path := by
  refine program_congr fun other below => ?_
  have old := closed.lt_size present below
  exact ⟨shape_create_of_lt _ _ old, title?_create_of_lt _ old⟩

/-- A new chain of an object and steps goes on with the steps. -/
theorem continues_create_chain :
    let made := (store.create (.simple steps)).1
    Program.Continues setting (store.title? path) steps
      ((made.create (.chain [.path path, .path store.paths.size])).1.program setting (depth + 2)
        made.paths.size)
      (store.program setting (depth + 1) path) := by
  intro made
  have size : made.paths.size = store.paths.size + 1 := size_create _
  have madeClosed : made.Closed := closed.create fun _ member => absurd member List.not_mem_nil
  set after := (made.create (.chain [.path path, .path store.paths.size])).1
  have kept : ∀ index < made.paths.size,
      after.program setting (depth + 1) index = made.program setting (depth + 1) index :=
    fun _ lower => program_create_of_lt madeClosed lower _
  have first : after.program setting (depth + 1) path = store.program setting (depth + 1) path := by
    rw [kept path (by omega)]
    exact program_create_of_lt closed present _
  have second : after.program setting (depth + 1) store.paths.size = .simple setting steps := by
    rw [kept _ (by omega)]
    exact program_simple (title?_create_self _) (shape_create_self _ _)
  have whole : after.program setting (depth + 2) made.paths.size =
      .chain [store.program setting (depth + 1) path, .simple setting steps] := by
    have self : after.shape made.paths.size = .chain [.path path, .path store.paths.size] :=
      shape_create_self _ _
    funext start
    rw [program, self, title?_create_self, PathShape.program, List.map_cons, List.map_cons,
      PathPart.program, PathPart.program, first, second]
    rfl
  rw [whole]
  exact .chain_pair steps _ (PathShape.program_empty _ _)

/-- A chain that takes in steps goes on with the steps, unless it is part of itself. -/
theorem continues_reshape_chain {links : List (PathPart Leaf)}
    (shape : store.shape path = .chain links) (apart : ¬ Relation.TransGen store.Holds path path) :
    let made := (store.create (.simple steps)).1
    Program.Continues setting (store.title? path) steps
      ((made.reshape path (.chain (links ++ [.path store.paths.size]))).program setting (depth + 2)
        path)
      (store.program setting (depth + 2) path) := by
  intro made
  have more : path < made.paths.size := by
    rw [size_create]
    omega
  set after := made.reshape path (.chain (links ++ [.path store.paths.size]))
  have part : ∀ part ∈ links, part.program setting (after.program setting (depth + 1)) =
      part.program setting (store.program setting (depth + 1)) := by
    intro part member
    cases part with
    | stray operand? => rfl
    | path index =>
        have holds : store.Holds path index := by
          rw [Holds, shape]
          exact member
        refine program_congr fun other below => ?_
        have old := closed.lt_size present (.head holds below)
        have elsewhere : path ≠ other := by
          rintro rfl
          exact apart (.head' holds below)
        exact ⟨(shape_reshape_of_ne _ _ elsewhere).trans (shape_create_of_lt _ _ old),
          (title?_reshape _ _).trans (title?_create_of_lt _ old)⟩
  have last : after.program setting (depth + 1) store.paths.size = .simple setting steps := by
    apply program_simple
    · exact (title?_reshape _ _).trans (title?_create_self _)
    · exact (shape_reshape_of_ne _ _ present.ne).trans (shape_create_self _ _)
  have whole : after.program setting (depth + 2) path =
      .entitled setting.sink (store.title? path)
        (.chain (links.map (PathPart.program setting (store.program setting (depth + 1))) ++
          [.simple setting steps])) := by
    have title : after.title? path = store.title? path :=
      (title?_reshape _ _).trans (title?_create_of_lt _ present)
    funext start
    rw [program, title, shape_reshape_self _ _ more, PathShape.program, List.map_append,
      List.map_congr_left part, List.map_singleton, PathPart.program, last]
  have before : store.program setting (depth + 2) path =
      .entitled setting.sink (store.title? path)
        (.chain (links.map (PathPart.program setting (store.program setting (depth + 1))))) := by
    funext start
    rw [program, shape, PathShape.program]
  rw [whole, before]
  exact .entitled_chain steps _ _

/-- Appended steps are run from where the object came to before. -/
theorem continues_appendSteps (some : steps ≠ [])
    (apart : ∀ links, store.shape path = .chain links →
      ¬ Relation.TransGen store.Holds path path) (deep : 1 < depth) :
    let appended := store.appendSteps path steps
    Program.Continues setting (store.title? path) steps
      (appended.1.program setting (if appended.2 = path then depth else depth + 1) appended.2)
      (store.program setting depth path) := by
  obtain ⟨depth, rfl⟩ := Nat.exists_eq_add_of_le' deep
  intro appended
  set made := (store.create (.simple steps)).1
  have size : made.paths.size = store.paths.size + 1 := size_create _
  have appends : appended = made.append path store.paths.size := by
    cases steps with
    | nil => exact absurd rfl some
    | cons step rest => rfl
  have shape : made.shape path = store.shape path := shape_create_of_lt _ _ present
  rcases append_cases made path store.paths.size with ⟨links, chain, same⟩ | same
  · rw [appends, same, if_pos rfl]
    rw [shape] at chain
    exact continues_reshape_chain closed present chain (apart links chain)
  · have elsewhere : (made.create (.chain [.path path, .path store.paths.size])).2 ≠ path := by
      rw [index_create]
      omega
    rw [appends, same, if_neg elsewhere]
    exact continues_create_chain closed present

end Appending

/-- Steps appended to a new object of steps make a chain of the two. -/
theorem program_create_simple_appendSteps (closed : store.Closed)
    (front back : List (Option (Predicate Leaf))) (start : Frontier Node) (deep : 1 < depth) :
    let made := store.create (.simple front)
    let appended := made.1.appendSteps made.2 back
    appended.1.program setting depth appended.2 start =
      (Path.chain [.simple front, .simple back]).run setting start := by
  obtain ⟨depth, rfl⟩ := Nat.exists_eq_add_of_le' deep
  intro made appended
  have shape : made.1.shape made.2 = .simple front := shape_create_self _ _
  have title : made.1.title? made.2 = none := title?_create_self _
  have first : ∀ depth, made.1.program setting (depth + 1) made.2 = .simple setting front :=
    fun _ => program_simple title shape
  have chain : (Path.chain [.simple front, .simple back]).run setting start =
      Program.simple setting front start >>= Program.simple setting back := by
    have idle : (Program.simple setting front ∅ : Run Node Leaf Failure _) = pure ∅ := rfl
    exact (Program.Continues.chain_pair back none idle).untitled rfl start
  rw [chain]
  cases back with
  | nil =>
      have nothing : Program.simple setting [] = (pure : Program Node Leaf Failure) := by
        funext found
        rw [Program.simple_eq_sequence]
        rfl
      rw [nothing, bind_pure]
      exact congrFun (first (depth + 1)) start
  | cons step rest =>
      have present : made.2 < made.1.paths.size := by
        rw [size_create, index_create]
        omega
      have kept : (made.1.create (.simple (step :: rest))).1.shape made.2 = .simple front :=
        (shape_create_of_lt _ _ present).trans shape
      have appends : appended = (made.1.create (.simple (step :: rest))).1.create
          (.chain [.path made.2, .path made.1.paths.size]) := by
        change (made.1.create (.simple (step :: rest))).1.append made.2 made.1.paths.size = _
        rw [append, kept]
      have closed : made.1.Closed := closed.create fun _ member => absurd member List.not_mem_nil
      have goes : appended.1.program setting (depth + 2) appended.2 start =
          made.1.program setting (depth + 1) made.2 start >>=
            Program.simple setting (step :: rest) := by
        rw [appends]
        exact (continues_create_chain closed present).untitled title start
      rw [← first depth]
      exact goes

/-- **A program may be split anywhere.** A new object of steps with others appended asks what an
object of all the steps asks, in the same order, and ends alike, except that a missing step is
numbered in its part. Steps appended to any object of a store, in which there may be circles, are
run from where that object came to before. The one exception is a chain that is part of itself,
since it then takes in the steps at every place where it is. -/
theorem programs_split (setting : Setting Node Leaf Failure) (composed : store.Composed) :
    (∀ (front back : List (Option (Predicate Leaf))) (start : List Node)
        (before : Journal Node Leaf), setting.sink.Accepts ∨ before.active = false →
      ∀ depth, 1 < depth →
      let made := store.create (.simple front)
      let appended := made.1.appendSteps made.2 back
      let direct := store.create (.simple (front ++ back))
      let split := (appended.1.program setting depth appended.2 (.ofList start)).perform before
      let whole := (direct.1.program setting depth direct.2 (.ofList start)).perform before
      split.2.calls = whole.2.calls ∧
        (split.1 = whole.1 ∧
            (∀ index, ¬ Path.ComesToMissing setting (front ++ back) start before index) ∨
          ∃ index, Path.ComesToMissing setting (front ++ back) start before index ∧
            whole.1 = .error (.missingStep index) ∧
            split.1 = .error (.missingStep
              (if index < front.length then index else index - front.length)))) ∧
    ∀ path < store.paths.size, ∀ steps : List (Option (Predicate Leaf)), steps ≠ [] →
      (∀ links, store.shape path = .chain links → ¬ Relation.TransGen store.Holds path path) →
      ∀ depth, 1 < depth →
      let appended := store.appendSteps path steps
      Program.Continues setting (store.title? path) steps
        (appended.1.program setting (if appended.2 = path then depth else depth + 1) appended.2)
        (store.program setting depth path) := by
  constructor
  · intro front back start before unheard depth deep made appended direct split whole
    obtain ⟨depth, rfl⟩ := Nat.exists_eq_add_of_le' deep
    have parts : split = ((Path.chain [.simple front, .simple back]).navigate setting start).perform
        before := by
      exact congrArg (Run.perform · before)
        (program_create_simple_appendSteps composed.closed front back _ deep)
    have all : whole = ((Path.simple (front ++ back)).navigate setting start).perform before := by
      have direct : direct.1.program setting (depth + 2) direct.2 =
          .simple setting (front ++ back) :=
        program_simple (title?_create_self _) (shape_create_self _ _)
      simp only [whole, direct]
      rw [Path.navigate, Path.run]
    rw [parts, all]
    exact Path.navigate_split unheard front back start
  · intro path present steps some apart depth deep
    exact continues_appendSteps composed.closed present some apart deep

end PathStore

end TreeQuery

namespace TreeQuery.Grove

open PathStore (below_path)

/-- In the grove, for a missing step that is appended to a step, and a step that a chain takes
in. -/
theorem mixed_programs_split :
    mixed.Composed ∧
    (let made := mixed.create (.simple [some (.traversal .children .any)])
      let appended := made.1.appendSteps made.2 [none]
      let direct := mixed.create (.simple [some (.traversal .children .any), none])
      let split := (appended.1.program setting 9 appended.2 (.ofList [spot 0 "r"])).perform {}
      let whole := (direct.1.program setting 9 direct.2 (.ofList [spot 0 "r"])).perform {}
      split.2.calls = whole.2.calls ∧ whole.1 = .error (.missingStep 1) ∧
        split.1 = .error (.missingStep 0)) ∧
    ¬ Relation.TransGen mixed.Holds 3 3 ∧
    let appended := mixed.appendSteps 3 [some (named "b")]
    Program.Continues setting none [some (named "b")] (appended.1.program setting 9 3)
      (mixed.program setting 9 3) := by
  have accepts : setting.sink.Accepts := fun _ _ => rfl
  obtain ⟨splits, continues⟩ := PathStore.programs_split setting mixed_composed
  have apart := mixed_layered.circleFree 3
  refine ⟨mixed_composed, ⟨?_, rfl, rfl⟩, apart, ?_⟩
  · exact (splits [some (.traversal .children .any)] [none] [spot 0 "r"] {} (.inl accepts) 9
      (by decide)).1
  · exact continues 3 (by decide) [some (named "b")] (List.cons_ne_nil _ _) (fun _ _ => apart) 9
      (by decide)

/-- A chain that goes on with a union of itself and the path without steps. -/
def ring : PathStore String :=
  let children := ({} : PathStore String).create (.simple [some (.traversal .children .any)])
  let chain := children.1.create (.chain [.path 0])
  let nothing := chain.1.create (.simple [])
  let union := nothing.1.create (.union [.path 1, .path 2])
  (union.1.append 1 3).1

/-- A chain that is part of itself takes in steps at every place where it is, and comes to other
nodes than the steps do from where it came to before. -/
theorem steps_in_a_ring :
    ring.Composed ∧ ring.shape 1 = .chain [.path 0, .path 3] ∧ Relation.TransGen ring.Holds 1 1 ∧
      let steps : List (Option (Predicate String)) := [some (.traversal .children .any)]
      ∃ before expected actual : Frontier Value, expected ≠ actual ∧
        (ring.program setting 19 1 (.ofList [spot 0 "r"])).Ends (.ok before) ∧
        (Program.simple setting steps before).Ends (.ok expected) ∧
        ((ring.appendSteps 1 steps).1.program setting 19 (ring.appendSteps 1 steps).2
          (.ofList [spot 0 "r"])).Ends (.ok actual) := by
  have composed : ring.Composed := by
    refine .append (.create (.create (.create (.create .empty (simple_below _ _)) ?_)
      (simple_below _ _)) ?_) (by decide) (by decide)
    · exact List.forall_mem_singleton.mpr (below_path (by decide))
    · exact List.forall_mem_cons.mpr
        ⟨below_path (by decide), List.forall_mem_singleton.mpr (below_path (by decide))⟩
  have around : Relation.TransGen ring.Holds 1 1 :=
    .tail (.single (List.mem_cons_of_mem _ List.mem_cons_self)) List.mem_cons_self
  refine ⟨composed, rfl, around,
    .ofList [spot 6 "z", spot 3 "x", spot 5 "y", spot 1 "a", spot 2 "b"],
    .ofList [spot 6 "z", spot 3 "x", spot 5 "y"], .ofList [spot 3 "x", spot 5 "y"], ?_, ?_, ?_, ?_⟩
  · exact fun same => by cases congrArg Frontier.size same
  all_goals
    rintro ⟨_ | _, lines, calls⟩
    all_goals rfl

end TreeQuery.Grove
