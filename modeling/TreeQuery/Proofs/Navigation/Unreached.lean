import TreeQuery.Collections.Query
import TreeQuery.Path.Store
import TreeQuery.Proofs.Navigation.Loops
import TreeQuery.Proofs.Navigation.Refinement
import TreeQuery.Proofs.Path.Induction
import TreeQuery.Proofs.Run.Yield

/-! # What lies behind an empty frontier

Parts of a path that are not reached with nodes to start from may be replaced by any others, as long
as there are as many of them, and nothing about the navigation changes: neither its outcome nor the
lines it sends nor what it asks of predicates and of the host
(`TreeQuery.Path.navigate_unreached`). Parts are compared pair by pair as they are reached
(`TreeQuery.Path.Interchangeable`).
-/

namespace TreeQuery

variable {Node Leaf Failure : Type} [Keyed Node] {setting : Setting Node Leaf Failure}

namespace Program

/-- A step that leaves nodes behind does the same whether or not it is the last one. -/
theorem perform_stepPart_of_found {index : Nat} {last other : Bool}
    {step? : Option (Predicate Leaf)} {frontier found : Frontier Node}
    {before after : Journal Node Leaf}
    (ended : (stepPart setting index last step? frontier).perform before = (.ok found, after))
    (some : found.isEmpty = false) :
    (stepPart setting index other step? frontier).perform before = (.ok found, after) := by
  cases step? with
  | none => cases ended
  | some step =>
      rw [stepPart] at ended ⊢
      obtain ⟨moved, stepped, left, ended⟩ := Run.perform_bind_eq_ok.mp ended
      obtain ⟨label, named, labelled, ended⟩ := Run.perform_bind_eq_ok.mp ended
      obtain ⟨_, sent, reported, ended⟩ := Run.perform_bind_eq_ok.mp ended
      -- The frontier that the step leaves is the one that comes out in any case.
      have same : moved = found := by
        dsimp only at ended
        split at ended
        · obtain ⟨_, aborted, _, ended⟩ := Run.perform_bind_eq_ok.mp ended
          cases ended
          rfl
        · cases ended
          rfl
      subst same
      refine Run.perform_bind_eq_ok.mpr ⟨moved, stepped, left, ?_⟩
      refine Run.perform_bind_eq_ok.mpr ⟨label, named, labelled, ?_⟩
      refine Run.perform_bind_eq_ok.mpr ⟨_, sent, reported, ?_⟩
      rw [some, Bool.false_and, if_neg Bool.false_ne_true] at ended ⊢
      exact ended

/-- The first steps of several leave nodes behind as they do on their own. -/
theorem perform_take_stepParts (steps : List (Option (Predicate Leaf))) (index count : Nat)
    {frontier found : Frontier Node} {before after : Journal Node Leaf}
    (ended : (Run.sequence Frontier.isEmpty ((stepParts setting index steps).take count)
      frontier).perform before = (.ok found, after)) (some : found.isEmpty = false) :
    (Run.sequence Frontier.isEmpty (stepParts setting index (steps.take count))
      frontier).perform before = (.ok found, after) := by
  induction steps generalizing index count frontier before with
  | nil =>
      rw [stepParts, List.take_nil] at ended
      rw [List.take_nil]
      exact ended
  | cons step? rest ih =>
      cases count with
      | zero => exact ended
      | succ count =>
          rw [stepParts, List.take_succ_cons] at ended
          rw [List.take_succ_cons, stepParts]
          cases done : frontier.isEmpty with
          | true =>
              rw [Run.sequence_of_over _ done] at ended ⊢
              exact ended
          | false =>
              rw [Run.sequence_cons_of_not_over _ _ done] at ended ⊢
              obtain ⟨next, middle, first, later⟩ := Run.perform_bind_eq_ok.mp ended
              have more : next.isEmpty = false := by
                cases stopped : next.isEmpty with
                | false => rfl
                | true =>
                    rw [Run.sequence_of_over _ stopped] at later
                    cases later
                    exact stopped.symm.trans some
              refine Run.perform_bind_eq_ok.mpr ⟨next, middle, ?_, ih (index + 1) count later⟩
              exact perform_stepPart_of_found first more

/-- Of several steps only those matter that come after steps which leave nodes. -/
theorem simple_congr {steps others : List (Option (Predicate Leaf))} {start : Frontier Node}
    (length : steps.length = others.length)
    (agree : ∀ index found, (simple setting (steps.take index) start).Yields found →
      found.isEmpty = false → steps[index]? = others[index]?) :
    simple setting steps start = simple setting others start := by
  rw [simple_eq_sequence, simple_eq_sequence]
  apply Run.ext_perform
  intro before
  apply Run.perform_sequence_congr
  · rw [length_stepParts, length_stepParts, length]
  · intro index here there reached after hereAt thereAt ended some
    have prior := perform_take_stepParts steps 0 index ended some
    rw [← simple_eq_sequence] at prior
    have step := agree index reached ⟨before, after, prior⟩ some
    rw [getElem?_stepParts, step, length] at hereAt
    rw [getElem?_stepParts, hereAt] at thereAt
    cases thereAt
    rfl

variable {sink : Sink Failure} {start : Frontier Node}

/-- Delegates only matter where there is a node to start from. -/
theorem union_congr {delegates others : List (Program Node Leaf Failure)}
    (length : delegates.length = others.length)
    (agree : start.isEmpty = false → ∀ (index : Nat) (left right : Program Node Leaf Failure),
      delegates[index]? = some left → others[index]? = some right → left start = right start) :
    union delegates start = union others start := by
  rw [union_eq_sequence, union_eq_sequence]
  apply Run.ext_perform
  intro before
  apply Run.perform_sequence_congr
  · rw [List.length_map, List.length_map, length]
  · intro index here there reached after hereAt thereAt _ some
    rw [List.getElem?_map, Option.map_eq_some_iff] at hereAt thereAt
    obtain ⟨left, leftAt, rfl⟩ := hereAt
    obtain ⟨right, rightAt, rfl⟩ := thereAt
    rw [adding, adding, agree some index left right leftAt rightAt]

/-- Excluded programs only matter where something is left before them. -/
theorem exclusion_congr {base other : Program Node Leaf Failure}
    {excluded others : List (Program Node Leaf Failure)} (length : excluded.length = others.length)
    (first : start.isEmpty = false → base start = other start)
    (agree : ∀ (index : Nat) (left right : Program Node Leaf Failure) (found : Frontier Node),
      excluded[index]? = some left → others[index]? = some right →
      (exclusion sink base (excluded.take index) start).Yields found → found.isEmpty = false →
        left start = right start) :
    exclusion sink base excluded start = exclusion sink other others start := by
  rw [exclusion_eq_sequence, exclusion_eq_sequence]
  apply Run.ext_perform
  intro before
  apply Run.perform_sequence_congr
  · rw [List.length_cons, List.length_cons, List.length_map, List.length_map, length]
  · intro index here there reached after hereAt thereAt ended some
    cases index with
    | zero =>
        cases hereAt
        cases thereAt
        cases ended
        rw [first some]
    | succ index =>
        rw [List.getElem?_cons_succ, List.getElem?_map, Option.map_eq_some_iff] at hereAt thereAt
        obtain ⟨left, leftAt, rfl⟩ := hereAt
        obtain ⟨right, rightAt, rfl⟩ := thereAt
        have prior : (exclusion sink base (excluded.take index) start).perform before =
            (.ok reached, after) := by
          rw [exclusion_eq_sequence, List.map_take, ← List.take_succ_cons]
          exact ended
        rw [withdrawing, withdrawing,
          agree index left right reached leftAt rightAt ⟨before, after, prior⟩ some]

/-- Links only matter where those before them find something. -/
theorem chain_congr {links others : List (Program Node Leaf Failure)}
    (length : links.length = others.length)
    (agree : ∀ (index : Nat) (left right : Program Node Leaf Failure) (found : Frontier Node),
      links[index]? = some left → others[index]? = some right →
      (chain (links.take index) start).Yields found → found.isEmpty = false →
        left found = right found) :
    chain links start = chain others start := by
  rw [chain_eq_sequence, chain_eq_sequence]
  apply Run.ext_perform
  intro before
  apply Run.perform_sequence_congr length
  intro index left right reached after leftAt rightAt ended some
  rw [← chain_eq_sequence] at ended
  rw [agree index left right reached leftAt rightAt ⟨before, after, ended⟩ some]

end Program

namespace Path

/-- Paths that agree in all that is reached with nodes to start from. Of a simple path the steps
agree that come after steps which leave nodes; of a union the delegates, if there is a node to start
from; of an exclusion then the base, and those excluded paths before which something is left; of a
chain the links after links that find something. All else is arbitrary but for its number. -/
inductive Interchangeable (setting : Setting Node Leaf Failure) :
    Frontier Node → Path Leaf → Path Leaf → Prop where
  | simple {start : Frontier Node} {steps others : List (Option (Predicate Leaf))} :
      steps.length = others.length →
      (∀ index found, ((Path.simple (steps.take index)).run setting start).Yields found →
        found.isEmpty = false → steps[index]? = others[index]?) →
      Interchangeable setting start (.simple steps) (.simple others)
  | union {start : Frontier Node} {delegates others : List (Path Leaf)} :
      delegates.length = others.length →
      (start.isEmpty = false → ∀ (index : Nat) (left right : Path Leaf),
        delegates[index]? = some left → others[index]? = some right →
        Interchangeable setting start left right) →
      Interchangeable setting start (.union delegates) (.union others)
  | exclusion {start : Frontier Node} {base other : Path Leaf}
      {excluded others : List (Path Leaf)} :
      excluded.length = others.length →
      (start.isEmpty = false → Interchangeable setting start base other) →
      (∀ (index : Nat) (left right : Path Leaf) (found : Frontier Node),
        excluded[index]? = some left → others[index]? = some right →
        ((Path.exclusion base (excluded.take index)).run setting start).Yields found →
        found.isEmpty = false → Interchangeable setting start left right) →
      Interchangeable setting start (.exclusion base excluded) (.exclusion other others)
  | chain {start : Frontier Node} {links others : List (Path Leaf)} :
      links.length = others.length →
      (∀ (index : Nat) (left right : Path Leaf) (found : Frontier Node),
        links[index]? = some left → others[index]? = some right →
        ((Path.chain (links.take index)).run setting start).Yields found →
        found.isEmpty = false → Interchangeable setting found left right) →
      Interchangeable setting start (.chain links) (.chain others)
  | traced {start : Frontier Node} {body other : Path Leaf} (title : String) :
      Interchangeable setting start body other →
      Interchangeable setting start (.traced title body) (.traced title other)
  | stray {start : Frontier Node} (operand? : Option (Predicate Leaf)) :
      Interchangeable setting start (.stray operand?) (.stray operand?)

theorem length_runs (paths : List (Path Leaf)) : (runs setting paths).length = paths.length := by
  rw [runs_eq_map, List.length_map]

theorem getElem?_runs (paths : List (Path Leaf)) (index : Nat) :
    (runs setting paths)[index]? = paths[index]?.map (run setting) := by
  rw [runs_eq_map, List.getElem?_map]

theorem runs_take (paths : List (Path Leaf)) (count : Nat) :
    runs setting (paths.take count) = (runs setting paths).take count := by
  rw [runs_eq_map, runs_eq_map, List.map_take]

/-- Every path may stand in its own place. -/
theorem Interchangeable.refl (path : Path Leaf) (start : Frontier Node) :
    Interchangeable setting start path path := by
  induction path using induct generalizing start with
  | simple steps => exact .simple rfl fun _ _ _ _ => rfl
  | union delegates ih =>
      refine .union rfl fun _ index left right leftAt rightAt => ?_
      cases leftAt.symm.trans rightAt
      exact ih left (List.mem_of_getElem? leftAt) start
  | exclusion base excluded baseIH excludedIH =>
      refine .exclusion rfl (fun _ => baseIH start) fun index left right _ leftAt rightAt _ _ => ?_
      cases leftAt.symm.trans rightAt
      exact excludedIH left (List.mem_of_getElem? leftAt) start
  | chain links ih =>
      refine .chain rfl fun index left right found leftAt rightAt _ _ => ?_
      cases leftAt.symm.trans rightAt
      exact ih left (List.mem_of_getElem? leftAt) found
  | traced title body ih => exact .traced title (ih start)
  | stray operand? => exact .stray operand?

/-- Interchangeable paths run alike. -/
theorem Interchangeable.run_eq {path other : Path Leaf} {start : Frontier Node}
    (same : Interchangeable setting start path other) :
    path.run setting start = other.run setting start := by
  induction path using induct generalizing start other with
  | simple steps =>
      cases same with
      | simple length agree =>
          simp only [run] at agree ⊢
          exact Program.simple_congr length agree
  | union delegates ih =>
      cases same with
      | union length agree =>
          rw [run, run]
          refine Program.union_congr (by rw [length_runs, length_runs, length]) ?_
          intro some index left right leftAt rightAt
          rw [getElem?_runs, Option.map_eq_some_iff] at leftAt rightAt
          obtain ⟨here, hereAt, rfl⟩ := leftAt
          obtain ⟨there, thereAt, rfl⟩ := rightAt
          exact ih here (List.mem_of_getElem? hereAt) (agree some index here there hereAt thereAt)
  | exclusion base excluded baseIH excludedIH =>
      cases same with
      | exclusion length first agree =>
          simp only [run, runs_take] at agree ⊢
          refine Program.exclusion_congr (by rw [length_runs, length_runs, length])
            (fun some => baseIH (first some)) ?_
          intro index left right found leftAt rightAt yields some
          rw [getElem?_runs, Option.map_eq_some_iff] at leftAt rightAt
          obtain ⟨here, hereAt, rfl⟩ := leftAt
          obtain ⟨there, thereAt, rfl⟩ := rightAt
          exact excludedIH here (List.mem_of_getElem? hereAt)
            (agree index here there found hereAt thereAt yields some)
  | chain links ih =>
      cases same with
      | chain length agree =>
          simp only [run, runs_take] at agree ⊢
          refine Program.chain_congr (by rw [length_runs, length_runs, length]) ?_
          intro index left right found leftAt rightAt yields some
          rw [getElem?_runs, Option.map_eq_some_iff] at leftAt rightAt
          obtain ⟨here, hereAt, rfl⟩ := leftAt
          obtain ⟨there, thereAt, rfl⟩ := rightAt
          exact ih here (List.mem_of_getElem? hereAt)
            (agree index here there found hereAt thereAt yields some)
  | traced title body ih =>
      cases same with
      | traced _ inner =>
          rw [run, run]
          exact congrArg (Run.traced setting.sink title) (ih inner)
  | stray operand? =>
      cases same
      rfl

/-- Whether a path is one by itself, neither under a title nor a stray in the place of a path. -/
def isBare : Path Leaf → Bool
  | traced _ _ | stray _ => false
  | _ => true

/-- From nowhere a path by itself finds nothing and asks nothing. -/
theorem run_empty {path : Path Leaf} (bare : path.isBare = true) :
    path.run setting ∅ = pure ∅ := by
  cases path with
  | simple steps => rw [run, Program.simple_eq_sequence, Run.sequence_of_over _ rfl]
  | union delegates => rw [run, Program.union_eq_sequence, Run.sequence_of_over _ rfl]
  | exclusion base excluded => rw [run, Program.exclusion_eq_sequence, Run.sequence_of_over _ rfl]
  | chain links => rw [run, Program.chain_eq_sequence, Run.sequence_of_over _ rfl]
  | traced title body => cases bare
  | stray operand? => cases bare

/-- **Nothing behind an empty frontier is evaluated.** When parts of a path that lie behind an empty
frontier are replaced by as many others, navigation ends in the same way, sends the same lines and
makes the same calls, whatever fails on the way. From no nodes at all a path leads to the shared
empty collection and makes no call, and with a sink that takes every line it sends at most the two
lines of its own title. -/
theorem navigate_unreached (setting : Setting Node Leaf Failure) :
    (∀ (path other : Path Leaf) (start : List Node),
      Interchangeable setting (.ofList start) path other → ∀ before,
        (path.navigate setting start).perform before =
          (other.navigate setting start).perform before) ∧
    (setting.sink.Accepts → ∀ path : Path Leaf, path.isBare = true →
      ∀ (title? : Option String) (collections : Collections Node) (source : NodeSource Node),
        collections.listed source = [] → ∀ before,
          (collections.navigate ((PathStore.entitled title? path).run setting) source).perform
            before = (.ok (collections, Collections.shared), { before with
              lines := (title?.elim [] fun title => [.endPath title, .beginPath title]) ++
                before.lines })) := by
  constructor
  · intro path other start same before
    rw [navigate, navigate, same.run_eq]
  · intro accepts path bare title? collections source nothing before
    have nowhere : Frontier.ofList (collections.listed source) = ∅ := by
      rw [nothing]
      rfl
    rw [Collections.navigate, nowhere, Run.perform_bind]
    cases title? with
    | none =>
        rw [PathStore.entitled, run_empty bare]
        rfl
    | some title =>
        rw [PathStore.entitled, run, Program.entitled]
        dsimp only
        rw [run_empty bare, Run.perform_traced_of_accepts accepts]
        rfl

end Path

end TreeQuery

namespace TreeQuery.Grove

/-- A chain behind whose first link there are no nodes in the grove. -/
def deadEnd (beyond : Path String) : Path String :=
  .chain [.search .children (named "q"), beyond]

/-- In the grove, with a stray or a missing step behind the dead end, and from no nodes. -/
theorem deadEnd_unreached :
    (∀ before, ((deadEnd (.stray none)).navigate setting [spot 0 "r"]).perform before =
      ((deadEnd (.traced "beyond" (.simple [none]))).navigate setting [spot 0 "r"]).perform
        before) ∧
    ∀ before, (Collections.navigate ((PathStore.entitled (some "lost")
        (.simple [none])).run setting) {} (.list [])).perform before =
      (.ok ({}, Collections.shared), { before with
        lines := [.endPath "lost", .beginPath "lost"] ++ before.lines }) := by
  constructor
  · apply (Path.navigate_unreached setting).1
    refine .chain rfl fun index left right found leftAt rightAt yields some => ?_
    cases index with
    | zero =>
        cases leftAt
        cases rightAt
        exact .refl _ _
    | succ index =>
        -- The first link finds nothing, so that there is nothing to show about the second.
        have ends : ((Path.chain [.search .children (named "q")]).run setting
            (.ofList [spot 0 "r"])).Ends (.ok ∅) := by
          rintro ⟨_ | _, _, _⟩ <;> rfl
        cases index with
        | zero =>
            cases yields.of_ends ends
            cases some
        | succ index => cases leftAt
  · intro before
    apply (Path.navigate_unreached setting).2
    · exact fun _ _ => rfl
    · rfl
    · rfl

end TreeQuery.Grove
