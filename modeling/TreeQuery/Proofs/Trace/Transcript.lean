import TreeQuery.Proofs.Navigation.Found
import TreeQuery.Proofs.Navigation.Refinement
import TreeQuery.Proofs.Run.Telling

/-! # The transcript of a navigation

What a navigation writes to its trace is put together from what the parts of its path write. The
transcript of a path is written down by recursion on the path, from the nodes that its parts denote,
and not by running it: a step tells how many nodes it finds, an exclusion and a traced path put
their lines around those of their parts, and where there are no nodes only titles are told. A
navigation that does not fail sends exactly this transcript
(`TreeQuery.Path.navigate_transcript`).
-/

namespace TreeQuery

open Frontier (keepFirst without)

variable {Node Leaf Failure : Type} {setting : Setting Node Leaf Failure}

/-- The text under which a step is reported, if it has a label. -/
def Predicate.caption (step : Predicate Leaf) : String :=
  match step.label with
  | .ok text => text
  | .error _ => ""

/-- What is told of a step that found a number of nodes. When it is not the last one, it is told as
well that there are none. -/
def stepTexts (caption : String) (count : Nat) (last : Bool) : List String :=
  ("\t" ++ caption ++ " (" ++ toString count ++ (if count = 1 then " node)" else " nodes)")) ::
    if count = 0 ∧ last = false then ["\tABORT!"] else []

variable [Keyed Node]

/-- What is told of steps from some nodes on. -/
noncomputable def stepsTexts (host : Host Node Failure)
    (answer : Leaf → Node → Except (Fault Failure) Value) :
    List (Option (Predicate Leaf)) → List Node → List String
  | [], _ | none :: _, _ => []
  | some step :: rest, nodes =>
      if nodes = [] then [] else
        let found := step.selected host answer nodes
        stepTexts step.caption found.length rest.isEmpty ++ stepsTexts host answer rest found

namespace Path

mutual

/-- What a path tells from some nodes on, with trace output on or off. -/
noncomputable def transcript (host : Host Node Failure)
    (answer : Leaf → Node → Except (Fault Failure) Value) :
    Path Leaf → Bool → List Node → List String
  | simple steps, active, start => if active then stepsTexts host answer steps start else []
  | union delegates, active, start =>
      if start = [] then [] else unionTranscript host answer delegates active start
  | exclusion base excluded, active, start =>
      if start = [] then [] else
        transcript host answer base active start ++
          exclusionTranscript host answer excluded active start (meaning host answer base start)
  | chain links, active, start => chainTranscript host answer links active start
  | traced title body, _, start =>
      ("## [ begin path: " ++ title ++ " ]") :: transcript host answer body true start ++
        ["## [ end path: " ++ title ++ " ]"]
  | stray _, _, _ => []

/-- What delegates tell one after the other, all from the same nodes on. -/
noncomputable def unionTranscript (host : Host Node Failure)
    (answer : Leaf → Node → Except (Fault Failure) Value) :
    List (Path Leaf) → Bool → List Node → List String
  | [], _, _ => []
  | delegate :: rest, active, start =>
      transcript host answer delegate active start ++
        unionTranscript host answer rest active start

/-- What excluded paths tell, as long as there are nodes left to take theirs out of. -/
noncomputable def exclusionTranscript (host : Host Node Failure)
    (answer : Leaf → Node → Except (Fault Failure) Value) :
    List (Path Leaf) → Bool → List Node → List Node → List String
  | [], _, _, _ => []
  | path :: rest, active, start, left =>
      if left = [] then [] else
        Run.whenActive "## begin exclude..." active ++ transcript host answer path active start ++
          Run.whenActive "## end exclude." active ++
            exclusionTranscript host answer rest active start
              (without ((meaning host answer path start).map Keyed.key) left)

/-- What links tell, each from what the ones before it lead to, as long as there are nodes. -/
noncomputable def chainTranscript (host : Host Node Failure)
    (answer : Leaf → Node → Except (Fault Failure) Value) :
    List (Path Leaf) → Bool → List Node → List String
  | [], _, _ => []
  | link :: rest, active, nodes =>
      if nodes = [] then [] else
        transcript host answer link active nodes ++
          chainTranscript host answer rest active (meaning host answer link nodes)

end

end Path

theorem stepsTexts_nil (host : Host Node Failure)
    (answer : Leaf → Node → Except (Fault Failure) Value) (steps : List (Option (Predicate Leaf))) :
    stepsTexts host answer steps [] = [] := by
  match steps with
  | [] => rfl
  | none :: _ => rfl
  | some step :: rest => rw [stepsTexts, if_pos rfl]

theorem Predicate.step_silent (setting : Setting Node Leaf Failure) (step : Predicate Leaf)
    (frontier : Frontier Node) : (step.step setting frontier).Silent :=
  Run.Silent.congruence.step setting setting.sink setting.sink step frontier

omit [Keyed Node] in
theorem Setting.labelOf_tells (setting : Setting Node Leaf Failure) (step : Predicate Leaf) :
    (setting.labelOf step).Tells (· = step.caption) fun _ => [] := by
  rw [labelOf, Predicate.caption]
  cases step.label with
  | ok text => exact .pure rfl
  | error object => exact .throw _

section Combinators

variable (accepts : setting.sink.Accepts)

include accepts

namespace Program

/-- The report on the nodes found by a step. -/
theorem report_tells (caption : String) (last : Bool) {nodes : List Node} {found : Frontier Node}
    (finds : found.nodes = nodes) :
    Run.Tells (do
        Run.send setting.sink (.step caption found.size)
        if found.isEmpty && !last then Run.send setting.sink .abort
        pure found : Run Node Leaf Failure (Frontier Node))
      (fun found => found.nodes = nodes)
      fun active => if active then stepTexts caption nodes.length last else [] := by
  have count : found.size = nodes.length := congrArg List.length finds
  have empties : found.isEmpty = true ↔ nodes.length = 0 := by
    rw [Frontier.isEmpty_eq_true_iff, finds, List.length_eq_zero_iff]
  rw [count]
  cases aborts : found.isEmpty && !last with
  | true =>
      rw [Bool.and_eq_true, empties, Bool.not_eq_true'] at aborts
      apply Run.Tells.congr
      · apply (Run.Tells.send accepts _).bind
        intro _ _
        exact Run.Tells.send_last accepts .abort finds
      · intro active
        cases active with
        | false => rfl
        | true => rw [if_pos rfl, stepTexts, if_pos aborts]; rfl
  | false =>
      have goes : ¬ (nodes.length = 0 ∧ last = false) := by
        rw [← empties, ← Bool.not_eq_true', ← Bool.and_eq_true, aborts]
        exact Bool.false_ne_true
      apply Run.Tells.congr
      · exact Run.Tells.send_last accepts _ finds
      · intro active
        cases active with
        | false => rfl
        | true => rw [if_pos rfl, stepTexts, if_neg goes]; rfl

/-- A step tells how many nodes it finds, and whether it breaks the path off. -/
theorem stepPart_tells (index : Nat) (last : Bool) (step : Predicate Leaf)
    (frontier : Frontier Node) :
    let selected := step.selected setting.host setting.answer frontier.nodes
    (stepPart setting index last (some step) frontier).Tells (fun found => found.nodes = selected)
      fun active => if active then stepTexts step.caption selected.length last else [] := by
  have finds := Run.Tells.of_silent (step.step_silent setting frontier)
    fun _ => step.nodes_of_step_yields
  refine finds.bind fun found same => (setting.labelOf_tells step).bind fun label named => ?_
  rw [named]
  dsimp only
  exact report_tells accepts step.caption last same

/-- Steps tell what they find one after the other, up to the first that finds nothing. -/
theorem stepParts_tell (steps : List (Option (Predicate Leaf))) (index : Nat)
    (frontier : Frontier Node) :
    (Run.sequence Frontier.isEmpty (stepParts setting index steps) frontier).Tells
      (fun found => found.nodes = steps.foldl (fun nodes step? => step?.elim [] fun step =>
        step.selected setting.host setting.answer nodes) frontier.nodes)
      fun active => if active then stepsTexts setting.host setting.answer steps frontier.nodes
        else [] := by
  induction steps generalizing index frontier with
  | nil =>
      apply Run.Tells.congr
      · exact .pure rfl
      · exact fun _ => (ite_self _).symm
  | cons step? rest ih =>
      cases done : frontier.isEmpty with
      | true =>
          have none := Frontier.isEmpty_eq_true_iff.mp done
          rw [none, stepsTexts_nil, Path.foldl_selected_nil]
          exact .sequence_of_over _ done none fun _ => ite_self _
      | false =>
          rw [stepParts, Run.sequence_cons_of_not_over _ _ done]
          cases step? with
          | none => exact Run.Tells.throw (.missingStep index)
          | some step =>
              have some := Frontier.isEmpty_eq_false_iff.mp done
              apply Run.Tells.congr
              · apply (stepPart_tells accepts index rest.isEmpty step frontier).bind
                intro found same
                have later := ih (index + 1) found
                rw [same] at later
                exact later
              · intro active
                cases active with
                | false => rfl
                | true => rw [if_pos rfl, if_pos rfl, if_pos rfl, stepsTexts, if_neg some]

end Program

/-- A path that finds what it denotes and tells its transcript, unless it fails. -/
def Path.Recounted (setting : Setting Node Leaf Failure) (path : Path Leaf) : Prop :=
  ∀ start : Frontier Node, (path.run setting start).Tells
    (fun found => found.nodes = path.meaning setting.host setting.answer start.nodes)
    fun active => path.transcript setting.host setting.answer active start.nodes

namespace Program

omit accepts in
theorem delegates_tell {delegates : List (Path Leaf)}
    (recounted : ∀ delegate ∈ delegates, delegate.Recounted setting)
    (start found : Frontier Node) :
    (Run.sequence never ((Path.runs setting delegates).map (adding start)) found).Tells
        (fun result => result.nodes = keepFirst (found.nodes ++ delegates.flatMap fun delegate =>
          delegate.meaning setting.host setting.answer start.nodes))
        fun active => Path.unionTranscript setting.host setting.answer delegates active
          start.nodes := by
  induction delegates generalizing found with
  | nil =>
      rw [List.flatMap_nil, List.append_nil, Frontier.keepFirst_nodes]
      exact .pure rfl
  | cons delegate rest ih =>
      rw [Path.runs, List.map_cons, Run.sequence_cons_of_not_over _ _ rfl, adding, bind_assoc]
      refine (recounted delegate List.mem_cons_self start).bind fun result same => ?_
      rw [List.flatMap_cons, ← same, ← List.append_assoc, ← Frontier.keepFirst_keepFirst_append,
        ← Frontier.nodes_insertAll_eq_keepFirst, pure_bind]
      exact ih (fun other member => recounted other (List.mem_cons_of_mem _ member)) _

/-- Excluded paths tell as long as something is left. -/
theorem excluded_tell {excluded : List (Path Leaf)}
    (recounted : ∀ path ∈ excluded, path.Recounted setting) (start found : Frontier Node) :
    (Run.sequence Frontier.isEmpty
      ((Path.runs setting excluded).map (withdrawing setting.sink start)) found).Tells
        (fun result => result.nodes = without ((excluded.flatMap fun path =>
          path.meaning setting.host setting.answer start.nodes).map Keyed.key) found.nodes)
        fun active => Path.exclusionTranscript setting.host setting.answer excluded active
          start.nodes found.nodes := by
  induction excluded generalizing found with
  | nil =>
      rw [List.flatMap_nil, List.map_nil, Frontier.without_nil]
      exact .pure rfl
  | cons path rest ih =>
      rw [Path.runs, List.map_cons]
      cases done : found.isEmpty with
      | true =>
          have none := Frontier.isEmpty_eq_true_iff.mp done
          rw [none]
          exact .sequence_of_over _ done none fun _ => if_pos rfl
      | false =>
          have some := Frontier.isEmpty_eq_false_iff.mp done
          rw [Run.sequence_cons_of_not_over _ _ done, withdrawing, bind_assoc, List.flatMap_cons]
          apply Run.Tells.congr
          · apply ((recounted path List.mem_cons_self start).excluding accepts).bind
            intro result same
            have later := ih (fun other member => recounted other (List.mem_cons_of_mem _ member))
              (found.removeAll result.nodes)
            -- The result is known by its nodes only, and so is what is left without it.
            have left : (found.removeAll result.nodes).nodes = without ((path.meaning
                setting.host setting.answer start.nodes).map Keyed.key) found.nodes := by
              rw [Frontier.nodes_removeAll_eq_without, same]
            rw [left, Frontier.without_without, ← List.map_append] at later
            rw [pure_bind]
            exact later
          · intro active
            rw [Path.exclusionTranscript, if_neg some]
            simp only [List.append_assoc]

omit accepts in
/-- Links tell as long as the ones before them find something. -/
theorem links_tell {links : List (Path Leaf)}
    (recounted : ∀ link ∈ links, link.Recounted setting) (frontier : Frontier Node) :
    (Run.sequence Frontier.isEmpty (Path.runs setting links) frontier).Tells
      (fun found => found.nodes = links.foldl (fun nodes link =>
        link.meaning setting.host setting.answer nodes) frontier.nodes)
      fun active => Path.chainTranscript setting.host setting.answer links active
        frontier.nodes := by
  induction links generalizing frontier with
  | nil => exact .pure rfl
  | cons link rest ih =>
      rw [Path.runs]
      cases done : frontier.isEmpty with
      | true =>
          have none := Frontier.isEmpty_eq_true_iff.mp done
          rw [none, List.foldl_fixed' (Path.meaning_nil _ _)]
          exact .sequence_of_over _ done none fun _ => if_pos rfl
      | false =>
          have some := Frontier.isEmpty_eq_false_iff.mp done
          rw [Run.sequence_cons_of_not_over _ _ done]
          apply Run.Tells.congr
          · apply (recounted link List.mem_cons_self frontier).bind
            intro found same
            have later := ih (fun other member => recounted other (List.mem_cons_of_mem _ member))
              found
            rw [same] at later
            exact later
          · exact fun _ => (if_neg some).symm

end Program

/-- A path that does not fail finds what it denotes and tells its transcript. -/
theorem Path.recounted (path : Path Leaf) : path.Recounted setting := by
  induction path using induct with
  | simple steps =>
      intro start
      rw [run, Program.simple_eq_sequence, meaning, Frontier.keepFirst_nodes]
      exact Program.stepParts_tell accepts steps 0 start
  | union delegates ih =>
      intro start
      rw [run, Program.union_eq_sequence, meaning, meanings_eq_map, List.flatMap_map]
      cases done : start.isEmpty with
      | true =>
          have none := Frontier.isEmpty_eq_true_iff.mp done
          have nothing : (delegates.flatMap fun delegate =>
              delegate.meaning setting.host setting.answer []) = [] :=
            List.flatMap_eq_nil_iff.mpr fun delegate _ => delegate.meaning_nil _ _
          rw [none, nothing]
          exact .sequence_of_over _ rfl rfl fun _ => if_pos rfl
      | false =>
          have some := Frontier.isEmpty_eq_false_iff.mp done
          apply Run.Tells.congr
          · exact Program.delegates_tell ih start ∅
          · exact fun _ => (if_neg some).symm
  | exclusion base excluded baseIH excludedIH =>
      intro start
      rw [run, Program.exclusion_eq_sequence, meaning, meanings_eq_map, List.flatMap_map]
      cases done : start.isEmpty with
      | true =>
          have none := Frontier.isEmpty_eq_true_iff.mp done
          rw [none, base.meaning_nil]
          exact .sequence_of_over _ done none fun _ => if_pos rfl
      | false =>
          have some := Frontier.isEmpty_eq_false_iff.mp done
          rw [Run.sequence_cons_of_not_over _ _ done]
          apply Run.Tells.congr
          · apply (baseIH start).bind
            intro found same
            have later := Program.excluded_tell accepts excludedIH start found
            rw [same] at later
            exact later
          · exact fun _ => (if_neg some).symm
  | chain links ih =>
      intro start
      rw [run, Program.chain_eq_sequence, meaning, meanings_eq_map, List.foldl_map,
        Frontier.keepFirst_nodes]
      exact Program.links_tell ih start
  | traced title body ih =>
      intro start
      exact (ih start).traced accepts title
  | stray operand? => exact fun start => .throw _

end Combinators

/-- **The trace is the transcript.** With a sink that takes every line, a navigation that does not
fail sends the transcript of its path from the nodes that it starts from, given whether trace output
was on, and leaves output as it was. In a grounded region along a fit path a navigation does not
fail, as soon as deepening may move on often enough. -/
theorem Path.navigate_transcript (accepts : setting.sink.Accepts) (path : Path Leaf)
    (start : List Node) :
    (∀ before found after, (path.navigate setting start).perform before = (.ok found, after) →
      found.nodes = path.meaning setting.host setting.answer start ∧
        after.active = before.active ∧
        after.lines.map Line.text =
          (path.transcript setting.host setting.answer before.active (keepFirst start)).reverse ++
            before.lines.map Line.text) ∧
    ∀ region : Set Node, Tree.Grounded setting.host.children region →
      path.Fit setting.host setting.answer region → (∀ node ∈ start, node ∈ region) →
      ∃ enough, ∀ patience, enough ≤ patience → ∀ before, ∃ found after,
        (path.navigate { setting with patience := patience } start).perform before =
          (.ok found, after) ∧
        after.lines.map Line.text =
          (path.transcript setting.host setting.answer before.active (keepFirst start)).reverse ++
            before.lines.map Line.text := by
  have told : ∀ patience, (path.navigate { setting with patience := patience } start).Tells
      (fun found => found.nodes = path.meaning setting.host setting.answer start)
      fun active => path.transcript setting.host setting.answer active (keepFirst start) := by
    intro patience
    have recounted : path.Recounted { setting with patience := patience } := by
      apply Path.recounted
      exact accepts
    have tells := recounted (.ofList start)
    rw [Frontier.nodes_ofList_eq_keepFirst, path.meaning_keepFirst] at tells
    exact tells
  constructor
  · exact fun before found after ended => told setting.patience before found after ended
  · intro region grounded fit inside
    refine ⟨region.ncard, fun patience patient before => ?_⟩
    have settles : (path.navigate { setting with patience := patience } start).Settles
        fun found => found.nodes = path.meaning setting.host setting.answer start := by
      apply Fit.navigate_settles
      · exact accepts
      · exact grounded
      · exact patient
      · exact fit
      · exact inside
    obtain ⟨found, ends, _⟩ := settles
    have ended : (path.navigate { setting with patience := patience } start).perform before =
      (.ok found, _) := Prod.ext (ends before) rfl
    exact ⟨found, _, ended, (told patience before found _ ended).2.2⟩

end TreeQuery

namespace TreeQuery.Grove

/-- In the grove, from its top: with trace output off, and whatever it was before with more
patience. -/
theorem query_transcript :
    (∃ found after, (query.navigate setting [spot 0 "r"]).perform {} = (.ok found, after) ∧
      after.lines.map Line.text = (query.transcript setting.host setting.answer false
        (Frontier.keepFirst [spot 0 "r"])).reverse) ∧
    ∃ enough, ∀ patience, enough ≤ patience → ∀ before, ∃ found after,
      (query.navigate { setting with patience := patience } [spot 0 "r"]).perform before =
        (.ok found, after) ∧
      after.lines.map Line.text = (query.transcript setting.host setting.answer before.active
        (Frontier.keepFirst [spot 0 "r"])).reverse ++ before.lines.map Line.text := by
  have accepts : setting.sink.Accepts := fun _ _ => rfl
  have top : ∀ node ∈ [spot 0 "r"], node ∈ region := by
    rw [List.forall_mem_singleton]
    exact Or.inl rfl
  obtain ⟨tells, ends⟩ := Path.navigate_transcript accepts query [spot 0 "r"]
  constructor
  · have told := tells {} _ _ rfl
    refine ⟨_, _, rfl, ?_⟩
    rw [told.2.2, List.map_nil, List.append_nil]
  · exact ends region grounded query_fit top

example : ((query.navigate setting [spot 0 "r"]).perform {}).2.lines.reverse.map Line.text =
    ["## [ begin path: near ]", "\tdescendants:z (1 node)", "## [ end path: near ]"] := by
  decide

end TreeQuery.Grove
