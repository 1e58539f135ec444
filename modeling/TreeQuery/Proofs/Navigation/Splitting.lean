import TreeQuery.Proofs.Navigation.FirstFailure
import TreeQuery.Proofs.Run.Muted

/-! # Splitting steps

A list of steps may be cut anywhere and its two parts be run one after the other: the same questions
are asked and the same nodes are found, or the same failure comes out. Only a missing step is
numbered in the part that it belongs to (`TreeQuery.Path.navigate_split`).
-/

namespace TreeQuery

variable {Node Leaf Failure : Type} [Keyed Node] {setting : Setting Node Leaf Failure}

namespace Evaluation

variable {front back steps : List (Option (Predicate Leaf))} {frontier found : Frontier Node}
  {offset position : Nat}

theorem stepsFrom_append (offset : Nat) (front back : List (Option (Predicate Leaf)))
    (frontier : Frontier Node) :
    stepsFrom setting offset (front ++ back) frontier =
      (stepsFrom setting offset front frontier).andThen
        (stepsFrom setting (offset + front.length) back) := by
  unfold stepsFrom
  rw [List.zipIdx_append, List.map_append, Course.inOrder_append, Nat.add_comm]

theorem not_missesAt_nil : ¬ MissesAt setting offset [] frontier position := by
  rintro ⟨index, _, ⟨missing, _⟩, _⟩
  cases missing

/-- Steps come to a missing one in front, or behind what the steps in front find. -/
theorem missesAt_append_iff :
    MissesAt setting offset (front ++ back) frontier position ↔
      MissesAt setting offset front frontier position ∨
        ∃ found, (stepsFrom setting offset front frontier).outcome = .ok found ∧
          MissesAt setting (offset + front.length) back found position := by
  induction front generalizing offset frontier with
  | nil =>
      have whole : (stepsFrom setting offset [] frontier).outcome = .ok frontier := rfl
      simp [not_missesAt_nil, whole]
  | cons step? rest ih =>
      rw [List.cons_append, List.length_cons, Nat.add_comm rest.length, ← Nat.add_assoc]
      cases done : frontier.isEmpty with
      | true =>
          have still : (stepsFrom setting offset (step? :: rest) frontier).outcome =
              .ok frontier := by
            rw [stepsFrom_of_isEmpty _ _ done]
            rfl
          simp [not_missesAt_of_isEmpty done, still]
      | false =>
          rw [stepsFrom_cons _ _ _ done]
          cases step? with
          | none =>
              have fails : ∀ next, ((stepAt setting (none, offset) frontier).andThen next :
                  Course Node Leaf Failure (Frontier Node)).outcome =
                    .error (.missingStep offset) := fun _ => rfl
              simp [missesAt_none_cons_iff done, fails]
          | some predicate =>
              cases ended : (stepAt setting (some predicate, offset) frontier).outcome with
              | error fault =>
                  rw [Course.andThen_of_error ended]
                  simp [not_missesAt_some_cons_of_error done ended]
              | ok next =>
                  rw [Course.andThen_of_ok ended, missesAt_some_cons_iff_of_ok done ended,
                    missesAt_some_cons_iff_of_ok done ended]
                  exact ih

/-- Where steps are counted from matters only if they come to a missing one, and then only for its
number. -/
theorem stepsFrom_cases (setting : Setting Node Leaf Failure) (offset : Nat)
    (steps : List (Option (Predicate Leaf))) (frontier : Frontier Node) :
    (∀ other, stepsFrom setting other steps frontier = stepsFrom setting offset steps frontier) ∧
        (∀ position, ¬ MissesAt setting offset steps frontier position) ∨
      ∃ index calls, MissesAt setting offset steps frontier (offset + index) ∧
        ∀ other, stepsFrom setting other steps frontier =
          ⟨calls, .error (.missingStep (other + index))⟩ := by
  induction steps generalizing offset frontier with
  | nil => exact .inl ⟨fun _ => rfl, fun _ => not_missesAt_nil⟩
  | cons step? rest ih =>
      cases done : frontier.isEmpty with
      | true =>
          refine .inl ⟨fun other => ?_, fun _ => not_missesAt_of_isEmpty done⟩
          rw [stepsFrom_of_isEmpty _ _ done, stepsFrom_of_isEmpty _ _ done]
      | false =>
          have begins : ∀ other, stepsFrom setting other (step? :: rest) frontier =
              (stepAt setting (step?, other) frontier).andThen
                (stepsFrom setting (other + 1) rest) :=
            fun other => stepsFrom_cons other step? rest done
          cases step? with
          | none =>
              refine .inr ⟨0, [], (missesAt_none_cons_iff done).mpr rfl, fun other => ?_⟩
              rw [begins]
              rfl
          | some predicate =>
              -- A step that is there does not look at its number.
              have same : ∀ other, stepAt setting (some predicate, other) frontier =
                  stepAt setting (some predicate, offset) frontier := fun _ => rfl
              cases ended : (stepAt setting (some predicate, offset) frontier).outcome with
              | error fault =>
                  refine .inl ⟨fun other => ?_, fun _ => not_missesAt_some_cons_of_error done ended⟩
                  rw [begins, begins, same, Course.andThen_of_error ended,
                    Course.andThen_of_error ended]
              | ok next =>
                  have goes : ∀ other, stepsFrom setting other (some predicate :: rest) frontier =
                      ⟨(stepAt setting (some predicate, offset) frontier).calls ++
                          (stepsFrom setting (other + 1) rest next).calls,
                        (stepsFrom setting (other + 1) rest next).outcome⟩ := fun other => by
                    rw [begins, same, Course.andThen_of_ok ended]
                  have misses : ∀ position,
                      MissesAt setting offset (some predicate :: rest) frontier position ↔
                        MissesAt setting (offset + 1) rest next position :=
                    fun _ => missesAt_some_cons_iff_of_ok done ended
                  rcases ih (offset + 1) next with ⟨alike, nowhere⟩ | ⟨index, calls, here, fails⟩
                  · refine .inl ⟨fun other => ?_, fun position => ?_⟩
                    · rw [goes, goes, alike]
                    · rw [misses]
                      exact nowhere position
                  · have shifted : ∀ other, other + 1 + index = other + (index + 1) := by
                      intro other
                      omega
                    refine .inr ⟨index + 1, (stepAt setting (some predicate, offset) frontier).calls
                      ++ calls, ?_, fun other => ?_⟩
                    · rw [misses, ← shifted]
                      exact here
                    · rw [goes, fails, shifted]

/-- Cut into two parts, steps take the same course, except that a missing step that they come to is
numbered in its part. -/
theorem stepsFrom_split (setting : Setting Node Leaf Failure)
    (front back : List (Option (Predicate Leaf))) (start : Frontier Node) :
    let whole := stepsFrom setting 0 (front ++ back) start
    let split := (stepsFrom setting 0 front start).andThen (stepsFrom setting 0 back)
    split.calls = whole.calls ∧
      (split.outcome = whole.outcome ∧
          (∀ index, ¬ MissesAt setting 0 (front ++ back) start index) ∨
        ∃ index, MissesAt setting 0 (front ++ back) start index ∧
          whole.outcome = .error (.missingStep index) ∧
          split.outcome = .error (.missingStep
            (if index < front.length then index else index - front.length))) := by
  dsimp only
  rw [stepsFrom_append]
  simp only [missesAt_append_iff, Nat.zero_add]
  rcases stepsFrom_cases setting 0 front start with
    ⟨-, nowhere⟩ | ⟨index, calls, here, fails⟩
  · cases ended : (stepsFrom setting 0 front start).outcome with
    | error fault =>
        rw [Course.andThen_of_error ended, Course.andThen_of_error ended]
        refine ⟨rfl, .inl ⟨rfl, fun index => ?_⟩⟩
        simp [nowhere]
    | ok found =>
        rw [Course.andThen_of_ok ended, Course.andThen_of_ok ended]
        rcases stepsFrom_cases setting front.length back found with
          ⟨alike, apart⟩ | ⟨index, calls, here, fails⟩
        · rw [alike 0]
          refine ⟨rfl, .inl ⟨rfl, fun index => ?_⟩⟩
          simp [nowhere, apart]
        · rw [fails, fails]
          refine ⟨rfl, .inr ⟨front.length + index, .inr ⟨found, rfl, here⟩, rfl, ?_⟩⟩
          simp
  · rw [fails]
    have less : index < front.length := by
      obtain ⟨_, same, ⟨missing, _⟩, _⟩ := here
      obtain rfl : index = _ := by simpa using same
      exact (List.getElem?_eq_some_iff.mp missing).1
    refine ⟨rfl, .inr ⟨index, .inl (by simpa using here), ?_, ?_⟩⟩
    · rw [Course.andThen_of_error rfl, Nat.zero_add]
    · rw [Course.andThen_of_error rfl, if_pos less, Nat.zero_add]

theorem path_chain_pair (front back : List (Option (Predicate Leaf))) (start : Frontier Node) :
    path setting (.chain [.simple front, .simple back]) start =
      (stepsFrom setting 0 front start).andThen (stepsFrom setting 0 back) := by
  simp only [path, paths]
  cases nowhere : start.isEmpty with
  | true =>
      rw [Course.inOrder_of_over _ nowhere, stepsFrom_of_isEmpty _ _ nowhere, Course.done_andThen,
        stepsFrom_of_isEmpty _ _ nowhere]
  | false =>
      rw [Course.inOrder_cons_of_not_over _ _ nowhere]
      congr 1
      funext found
      cases none : found.isEmpty with
      | true => rw [Course.inOrder_of_over _ none, stepsFrom_of_isEmpty _ _ none]
      | false =>
          rw [Course.inOrder_cons_of_not_over _ _ none]
          exact Course.andThen_done _

end Evaluation

namespace Path

/-- Where no line can be refused, since the sink takes every line or trace output is off, paths
without titles take their courses. -/
theorem exists_courses {before : Journal Node Leaf}
    (unheard : setting.sink.Accepts ∨ before.active = false) :
    ∃ heard : Setting Node Leaf Failure, ∀ path : Path Leaf, path.untraced = path →
      ∀ start : Frontier Node,
        ((path.run setting start).perform before).1 = (Evaluation.path heard path start).outcome ∧
          ((path.run setting start).perform before).2.calls =
            (Evaluation.path heard path start).calls.reverse ++ before.calls := by
  rcases unheard with accepts | off
  · exact ⟨setting, fun path _ start => Evaluation.run_takes accepts path start before⟩
  · refine ⟨setting.reporting .accepting, fun path untraced start => ?_⟩
    have accepts : (Sink.accepting : Sink Failure).Accepts := fun _ _ => rfl
    have muted := run_muted accepts setting.sink setting path start before before rfl off
    rw [untraced] at muted
    have takes : (path.run (setting.reporting .accepting) start).Takes
        (Evaluation.path (setting.reporting .accepting) path start) :=
      Evaluation.run_takes accepts path start
    exact ⟨muted.1.symm.trans (takes before).1, muted.2.1.symm.trans (takes before).2⟩

/-- A run of steps comes to a missing one: the steps before the first that is missing leave
nodes. -/
def ComesToMissing (setting : Setting Node Leaf Failure) (steps : List (Option (Predicate Leaf)))
    (start : List Node) (before : Journal Node Leaf) (index : Nat) : Prop :=
  Evaluation.FirstMissing steps index ∧ ∃ found : Frontier Node,
    (((simple (steps.take index)).navigate setting start).perform before).1 = .ok found ∧
      found.isEmpty = false

/-- Cut into two parts that are run one after the other, steps ask the same questions and end alike,
except that a missing step is numbered in its part. -/
theorem navigate_split {before : Journal Node Leaf}
    (unheard : setting.sink.Accepts ∨ before.active = false)
    (front back : List (Option (Predicate Leaf))) (start : List Node) :
    let whole := ((simple (front ++ back)).navigate setting start).perform before
    let split := ((chain [simple front, simple back]).navigate setting start).perform before
    split.2.calls = whole.2.calls ∧
      (split.1 = whole.1 ∧ (∀ index, ¬ ComesToMissing setting (front ++ back) start before index) ∨
        ∃ index, ComesToMissing setting (front ++ back) start before index ∧
          whole.1 = .error (.missingStep index) ∧
          split.1 = .error (.missingStep
            (if index < front.length then index else index - front.length))) := by
  dsimp only
  obtain ⟨heard, courses⟩ := exists_courses unheard
  have misses : ∀ steps index, ComesToMissing setting steps start before index ↔
      Evaluation.MissesAt heard 0 steps (.ofList start) index := by
    intro steps index
    have ends := (courses (simple (steps.take index)) rfl (.ofList start)).1
    simp only [ComesToMissing, navigate, ends, Evaluation.MissesAt, Nat.zero_add,
      exists_eq_left']
    rfl
  have whole := courses (simple (front ++ back)) rfl (.ofList start)
  have split := courses (chain [simple front, simple back]) rfl (.ofList start)
  rw [Evaluation.path_chain_pair] at split
  simp only [misses, navigate, whole, split]
  obtain ⟨calls, outcomes⟩ := Evaluation.stepsFrom_split heard front back (.ofList start)
  exact ⟨by rw [calls]; rfl, outcomes⟩

end Path

end TreeQuery
