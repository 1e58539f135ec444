import Mathlib.Data.List.Forall2
import TreeQuery.Proofs.Run.Congruence
import TreeQuery.Proofs.Run.Outcome
import TreeQuery.Proofs.Run.Sequence

/-! # Courses of evaluation

An evaluation takes a course: it makes calls in some order and ends with a value or a fault. Parts
are evaluated one after the other, and the first that fails ends the whole
(`TreeQuery.Course.inOrder`). A course knows nothing of traces; a run takes it when it makes its
calls and ends as it does, whatever is traced (`TreeQuery.Run.Takes`).
-/

namespace TreeQuery

variable {Node Leaf Failure State : Type} {α β : Type}

/-- Two lists made from the same elements are related if what each element becomes is. -/
theorem forall₂_map_of_mem {γ : Type} {relates : α → β → Prop} {left : γ → α} {right : γ → β}
    {elements : List γ} (related : ∀ element ∈ elements, relates (left element) (right element)) :
    List.Forall₂ relates (elements.map left) (elements.map right) := by
  rw [List.forall₂_map_left_iff, List.forall₂_map_right_iff, List.forall₂_same]
  exact related

/-- The calls that an evaluation makes, in order, and how it ends. -/
structure Course (Node Leaf Failure α : Type) where
  calls : List (Call Node Leaf)
  outcome : Except (Fault Failure) α

namespace Course

/-- A value without any call. -/
def done (value : α) : Course Node Leaf Failure α := ⟨[], .ok value⟩

/-- A fault without any call. -/
def failed (fault : Fault Failure) : Course Node Leaf Failure α := ⟨[], .error fault⟩

/-- A single call, with the answer to it. -/
def asked (call : Call Node Leaf) (answer : Except (Fault Failure) α) :
    Course Node Leaf Failure α :=
  ⟨[call], answer⟩

/-- What follows on a first part. Where the first part fails, nothing follows. -/
def andThen (first : Course Node Leaf Failure α) (next : α → Course Node Leaf Failure β) :
    Course Node Leaf Failure β :=
  match first.outcome with
  | .error fault => ⟨first.calls, .error fault⟩
  | .ok value => ⟨first.calls ++ (next value).calls, (next value).outcome⟩

/-- Parts in order, each from what the one before came to, until one fails or the work is over. -/
def inOrder (isOver : State → Bool) :
    List (State → Course Node Leaf Failure State) → State → Course Node Leaf Failure State
  | [], state => done state
  | part :: rest, state =>
      if isOver state then done state else (part state).andThen (inOrder isOver rest)

variable {isOver : State → Bool}

/-- No part follows once the work is over. -/
theorem inOrder_of_over (parts : List (State → Course Node Leaf Failure State)) {state : State}
    (ended : isOver state = true) : inOrder isOver parts state = done state := by
  cases parts with
  | nil => rfl
  | cons part rest => rw [inOrder, if_pos ended]

/-- Before that the next part follows, and then the rest. -/
theorem inOrder_cons_of_not_over (part : State → Course Node Leaf Failure State)
    (rest : List (State → Course Node Leaf Failure State)) {state : State}
    (more : isOver state = false) :
    inOrder isOver (part :: rest) state = (part state).andThen (inOrder isOver rest) := by
  rw [inOrder, more, if_neg Bool.false_ne_true]

/-- After a value come the calls of what follows and its outcome. -/
theorem andThen_of_ok {first : Course Node Leaf Failure α} {value : α}
    (ended : first.outcome = .ok value) (next : α → Course Node Leaf Failure β) :
    first.andThen next = ⟨first.calls ++ (next value).calls, (next value).outcome⟩ := by
  rw [andThen, ended]

/-- After a fault comes nothing. -/
theorem andThen_of_error {first : Course Node Leaf Failure α} {fault : Fault Failure}
    (ended : first.outcome = .error fault) (next : α → Course Node Leaf Failure β) :
    first.andThen next = ⟨first.calls, .error fault⟩ := by
  rw [andThen, ended]

/-- Ending with the value at hand adds nothing. -/
theorem andThen_done (course : Course Node Leaf Failure α) : course.andThen done = course := by
  rcases course with ⟨calls, fault | value⟩
  · rfl
  · rw [andThen_of_ok rfl, done, List.append_nil]

/-- A value at hand is what the rest goes on with. -/
theorem done_andThen (value : α) (next : α → Course Node Leaf Failure β) :
    (done value).andThen next = next value := by
  rw [andThen_of_ok rfl, done, List.nil_append]

/-- Where a course is cut makes no difference. -/
theorem andThen_assoc {γ : Type} (first : Course Node Leaf Failure α)
    (next : α → Course Node Leaf Failure β) (last : β → Course Node Leaf Failure γ) :
    (first.andThen next).andThen last = first.andThen fun value => (next value).andThen last := by
  rcases first with ⟨calls, fault | value⟩
  · rfl
  · have begun : ∀ {δ : Type} (goes : α → Course Node Leaf Failure δ),
        andThen ⟨calls, .ok value⟩ goes = ⟨calls ++ (goes value).calls, (goes value).outcome⟩ :=
      andThen_of_ok rfl
    rw [begun, begun]
    generalize next value = second
    rcases second with ⟨further, fault | result⟩
    · rfl
    · simp only [andThen, List.append_assoc]

/-- The outcomes follow each other like computations that may fail. -/
theorem outcome_andThen (first : Course Node Leaf Failure α)
    (next : α → Course Node Leaf Failure β) :
    (first.andThen next).outcome = first.outcome >>= fun value => (next value).outcome := by
  cases ended : first.outcome with
  | error fault =>
      rw [andThen_of_error ended]
      rfl
  | ok value =>
      rw [andThen_of_ok ended]
      rfl

/-- Parts may be put in order in two portions. -/
theorem inOrder_append (front back : List (State → Course Node Leaf Failure State))
    (state : State) :
    inOrder isOver (front ++ back) state =
      (inOrder isOver front state).andThen (inOrder isOver back) := by
  induction front generalizing state with
  | nil => rw [List.nil_append, inOrder, done_andThen]
  | cons part rest ih =>
      rw [List.cons_append]
      cases ended : isOver state with
      | true => rw [inOrder_of_over _ ended, inOrder_of_over _ ended, done_andThen,
          inOrder_of_over _ ended]
      | false =>
          rw [inOrder_cons_of_not_over _ _ ended, inOrder_cons_of_not_over _ _ ended,
            andThen_assoc]
          congr 1
          funext next
          exact ih next

/-- A course of which only the last call can have failed. If it has, its fault is the outcome. If no
call has failed, the course ends with a value, or with a fault that comes from no call. -/
inductive StopsAtFailure (fault? : Call Node Leaf → Option (Fault Failure))
    (uncalled : Fault Failure → Prop) : Course Node Leaf Failure α → Prop where
  | clean {course : Course Node Leaf Failure α} :
      (∀ call ∈ course.calls, fault? call = none) →
        (∀ fault, course.outcome = .error fault → uncalled fault) →
          StopsAtFailure fault? uncalled course
  | failed {calls : List (Call Node Leaf)} {call : Call Node Leaf} {fault : Fault Failure} :
      (∀ earlier ∈ calls, fault? earlier = none) → fault? call = some fault →
        StopsAtFailure fault? uncalled ⟨calls ++ [call], .error fault⟩

namespace StopsAtFailure

variable {fault? : Call Node Leaf → Option (Fault Failure)} {uncalled : Fault Failure → Prop}

/-- More faults that come from no call may be allowed for. -/
theorem mono {more : Fault Failure → Prop} {course : Course Node Leaf Failure α}
    (stops : StopsAtFailure fault? uncalled course)
    (weaken : ∀ fault, uncalled fault → more fault) :
    StopsAtFailure fault? more course := by
  cases stops with
  | failed before last => exact .failed before last
  | clean before allowed => exact .clean before fun fault same => weaken fault (allowed fault same)

/-- An outcome without any call. -/
theorem of_no_call {outcome : Except (Fault Failure) α}
    (allowed : ∀ fault, outcome = .error fault → uncalled fault) :
    StopsAtFailure fault? uncalled (⟨[], outcome⟩ : Course Node Leaf Failure α) :=
  .clean (fun _ member => absurd member List.not_mem_nil) allowed

theorem done (value : α) :
    StopsAtFailure fault? uncalled (.done value : Course Node Leaf Failure α) :=
  .of_no_call fun _ same => by cases same

/-- A fault without any call comes from none. -/
theorem of_failed {fault : Fault Failure} (allowed : uncalled fault) :
    StopsAtFailure fault? uncalled (.failed fault : Course Node Leaf Failure α) :=
  .of_no_call fun _ same => by cases same; exact allowed

/-- A single call that is answered, or fails with the fault of the outcome. -/
theorem asked {call : Call Node Leaf} {answer : Except (Fault Failure) α}
    (answered : ∀ value, answer = .ok value → fault? call = none)
    (fails : ∀ fault, answer = .error fault → fault? call = some fault) :
    StopsAtFailure fault? uncalled (.asked call answer) := by
  cases answer with
  | ok value =>
      refine .clean (fun other member => ?_) fun fault same => by cases same
      rw [List.mem_singleton.mp member]
      exact answered value rfl
  | error fault =>
      have before : ∀ earlier ∈ ([] : List (Call Node Leaf)), fault? earlier = none :=
        fun _ member => absurd member List.not_mem_nil
      exact .failed before (fails fault rfl)

theorem andThen {first : Course Node Leaf Failure α} {next : α → Course Node Leaf Failure β}
    (stops : StopsAtFailure fault? uncalled first)
    (goes : ∀ value, StopsAtFailure fault? uncalled (next value)) :
    StopsAtFailure fault? uncalled (first.andThen next) := by
  cases stops with
  | failed before last => exact .failed before last
  | clean before allowed =>
      cases ended : first.outcome with
      | error fault =>
          rw [andThen_of_error ended]
          refine .clean before fun other same => ?_
          cases same
          exact allowed fault ended
      | ok value =>
          rw [andThen_of_ok ended]
          have later := goes value
          generalize next value = rest at later
          cases later with
          | clean after kept =>
              refine .clean (fun call member => ?_) kept
              exact (List.mem_append.mp member).elim (before call) (after call)
          | @failed calls call fault after last =>
              rw [← List.append_assoc]
              refine .failed (fun earlier member => ?_) last
              exact (List.mem_append.mp member).elim (before earlier) (after earlier)

theorem inOrder {parts : List (State → Course Node Leaf Failure State)}
    (stops : ∀ part ∈ parts, ∀ state, StopsAtFailure fault? uncalled (part state))
    (state : State) : StopsAtFailure fault? uncalled (inOrder isOver parts state) := by
  induction parts generalizing state with
  | nil => exact .done state
  | cons part rest ih =>
      cases ended : isOver state with
      | true =>
          rw [inOrder_of_over _ ended]
          exact .done state
      | false =>
          rw [inOrder_cons_of_not_over _ _ ended]
          apply (stops part List.mem_cons_self state).andThen
          exact ih fun other member => stops other (List.mem_cons_of_mem _ member)

end StopsAtFailure

/-- A course that is given up, or is the same as another that has more patience. -/
def Precedes (hasty patient : Course Node Leaf Failure α) : Prop :=
  hasty.outcome = .error .exhausted ∨ hasty = patient

namespace Precedes

theorem refl (course : Course Node Leaf Failure α) : Precedes course course := .inr rfl

theorem andThen {hasty patient : Course Node Leaf Failure α}
    {next later : α → Course Node Leaf Failure β} (first : Precedes hasty patient)
    (goes : ∀ value, Precedes (next value) (later value)) :
    Precedes (hasty.andThen next) (patient.andThen later) := by
  rcases first with given | rfl
  · rw [andThen_of_error given]
    exact .inl rfl
  · cases ended : hasty.outcome with
    | error fault =>
        rw [andThen_of_error ended, andThen_of_error ended]
        exact refl _
    | ok value =>
        rw [andThen_of_ok ended, andThen_of_ok ended]
        rcases goes value with given | same
        · exact .inl given
        · rw [same]
          exact refl _

theorem inOrder {left right : List (State → Course Node Leaf Failure State)}
    (precede : List.Forall₂ (fun hasty patient => ∀ state, Precedes (hasty state) (patient state))
      left right) (state : State) :
    Precedes (inOrder isOver left state) (inOrder isOver right state) := by
  induction precede generalizing state with
  | nil => exact refl _
  | cons head _ ih =>
      cases ended : isOver state with
      | true =>
          rw [inOrder_of_over _ ended, inOrder_of_over _ ended]
          exact refl _
      | false =>
          rw [inOrder_cons_of_not_over _ _ ended, inOrder_cons_of_not_over _ _ ended]
          exact (head state).andThen ih

end Precedes

end Course

namespace Run

/-- A run that makes the calls of a course and ends as it does, whatever its journal. -/
def Takes (computation : Run Node Leaf Failure α) (course : Course Node Leaf Failure α) : Prop :=
  ∀ before, (computation.perform before).1 = course.outcome ∧
    (computation.perform before).2.calls = course.calls.reverse ++ before.calls

namespace Takes

theorem ends {computation : Run Node Leaf Failure α} {course : Course Node Leaf Failure α}
    (takes : Takes computation course) : Ends computation course.outcome :=
  fun before => (takes before).1

theorem pure (value : α) : Takes (Pure.pure value : Run Node Leaf Failure α) (.done value) :=
  fun _ => ⟨rfl, rfl⟩

theorem throw (fault : Fault Failure) :
    Takes (throw fault : Run Node Leaf Failure α) (.failed fault) :=
  fun _ => ⟨rfl, rfl⟩

theorem throw_bind (fault : Fault Failure) (next : α → Run Node Leaf Failure β) :
    Takes (MonadExcept.throw fault >>= next) (.failed fault) := by
  intro before
  rw [perform_bind]
  exact ⟨rfl, rfl⟩

theorem liftExcept (outcome : Except (Fault Failure) α) :
    Takes (liftM outcome : Run Node Leaf Failure α) ⟨[], outcome⟩ := by
  intro before
  rw [perform_liftExcept]
  exact ⟨rfl, rfl⟩

theorem asked (call : Call Node Leaf) (answer : Except (Fault Failure) α) :
    Takes (do note call; liftM answer : Run Node Leaf Failure α) (.asked call answer) := by
  intro before
  rw [perform_bind, perform_note]
  dsimp only
  rw [perform_liftExcept]
  exact ⟨rfl, rfl⟩

theorem bind {first : Run Node Leaf Failure α} {next : α → Run Node Leaf Failure β}
    {course : Course Node Leaf Failure α} {later : α → Course Node Leaf Failure β}
    (takes : Takes first course) (goes : ∀ value, Takes (next value) (later value)) :
    Takes (first >>= next) (course.andThen later) := by
  intro before
  obtain ⟨ended, called⟩ := takes before
  rw [perform_bind]
  generalize first.perform before = reached at ended called ⊢
  obtain ⟨outcome, middle⟩ := reached
  cases outcome with
  | error fault =>
      rw [Course.andThen_of_error ended.symm]
      exact ⟨rfl, called⟩
  | ok value =>
      rw [Course.andThen_of_ok ended.symm]
      obtain ⟨finished, further⟩ := goes value middle
      refine ⟨finished, ?_⟩
      change _ = (course.calls ++ (later value).calls).reverse ++ before.calls
      rw [further, called, List.reverse_append, List.append_assoc]

/-- A line to a sink that takes it is no part of the course. -/
theorem after_send {next : Run Node Leaf Failure α} {course : Course Node Leaf Failure α}
    (goes : Takes next course) {sink : Sink Failure} (accepts : sink.Accepts) (line : Line) :
    Takes (do send sink line; next) course := by
  intro before
  rw [perform_bind, perform_send_of_accepts accepts]
  exact goes _

/-- The lines around an excluded part are no part of its course. -/
theorem excluding {sink : Sink Failure} (accepts : sink.Accepts) {body : Run Node Leaf Failure α}
    {course : Course Node Leaf Failure α} (takes : Takes body course) :
    Takes (Run.excluding sink body) course := by
  have whole := takes.bind fun value => (pure value).after_send accepts .endExclusion
  rw [course.andThen_done] at whole
  exact whole.after_send accepts .beginExclusion

/-- Tracing a section does not change its course. -/
theorem traced {sink : Sink Failure} (accepts : sink.Accepts) (title : String)
    {body : Run Node Leaf Failure α} {course : Course Node Leaf Failure α}
    (takes : Takes body course) : Takes (Run.traced sink title body) course := by
  intro before
  rw [perform_traced_of_accepts accepts]
  exact takes _

theorem sequence {isOver : State → Bool} {parts : List (State → Run Node Leaf Failure State)}
    {courses : List (State → Course Node Leaf Failure State)}
    (takes : List.Forall₂ (fun part course => ∀ state, Takes (part state) (course state))
      parts courses) (state : State) :
    Takes (Run.sequence isOver parts state) (.inOrder isOver courses state) := by
  induction takes generalizing state with
  | nil => exact pure state
  | cons head _ ih =>
      cases ended : isOver state with
      | true =>
          rw [sequence_of_over _ ended, Course.inOrder_of_over _ ended]
          exact pure state
      | false =>
          rw [sequence_cons_of_not_over _ _ ended, Course.inOrder_cons_of_not_over _ _ ended]
          exact (head state).bind ih

end Takes

end Run

end TreeQuery
