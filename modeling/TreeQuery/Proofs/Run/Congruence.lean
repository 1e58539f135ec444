import TreeQuery.Trace

/-! # Relations that parts of a run hand on to the whole

To compare two runs that are built alike, or to say something about one of them, it is enough to
look at what they are built from. A congruence is a relation between runs that holds between equal
elementary steps and that parts hand on to wholes
(`TreeQuery.Run.TraceCongruence.run_untraced` draws the conclusion for paths).
-/

namespace TreeQuery.Run

variable {Node Leaf Failure : Type}

/-- A relation between runs that holds between equal steps without trace output and between runs
that go on from related ones in a related way. -/
structure Congruence
    (relates : ∀ ⦃α : Type⦄, Run Node Leaf Failure α → Run Node Leaf Failure α → Prop) : Prop where
  pure : ∀ {α : Type} (value : α), relates (Pure.pure value) (Pure.pure value)
  throw : ∀ {α : Type} (fault : Fault Failure),
    relates (throw fault : Run Node Leaf Failure α) (throw fault)
  note : ∀ call, relates (note call) (note call)
  liftExcept : ∀ {α : Type} (outcome : Except (Fault Failure) α),
    relates (liftM outcome : Run Node Leaf Failure α) (liftM outcome)
  bind : ∀ {α β : Type} {left right : Run Node Leaf Failure α}
    {leftNext rightNext : α → Run Node Leaf Failure β}, relates left right →
      (∀ value, relates (leftNext value) (rightNext value)) →
        relates (left >>= leftNext) (right >>= rightNext)

namespace Congruence

variable {relates : ∀ ⦃α : Type⦄, Run Node Leaf Failure α → Run Node Leaf Failure α → Prop}
  {α β : Type}

theorem map (congruent : Congruence relates) (change : α → β) {left right : Run Node Leaf Failure α}
    (related : relates left right) : relates (change <$> left) (change <$> right) := by
  rw [map_eq_pure_bind, map_eq_pure_bind]
  exact congruent.bind related fun value => congruent.pure (change value)

theorem mapM (congruent : Congruence relates) {left right : α → Run Node Leaf Failure β}
    (related : ∀ element, relates (left element) (right element)) (elements : List α) :
    relates (elements.mapM left) (elements.mapM right) := by
  induction elements with
  | nil =>
      rw [List.mapM_nil, List.mapM_nil]
      exact congruent.pure []
  | cons element rest ih =>
      rw [List.mapM_cons, List.mapM_cons]
      apply congruent.bind (related element)
      intro value
      exact congruent.bind ih fun values => congruent.pure (value :: values)

end Congruence

/-- Runs a body between the two lines of an exclusion. -/
def excluding {α : Type} (sink : Sink Failure) (body : Run Node Leaf Failure α) :
    Run Node Leaf Failure α := do
  send sink .beginExclusion
  let result ← body
  send sink .endExclusion
  pure result

/-- A congruence that stands up to trace output: to the same lines sent to two sinks, and to titles
on the left side only. -/
structure TraceCongruence
    (relates : ∀ ⦃α : Type⦄, Run Node Leaf Failure α → Run Node Leaf Failure α → Prop)
    (first second : Sink Failure) (names : String → String) : Prop
    extends Congruence relates where
  step : ∀ label count, relates (send first (.step label count)) (send second (.step label count))
  abort : relates (send first .abort) (send second .abort)
  excluding : ∀ {α : Type} {left right : Run Node Leaf Failure α}, relates left right →
    relates (excluding first left) (excluding second right)
  traced : ∀ {α : Type} (title : String) {left right : Run Node Leaf Failure α},
    relates left right → relates (traced first (names title) left) right

end TreeQuery.Run
