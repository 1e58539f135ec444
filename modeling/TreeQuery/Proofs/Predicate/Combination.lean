import TreeQuery.LeafTest
import TreeQuery.Proofs.Predicate.Verdict
import TreeQuery.Session.State

/-! # Combinations of predicates

The operators on predicates make a predicate from an expression over tests and functions, some of
the tests along an axis. Seen from its leaves such an expression is an expression of truth values,
and that is what comes of it: an expression in which two axes meet cannot be made into a predicate,
and any other gives a predicate along the one axis there is, whose test has the truth value of the
expression (`TreeQuery.Combination.build_denotes`). Which operand of an operator was the traversal,
and whether a negation stood outside or inside of it, makes no difference.
-/

namespace TreeQuery

section Operators

variable {Node Leaf Failure : Type}

/-- What a connective makes of two answers. -/
def Connective.apply : Connective → Bool → Bool → Bool
  | and => (· && ·)
  | or => (· || ·)

theorem Connective.apply_comm (connective : Connective) (left right : Bool) :
    connective.apply left right = connective.apply right left := by
  cases connective with
  | and => exact Bool.and_comm left right
  | or => exact Bool.or_comm left right

namespace Predicate

/-- A predicate that is neither a traversal nor an object without a label. -/
structure Plain (test : Predicate Leaf) : Prop where
  axis : test.axis? = none
  label : ∃ text, test.label = .ok text

/-- A test along an axis, or a test as it is. -/
def along : Option Axis → Predicate Leaf → Predicate Leaf
  | none, test => test
  | some axis, test => traversal axis test

/-- A test has an answer about each node of a region, and its truth is known. -/
def Gives (answer : Leaf → Node → Except (Fault Failure) Value) (region : Set Node)
    (test : Predicate Leaf) (truth : Node → Bool) : Prop :=
  ∀ node ∈ region, ∃ value, test.verdict answer node = .ok value ∧ value.truthy = truth node

section Plain

variable {test left right : Predicate Leaf} {connective : Connective} {rules : ForeignRules Leaf}

/-- The negation of a plain test is plain. -/
theorem Plain.negation (plain : test.Plain) : (negation test).Plain := by
  obtain ⟨text, labelIs⟩ := plain.label
  exact ⟨rfl, "!" ++ text, by rw [Predicate.label, labelIs]; rfl⟩

/-- Plain tests are joined to a plain test. -/
theorem Plain.joined (first : left.Plain) (second : right.Plain) (connective : Connective) :
    (joined connective left right).Plain := by
  obtain ⟨text, labelIs⟩ := first.label
  obtain ⟨text', labelIs'⟩ := second.label
  cases connective with
  | and => exact ⟨rfl, "(" ++ text ++ " & " ++ text' ++ ")", by
      rw [Predicate.joined, Predicate.label, labelIs, labelIs']; rfl⟩
  | or => exact ⟨rfl, "(" ++ text ++ " | " ++ text' ++ ")", by
      rw [Predicate.joined, Predicate.label, labelIs, labelIs']; rfl⟩

/-- A plain test can be labelled. -/
theorem Plain.labelled_eq (plain : test.Plain) : labelled test = .ok test := by
  obtain ⟨text, labelIs⟩ := plain.label
  rw [labelled, labelIs]

/-- It has a label along every axis. -/
theorem Plain.label_along (plain : test.Plain) (axis? : Option Axis) :
    ∃ text, (along axis? test).label = .ok text := by
  obtain ⟨text, labelIs⟩ := plain.label
  cases axis? with
  | none => exact ⟨text, labelIs⟩
  | some axis => exact ⟨axis.name ++ ":" ++ text, by
      rw [along, Predicate.label, labelIs]; rfl⟩

/-- A predicate that is no traversal only filters. -/
theorem Plain.step_eq [Keyed Node] (plain : test.Plain) (setting : Setting Node Leaf Failure)
    (frontier : Frontier Node) :
    test.step setting frontier = frontier.filterRun (test.accepts setting) := by
  cases test with
  | traversal axis inner => exact nomatch plain.axis
  | _ => rfl

/-- Negation acts on the test and keeps the axis. -/
theorem Plain.not?_along (plain : test.Plain) (axis? : Option Axis) :
    (along axis? test).not? rules = .ok (along axis? (Predicate.negation test)) := by
  have negated : test.not? rules = .ok (Predicate.negation test) := by
    cases test with
    | traversal axis inner => exact nomatch plain.axis
    | foreign object => exact nomatch plain.label.choose_spec
    | _ => exact plain.negation.labelled_eq
  cases axis? with
  | none => exact negated
  | some axis => rw [along, not?, negated]; rfl

/-- The tests of two traversals are joined like any others. -/
theorem Plain.joinInner_eq (first : left.Plain) (second : right.Plain)
    (connective : Connective) :
    left.joinInner connective right = .ok (Predicate.joined connective left right) := by
  cases left with
  | traversal axis inner => exact nomatch first.axis
  | foreign object => exact nomatch first.label.choose_spec
  | _ => exact (first.joined second connective).labelled_eq

/-- Plain tests without an axis are joined as they are. -/
theorem join_plain (first : left.Plain) (second : right.Plain) :
    left.join rules connective right = .ok (joined connective left right) := by
  have made := (first.joined second connective).labelled_eq
  cases left with
  | traversal axis inner => exact nomatch first.axis
  | foreign object => exact nomatch first.label.choose_spec
  | _ =>
      cases right with
      | traversal axis inner => exact nomatch second.axis
      | foreign object => exact nomatch second.label.choose_spec
      | _ => exact made

/-- A traversal takes a plain test in on the right of its test. -/
theorem traversal_join (axis : Axis) (first : left.Plain) (second : right.Plain) :
    (traversal axis left).join rules connective right =
      .ok (traversal axis (joined connective left right)) := by
  have inner := congrArg (traversal axis <$> ·) (first.joinInner_eq second connective)
  cases right with
  | traversal axis inner => exact nomatch second.axis
  | foreign object => exact nomatch second.label.choose_spec
  | _ => exact inner

/-- A traversal takes a plain test in on the right of its test even if it stood on the left. -/
theorem join_traversal (axis : Axis) (first : left.Plain) (second : right.Plain) :
    left.join rules connective (traversal axis right) =
      .ok (traversal axis (joined connective right left)) := by
  have inner := congrArg (traversal axis <$> ·) (second.joinInner_eq first connective)
  cases left with
  | traversal axis inner => exact nomatch first.axis
  | foreign object => exact nomatch first.label.choose_spec
  | _ => exact inner

/-- Two tests that are not along different axes are joined along the axis there is. -/
theorem join_along (rules : ForeignRules Leaf) (connective : Connective)
    {axis? axis?' : Option Axis} (first : left.Plain) (second : right.Plain)
    (agree : ∀ axis ∈ axis?, ∀ axis' ∈ axis?', axis = axis') :
    ∃ test, (along axis? left).join rules connective (along axis?' right) =
        .ok (along (axis?.or axis?') test) ∧
      (test = joined connective left right ∨ test = joined connective right left) := by
  cases axis? with
  | none =>
      cases axis?' with
      | none => exact ⟨_, join_plain first second, .inl rfl⟩
      | some axis => exact ⟨_, join_traversal axis first second, .inr rfl⟩
  | some axis =>
      cases axis?' with
      | none => exact ⟨_, traversal_join axis first second, .inl rfl⟩
      | some axis' =>
          obtain rfl := agree axis rfl axis' rfl
          refine ⟨_, ?_, .inl rfl⟩
          rw [along, along, join, if_pos rfl, join_plain first second]
          rfl

/-- A function on the right is taken in as the test that is made of it. -/
theorem along_join_function {function : Leaf} (connective : Connective) (axis? : Option Axis)
    (first : left.Plain) (made : foreignTest rules function = .ok test) :
    test.Plain ∧ (along axis? left).join rules connective (foreign function) =
      .ok (along axis? (joined connective left test)) := by
  have plain : test.Plain := by
    unfold foreignTest at made
    split at made
    · next leaf label _ =>
        obtain rfl := Except.ok.inj made
        exact ⟨rfl, label, rfl⟩
    · exact nomatch made
  refine ⟨plain, ?_⟩
  cases axis? with
  | none =>
      have joins := (first.joined plain connective).labelled_eq
      rw [along, along]
      cases left with
      | traversal axis inner => exact nomatch first.axis
      | foreign object => exact nomatch first.label.choose_spec
      | _ =>
          rw [join, made]
          exact joins
          all_goals nofun
  | some axis =>
      rw [along, along, join, made]
      exact congrArg (traversal axis <$> ·) (first.joinInner_eq plain connective)

/-- Traversals along different axes are refused, with the labels of both. -/
theorem join_mismatch (rules : ForeignRules Leaf) (connective : Connective) {axis axis' : Axis}
    (first : left.Plain) (second : right.Plain)
    (different : axis ≠ axis') :
    ∃ text text', (traversal axis left).join rules connective (traversal axis' right) =
      .error (.axisMismatch text text') := by
  obtain ⟨text, labelIs⟩ := first.label_along (some axis)
  obtain ⟨text', labelIs'⟩ := second.label_along (some axis')
  rw [along] at labelIs labelIs'
  exact ⟨text, text', by rw [join, if_neg different, mismatch, labelIs, labelIs']⟩

end Plain

section Gives

variable {answer : Leaf → Node → Except (Fault Failure) Value} {region : Set Node}
  {test left right : Predicate Leaf} {truth truth' : Node → Bool}

/-- A test that has an answer about every node gives its verdict. -/
theorem Answers.gives (answers : test.Answers answer region) :
    test.Gives answer region (test.holds answer) := by
  intro node inside
  obtain ⟨value, given⟩ := answers node inside
  exact ⟨value, given, by rw [holds, given]⟩

theorem Gives.answers (gives : test.Gives answer region truth) : test.Answers answer region := by
  intro node inside
  obtain ⟨value, given, -⟩ := gives node inside
  exact ⟨value, given⟩

/-- The negation of a test gives the opposite. -/
theorem Gives.negation (gives : test.Gives answer region truth) :
    (Predicate.negation test).Gives answer region fun node => !truth node := by
  intro node inside
  obtain ⟨value, given, same⟩ := gives node inside
  exact ⟨.bool !value.truthy, by rw [verdict, given]; rfl, by rw [Value.truthy, same]⟩

/-- Both operands have answers, so it does not matter whether the right one is asked. -/
theorem Gives.joined (first : left.Gives answer region truth)
    (second : right.Gives answer region truth') (connective : Connective) :
    (joined connective left right).Gives answer region fun node =>
      connective.apply (truth node) (truth' node) := by
  intro node inside
  obtain ⟨value, given, same⟩ := first node inside
  obtain ⟨value', given', same'⟩ := second node inside
  refine ⟨.bool (connective.apply value.truthy value'.truthy), ?_, ?_⟩
  · cases connective with
    | and =>
        rw [Predicate.joined, verdict, given, given']
        change (if value.truthy = true then _ else _) = _
        cases value.truthy <;> rfl
    | or =>
        rw [Predicate.joined, verdict, given, given']
        change (if value.truthy = true then _ else _) = _
        cases value.truthy <;> rfl
  · rw [Value.truthy, same, same']

/-- Asking whether a test along an axis accepts a node ends with the truth of the test. -/
theorem Gives.accepts_ends {setting : Setting Node Leaf Failure}
    (gives : test.Gives setting.answer region truth) (axis? : Option Axis) {node : Node}
    (inside : node ∈ region) :
    ((along axis? test).accepts setting node).Ends (.ok (truth node)) := by
  obtain ⟨value, given, same⟩ := gives node inside
  have tested : (test.test setting node).Ends (.ok value) := given ▸ test.test_ends node
  have ends : (Value.truthy <$> test.test setting node).Ends (.ok (truth node)) :=
    same ▸ tested.map Value.truthy
  cases axis? with
  | none => exact ends
  | some axis => exact ends

end Gives

end Predicate

/-- An expression that makes a predicate by operators: from tests, some of them along an axis, and
from functions, which stand on the right of a connective only. -/
inductive Combination (Leaf : Type) where
  | test (axis? : Option Axis) (inner : Predicate Leaf)
  | negation (operand : Combination Leaf)
  | joint (connective : Connective) (left right : Combination Leaf)
  | jointWith (connective : Connective) (left : Combination Leaf) (function : Leaf)

namespace Combination

/-- Applies the operators from the inside to the outside and from left to right. -/
def build (rules : ForeignRules Leaf) :
    Combination Leaf → Except (OperatorError Leaf) (Predicate Leaf)
  | test axis? inner => .ok (inner.along axis?)
  | negation operand => do (← operand.build rules).not? rules
  | joint connective left right => do
      let first ← left.build rules
      let second ← right.build rules
      first.join rules connective second
  | jointWith connective left function => do
      (← left.build rules).join rules connective (.foreign function)

/-- The axes of the traversals in an expression, from left to right. -/
def axes : Combination Leaf → List Axis
  | test axis? _ => axis?.toList
  | negation operand => operand.axes
  | joint _ left right => left.axes ++ right.axes
  | jointWith _ left _ => left.axes

/-- There are two traversals along different axes. -/
def Mixed (expression : Combination Leaf) : Prop :=
  ∃ axis ∈ expression.axes, ∃ axis' ∈ expression.axes, axis ≠ axis'

/-- The truth value of an expression at a node, from those of its tests and functions. -/
def truth (rules : ForeignRules Leaf) (answer : Leaf → Node → Except (Fault Failure) Value)
    (node : Node) : Combination Leaf → Bool
  | test _ inner => inner.holds answer node
  | negation operand => !operand.truth rules answer node
  | joint connective left right =>
      connective.apply (left.truth rules answer node) (right.truth rules answer node)
  | jointWith connective left function =>
      connective.apply (left.truth rules answer node)
        (match Predicate.foreignTest rules function with
          | .ok inner => inner.holds answer node
          | .error _ => false)

/-- Tests are plain, functions are good for tests, and all have answers about the nodes of a
region. -/
def Usable (rules : ForeignRules Leaf) (answer : Leaf → Node → Except (Fault Failure) Value)
    (region : Set Node) : Combination Leaf → Prop
  | test _ inner => inner.Plain ∧ inner.Answers answer region
  | negation operand => operand.Usable rules answer region
  | joint _ left right => left.Usable rules answer region ∧ right.Usable rules answer region
  | jointWith _ left function => left.Usable rules answer region ∧
      ∃ inner, Predicate.foreignTest rules function = .ok inner ∧ inner.Answers answer region

section Axes

variable {expression left right : Combination Leaf} {connective : Connective}

/-- Without different axes all axes are the first one. -/
theorem head?_axes_of_mem (same : ¬ expression.Mixed) {axis : Axis}
    (member : axis ∈ expression.axes) : expression.axes.head? = some axis := by
  obtain ⟨first, rest, axesAre⟩ := List.exists_cons_of_ne_nil (List.ne_nil_of_mem member)
  have firstIn : first ∈ expression.axes := axesAre ▸ List.mem_cons_self
  by_cases equal : first = axis
  · rw [axesAre, equal, List.head?_cons]
  · exact absurd ⟨first, firstIn, axis, member, equal⟩ same

/-- Axes that mix in the left operand mix in the whole. -/
theorem mixed_joint_of_left (mixed : left.Mixed) : (joint connective left right).Mixed := by
  obtain ⟨axis, member, axis', member', different⟩ := mixed
  exact ⟨axis, List.mem_append_left _ member, axis', List.mem_append_left _ member', different⟩

/-- Axes that mix in the right operand mix in the whole. -/
theorem mixed_joint_of_right (mixed : right.Mixed) : (joint connective left right).Mixed := by
  obtain ⟨axis, member, axis', member', different⟩ := mixed
  exact ⟨axis, List.mem_append_right _ member, axis', List.mem_append_right _ member', different⟩

/-- Operands that have one axis each at most are mixed if their axes are different. -/
theorem mixed_joint_iff (first : ¬ left.Mixed) (second : ¬ right.Mixed) :
    (joint connective left right).Mixed ↔ ∃ axis axis', left.axes.head? = some axis ∧
      right.axes.head? = some axis' ∧ axis ≠ axis' := by
  constructor
  · rintro ⟨axis, member, axis', member', different⟩
    rcases List.mem_append.mp member with here | here <;>
      rcases List.mem_append.mp member' with there | there
    · exact absurd ⟨axis, here, axis', there, different⟩ first
    · exact ⟨axis, axis', head?_axes_of_mem first here, head?_axes_of_mem second there, different⟩
    · exact ⟨axis', axis, head?_axes_of_mem first there, head?_axes_of_mem second here,
        different.symm⟩
    · exact absurd ⟨axis, here, axis', there, different⟩ second
  · rintro ⟨axis, axis', here, there, different⟩
    exact ⟨axis, List.mem_append_left _ (List.mem_of_head? here), axis',
      List.mem_append_right _ (List.mem_of_head? there), different⟩

end Axes

variable {rules : ForeignRules Leaf} {answer : Leaf → Node → Except (Fault Failure) Value}
  {region : Set Node}

/-- What building an expression ends with: a mismatch of axes if there are different ones, and else
a plain test along the axis there is, with the truth value of the expression. -/
inductive Builds (rules : ForeignRules Leaf)
    (answer : Leaf → Node → Except (Fault Failure) Value) (region : Set Node)
    (expression : Combination Leaf) : Prop where
  | mismatch (text text' : String) (mixed : expression.Mixed)
      (failed : expression.build rules = .error (.axisMismatch text text'))
  | made (test : Predicate Leaf) (same : ¬ expression.Mixed)
      (done : expression.build rules = .ok (test.along expression.axes.head?))
      (plain : test.Plain)
      (gives : test.Gives answer region fun node => expression.truth rules answer node)

/-- The negation of what can be built can be built. -/
theorem Builds.negation {operand : Combination Leaf} (builds : operand.Builds rules answer region) :
    (negation operand).Builds rules answer region := by
  cases builds with
  | mismatch text text' mixed failed =>
      exact .mismatch text text' mixed (by rw [build, failed]; rfl)
  | made test same done plain gives =>
      refine .made _ same ?_ plain.negation gives.negation
      rw [build, done]
      exact plain.not?_along _

/-- Two operands build the predicate of their connective, unless their axes mix. -/
theorem Builds.joint {left right : Combination Leaf} (first : left.Builds rules answer region)
    (second : right.Builds rules answer region) (connective : Connective) :
    (joint connective left right).Builds rules answer region := by
  cases first with
  | mismatch text text' mixed failed =>
      exact .mismatch text text' (mixed_joint_of_left mixed) (by rw [build, failed]; rfl)
  | made test same done plain gives =>
  cases second with
  | mismatch text text' mixed failed =>
      exact .mismatch text text' (mixed_joint_of_right mixed) (by rw [build, done, failed]; rfl)
  | made test' same' done' plain' gives' =>
  have build_eq : (Combination.joint connective left right).build rules =
      (test.along left.axes.head?).join rules connective (test'.along right.axes.head?) := by
    rw [build, done, done']
    rfl
  by_cases mixed : (Combination.joint connective left right).Mixed
  · obtain ⟨axis, axis', here, there, different⟩ := (mixed_joint_iff same same').mp mixed
    obtain ⟨text, text', failed⟩ :=
      Predicate.join_mismatch rules connective plain plain' different
    refine .mismatch text text' mixed ?_
    rw [build_eq, here, there]
    exact failed
  · have agree : ∀ axis ∈ left.axes.head?, ∀ axis' ∈ right.axes.head?, axis = axis' := by
      intro axis here axis' there
      by_cases equal : axis = axis'
      · exact equal
      · exact absurd ((mixed_joint_iff same same').mpr ⟨axis, axis', here, there, equal⟩) mixed
    obtain ⟨joined, done, order⟩ := Predicate.join_along rules connective plain plain' agree
    refine .made joined mixed ?_ ?_ ?_
    · rw [build_eq, done, axes, List.head?_append]
    · rcases order with rfl | rfl
      · exact plain.joined plain' connective
      · exact plain'.joined plain connective
    · rcases order with rfl | rfl
      · exact gives.joined gives' connective
      · simp only [truth, connective.apply_comm (left.truth rules answer _)]
        exact gives'.joined gives connective

/-- A function of the host joins whatever axis the left operand lies along. -/
theorem Builds.jointWith {left : Combination Leaf} {function : Leaf} {test : Predicate Leaf}
    (first : left.Builds rules answer region)
    (made : Predicate.foreignTest rules function = .ok test) (answers : test.Answers answer region)
    (connective : Connective) :
    (jointWith connective left function).Builds rules answer region := by
  cases first with
  | mismatch text text' mixed failed =>
      exact .mismatch text text' mixed (by rw [build, failed]; rfl)
  | made inner same done plain gives =>
      obtain ⟨plain', joins⟩ :=
        Predicate.along_join_function connective left.axes.head? plain made
      refine .made _ same ?_ (plain.joined plain' connective) ?_
      · rw [build, done]
        exact joins
      · simp only [truth, made]
        exact gives.joined answers.gives connective

/-- By induction on the expression, every usable one builds what it denotes or fails. -/
theorem Usable.builds {expression : Combination Leaf}
    (usable : expression.Usable rules answer region) : expression.Builds rules answer region := by
  induction expression with
  | test axis? inner =>
      obtain ⟨plain, answers⟩ := usable
      refine .made inner ?_ ?_ plain answers.gives
      · rintro ⟨axis, member, axis', member', different⟩
        cases axis? with
        | none => exact nomatch member
        | some axis =>
            obtain rfl := List.mem_singleton.mp member
            exact different (List.mem_singleton.mp member').symm
      · cases axis? <;> rfl
  | negation operand ih => exact (ih usable).negation
  | joint connective left right leftIH rightIH =>
      exact (leftIH usable.1).joint (rightIH usable.2) connective
  | jointWith connective left function ih =>
      obtain ⟨usable, test, made, answers⟩ := usable
      exact (ih usable).jointWith made answers connective

/-- **Operators make Boolean algebra along one axis.** An expression over plain tests, functions and
tests along axes cannot be made into a predicate exactly if two axes meet in it, and then it fails
for the mismatch. Otherwise it gives a predicate that stays where it is if there is no axis, and
that moves and moves on as its axis does if there is one, and that accepts a node of the region
exactly if the expression is true of it. -/
theorem build_denotes {setting : Setting Node Leaf Failure} [Keyed Node]
    (expression : Combination Leaf) (usable : expression.Usable rules setting.answer region) :
    ((∃ text text', expression.build rules = .error (.axisMismatch text text')) ↔
      expression.Mixed) ∧
    (¬ expression.Mixed → ∃ predicate, expression.build rules = .ok predicate ∧
      (expression.axes = [] → predicate.axis? = none ∧ ∀ frontier,
        predicate.step setting frontier = frontier.filterRun (predicate.accepts setting)) ∧
      (∀ axis ∈ expression.axes, predicate.axis? = some axis ∧
        predicate.className = axis.className ∧ ∀ frontier,
        predicate.step setting frontier = frontier.deepen (axis.relocate setting) axis.deepens
          (predicate.accepts setting) setting.patience) ∧
      ∀ node ∈ region, (predicate.accepts setting node).Ends
        (.ok (expression.truth rules setting.answer node))) := by
  cases usable.builds with
  | mismatch text text' mixed failed =>
      exact ⟨⟨fun _ => mixed, fun _ => ⟨text, text', failed⟩⟩, fun same => absurd mixed same⟩
  | made test same done plain gives =>
      refine ⟨⟨?_, fun mixed => absurd mixed same⟩, fun _ => ⟨_, done, ?_, ?_, ?_⟩⟩
      · rintro ⟨text, text', failed⟩
        exact nomatch done.symm.trans failed
      · intro none
        rw [none]
        exact ⟨plain.axis, plain.step_eq setting⟩
      · intro axis member
        rw [head?_axes_of_mem same member]
        exact ⟨rfl, rfl, fun _ => rfl⟩
      · exact fun node inside => gives.accepts_ends _ inside

end Combination

end Operators

namespace Session

/-- What predicates are asked in while nothing has happened yet. -/
def blank : Setting Value LeafTest Failure :=
  setting {} .standard (.unusable .null)

/-- Neither a node of some class nor, found by a function of the host, one without children. The
second test stands for a search among descendants. -/
def neither : Combination LeafTest :=
  .negation (.joint .or (.test none (.classIs ["MemoryNode"]))
    (.jointWith .and (.test (some .descendants) .any)
      (.foreign (.function 0 .leaf))))

/-- The same, and among children at the same time. -/
def crossing : Combination LeafTest :=
  .joint .and neither (.test (some .children) .any)

theorem crossing_usable : crossing.Usable LeafTest.foreignRules blank.answer Set.univ := by
  refine ⟨⟨⟨⟨rfl, _, rfl⟩, fun node _ => ⟨_, rfl⟩⟩, ⟨⟨rfl, _, rfl⟩, fun node _ => ⟨_, rfl⟩⟩, ?_⟩,
    ⟨rfl, _, rfl⟩, fun node _ => ⟨_, rfl⟩⟩
  exact ⟨_, rfl, fun node _ => ⟨_, rfl⟩⟩

/-- Axes cross in the second expression only. The first one becomes a search among descendants for
what neither test accepts. -/
theorem crossing_and_neither_denote :
    (∃ text text', crossing.build LeafTest.foreignRules = .error (.axisMismatch text text')) ∧
    (∃ predicate, neither.build LeafTest.foreignRules = .ok predicate ∧
      predicate.axis? = some .descendants ∧ predicate.className = "DescendantsTraversal" ∧
      ∀ node ∈ Set.univ, (predicate.accepts blank node).Ends
        (.ok (neither.truth LeafTest.foreignRules blank.answer node))) := by
  constructor
  · apply (Combination.build_denotes crossing crossing_usable).1.mpr
    exact ⟨.descendants, .head _, .children, .tail _ (.head _), nofun⟩
  · obtain ⟨predicate, built, -, along, decides⟩ :=
      (Combination.build_denotes neither crossing_usable.1).2 (by
        rintro ⟨axis, member, axis', member', different⟩
        obtain rfl := List.mem_singleton.mp member
        exact different (List.mem_singleton.mp member').symm)
    obtain ⟨axisIs, classIs, -⟩ := along .descendants (.head _)
    exact ⟨predicate, built, axisIs, classIs, decides⟩

end Session

end TreeQuery
