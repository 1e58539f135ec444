import TreeQuery.Proofs.Predicate.Combination

/-! # The order in which combined predicates are asked

A connective asks its left operand first, and its right operand only if the left one leaves the
answer open, so that the left operand guards the right one. The operators on predicates keep to that
as long as the right operand lies along no more axes than the left one. If it lies along more, as a
traversal does to the right of a predicate that is none, it takes the left operand in behind its own
test and is asked first. Hence an expression is asked just as it stands after these exchanges of
operands (`TreeQuery.Combination.build_asks`), and as it was written if there are none.
-/

namespace TreeQuery

variable {Node Leaf Failure : Type}

namespace Connective

/-- An answer of the left operand that leaves nothing to ask. -/
def settles : Connective → Bool → Bool
  | and => (!·)
  | or => id

/-- Asks the left operand and then, unless its answer settles the matter, the right one. -/
def ask (connective : Connective) (left right : Run Node Leaf Failure Bool) :
    Run Node Leaf Failure Bool := do
  let first ← left
  if connective.settles first then pure first else right

/-- **The left operand guards the right one.** Where the left operand settles the matter, nothing
happens but what it does. -/
theorem perform_ask_of_settles (connective : Connective) {left : Run Node Leaf Failure Bool}
    (right : Run Node Leaf Failure Bool) {before after : Journal Node Leaf} {first : Bool}
    (given : left.perform before = (.ok first, after)) (settled : connective.settles first = true) :
    (connective.ask left right).perform before = left.perform before := by
  rw [ask, Run.perform_bind, given]
  dsimp only
  rw [if_pos settled, Run.perform_pure]

end Connective

namespace Predicate

section Routes

/-- The axes of a traversal, of the traversal that is its test, and so on. -/
def route : Predicate Leaf → List Axis
  | traversal axis inner => axis :: inner.route
  | _ => []

/-- The innermost test of a traversal. Any other predicate is its own. -/
def core : Predicate Leaf → Predicate Leaf
  | traversal _ inner => inner.core
  | test => test

/-- A test within traversals along some axes. -/
def within (route : List Axis) (test : Predicate Leaf) : Predicate Leaf :=
  route.foldr traversal test

variable {test left right inner : Predicate Leaf} {connective : Connective}
  {rules : ForeignRules Leaf} {setting : Setting Node Leaf Failure} {node : Node}

theorem within_core (predicate : Predicate Leaf) :
    within predicate.route predicate.core = predicate := by
  induction predicate with
  | traversal axis inner ih => exact congrArg (traversal axis) ih
  | _ => rfl

theorem core_axis? (predicate : Predicate Leaf) : predicate.core.axis? = none := by
  induction predicate with
  | traversal axis inner ih => exact ih
  | _ => rfl

theorem Plain.route_within (plain : test.Plain) (route : List Axis) :
    (within route test).route = route := by
  induction route with
  | nil =>
      cases test with
      | traversal axis inner => exact nomatch plain.axis
      | _ => rfl
  | cons axis rest ih => exact congrArg (axis :: ·) ih

theorem accepts_within (route : List Axis) :
    (within route test).accepts setting node = test.accepts setting node := by
  induction route with
  | nil => rfl
  | cons axis rest ih => exact ih

theorem Plain.label_within (plain : test.Plain) (route : List Axis) :
    ∃ text, (within route test).label = .ok text := by
  induction route with
  | nil => exact plain.label
  | cons axis rest ih =>
      obtain ⟨text, labelIs⟩ := ih
      refine ⟨axis.name ++ ":" ++ text, ?_⟩
      change (traversal axis (within rest test)).label = _
      rw [Predicate.label, labelIs]
      rfl

/-- The innermost test of a predicate with a label has a label too. -/
theorem core_plain (predicate : Predicate Leaf) (labelled : ∃ text, predicate.label = .ok text) :
    predicate.core.Plain := by
  refine ⟨predicate.core_axis?, ?_⟩
  induction predicate with
  | traversal axis inner ih =>
      apply ih
      obtain ⟨text, labelIs⟩ := labelled
      rw [label] at labelIs
      cases found : inner.label with
      | ok text => exact ⟨text, rfl⟩
      | error object => rw [found] at labelIs; cases labelIs
  | _ => exact labelled

end Routes

section Joining

variable {test left right inner : Predicate Leaf} {connective : Connective}
  {rules : ForeignRules Leaf} {setting : Setting Node Leaf Failure} {node : Node}

/-- A negation asks what it negates. -/
theorem accepts_negation :
    (negation inner).accepts setting node = (!·) <$> inner.accepts setting node := by
  rw [accepts, accepts, Predicate.test]
  simp only [map_eq_pure_bind, bind_assoc, pure_bind]
  rfl

/-- The operands of a connective are asked from left to right, the right one only if need be. -/
theorem accepts_joined (connective : Connective) :
    (joined connective left right).accepts setting node =
      connective.ask (left.accepts setting node) (right.accepts setting node) := by
  cases connective with
  | and =>
      rw [joined, accepts, accepts, accepts, Predicate.test, Connective.ask]
      simp only [map_eq_pure_bind, bind_assoc, pure_bind]
      congr 1
      funext first
      cases first.truthy <;> simp [Connective.settles, Value.truthy]
  | or =>
      rw [joined, accepts, accepts, accepts, Predicate.test, Connective.ask]
      simp only [map_eq_pure_bind, bind_assoc, pure_bind]
      congr 1
      funext first
      cases first.truthy <;> simp [Connective.settles, Value.truthy]

theorem not?_within (plain : test.Plain) (route : List Axis) :
    (within route test).not? rules = .ok (within route (negation test)) := by
  induction route with
  | nil => exact plain.not?_along none
  | cons axis rest ih =>
      have inside := congrArg (traversal axis <$> ·) ih
      exact inside

theorem joinInner_within (first : left.Plain) (second : right.Plain) (connective : Connective)
    (route : List Axis) :
    (within route left).joinInner connective right =
      .ok (within route (joined connective left right)) := by
  induction route with
  | nil => exact first.joinInner_eq second connective
  | cons axis rest ih =>
      have inside := congrArg (traversal axis <$> ·) ih
      exact inside

/-- A traversal takes in a test that stands on its right behind its own one. -/
theorem traversal_join_plain (axis : Axis) (plain : right.Plain) :
    (traversal axis inner).join rules connective right =
      traversal axis <$> inner.joinInner connective right := by
  cases right with
  | traversal axis inner => exact nomatch plain.axis
  | foreign object => exact nomatch plain.label.choose_spec
  | _ => rfl

/-- A traversal takes in a test that stands on its left behind its own one, too. -/
theorem plain_join_traversal (axis : Axis) (plain : left.Plain) :
    left.join rules connective (traversal axis inner) =
      traversal axis <$> inner.joinInner connective left := by
  cases left with
  | traversal axis inner => exact nomatch plain.axis
  | foreign object => exact nomatch plain.label.choose_spec
  | _ => rfl

/-- Operands are joined from left to right along the axes of the left one if it goes along those of
the right one at least. -/
theorem join_within_of_leading (first : left.Plain) (second : right.Plain)
    {route further : List Axis} (along : further <+: route) :
    (within route left).join rules connective (within further right) =
      .ok (within route (joined connective left right)) := by
  induction further generalizing route with
  | nil =>
      cases route with
      | nil => exact join_plain first second
      | cons axis rest =>
          have inside := congrArg (traversal axis <$> ·)
            (joinInner_within first second connective rest)
          exact (traversal_join_plain axis second).trans inside
  | cons axis rest ih =>
      obtain ⟨beyond, rfl⟩ := along
      have inside := congrArg (traversal axis <$> ·) (ih (List.prefix_append rest beyond))
      rw [List.cons_append, within, within, List.foldr_cons, List.foldr_cons, join, if_pos rfl]
      exact inside

/-- If the right operand goes further than the left one, they are joined from right to left. -/
theorem join_within_of_further (first : left.Plain) (second : right.Plain)
    {route further : List Axis} (along : route <+: further)
    (longer : route.length < further.length) :
    (within route left).join rules connective (within further right) =
      .ok (within further (joined connective right left)) := by
  induction route generalizing further with
  | nil =>
      obtain ⟨axis, rest, rfl⟩ := List.exists_cons_of_length_pos longer
      have inside := congrArg (traversal axis <$> ·)
        (joinInner_within second first connective rest)
      exact (plain_join_traversal axis first).trans inside
  | cons axis rest ih =>
      obtain ⟨beyond, rfl⟩ := along
      have inside := congrArg (traversal axis <$> ·)
        (ih (List.prefix_append rest beyond) (Nat.lt_of_succ_lt_succ longer))
      rw [List.cons_append, within, within, List.foldr_cons, List.foldr_cons, join, if_pos rfl]
      exact inside

/-- Operands whose axes part cannot be joined. -/
theorem join_within_of_apart (rules : ForeignRules Leaf) (connective : Connective)
    (first : left.Plain) (second : right.Plain) {route further : List Axis}
    (apart : ¬ further <+: route) (apart' : ¬ route <+: further) :
    ∃ text text', (within route left).join rules connective (within further right) =
      .error (.axisMismatch text text') := by
  induction route generalizing further with
  | nil => exact absurd ⟨further, List.nil_append further⟩ apart'
  | cons axis rest ih =>
      cases further with
      | nil => exact absurd ⟨axis :: rest, List.nil_append _⟩ apart
      | cons axis' rest' =>
          obtain ⟨text, labelIs⟩ := first.label_within (axis :: rest)
          obtain ⟨text', labelIs'⟩ := second.label_within (axis' :: rest')
          rw [within, List.foldr_cons] at labelIs labelIs'
          rw [within, within, List.foldr_cons, List.foldr_cons, join]
          by_cases same : axis = axis'
          · subst same
            rw [List.prefix_cons_inj] at apart apart'
            obtain ⟨text, text', failed⟩ := ih apart apart'
            refine ⟨text, text', ?_⟩
            rw [if_pos rfl]
            exact congrArg (traversal axis <$> ·) failed
          · exact ⟨text, text', by rw [if_neg same, mismatch, labelIs, labelIs']⟩

/-- A function is taken in on the right as the test that is made of it. -/
theorem join_within_function {function : Leaf} (connective : Connective) (route : List Axis)
    (first : left.Plain) (made : foreignTest rules function = .ok test) :
    test.Plain ∧ (within route left).join rules connective (foreign function) =
      .ok (within route (joined connective left test)) := by
  obtain ⟨plain, joins⟩ := along_join_function connective none first made
  refine ⟨plain, ?_⟩
  cases route with
  | nil => exact joins
  | cons axis rest =>
      have inside := congrArg (traversal axis <$> ·) (joinInner_within first plain connective rest)
      rw [within, List.foldr_cons, join, made]
      exact inside

end Joining

end Predicate

namespace Combination

/-- The predicates that an expression is made of have labels, and the functions in it are good for
tests. -/
def Labelled (rules : ForeignRules Leaf) : Combination Leaf → Prop
  | test _ inner => ∃ text, inner.label = .ok text
  | negation operand => operand.Labelled rules
  | joint _ left right => left.Labelled rules ∧ right.Labelled rules
  | jointWith _ left function => left.Labelled rules ∧
      ∃ inner, Predicate.foreignTest rules function = .ok inner

/-- The axes along which the predicate of an expression lies: those of the operand that has more of
them. There are none to be had where those of the other operand are not the first of these. -/
def route? : Combination Leaf → Option (List Axis)
  | test axis? inner => some (axis?.toList ++ inner.route)
  | negation operand => operand.route?
  | joint _ left right => do
      let first ← left.route?
      let second ← right.route?
      if second <+: first then some first else if first <+: second then some second else none
  | jointWith _ left _ => left.route?

/-- The number of axes along which an expression lies. -/
def depth : Combination Leaf → Nat
  | test axis? inner => (axis?.toList ++ inner.route).length
  | negation operand => operand.depth
  | joint _ left right => max left.depth right.depth
  | jointWith _ left _ => left.depth

/-- The expression in which a right operand has changed places with the left one wherever it lies
along more axes. -/
def arranged : Combination Leaf → Combination Leaf
  | test axis? inner => test axis? inner
  | negation operand => negation operand.arranged
  | joint connective left right =>
      if left.depth < right.depth then joint connective right.arranged left.arranged
      else joint connective left.arranged right.arranged
  | jointWith connective left function => jointWith connective left.arranged function

/-- No right operand lies along more axes than the left one. -/
def InOrder : Combination Leaf → Prop
  | test _ _ => True
  | negation operand => operand.InOrder
  | joint _ left right => right.depth ≤ left.depth ∧ left.InOrder ∧ right.InOrder
  | jointWith _ left _ => left.InOrder

/-- Asks the tests of an expression about a node from left to right, as it is written, a right
operand only where the left one leaves the answer open. -/
def asks (rules : ForeignRules Leaf) (setting : Setting Node Leaf Failure) (node : Node) :
    Combination Leaf → Run Node Leaf Failure Bool
  | test _ inner => inner.accepts setting node
  | negation operand => (!·) <$> operand.asks rules setting node
  | joint connective left right =>
      connective.ask (left.asks rules setting node) (right.asks rules setting node)
  | jointWith connective left function =>
      connective.ask (left.asks rules setting node)
        (match Predicate.foreignTest rules function with
          | .ok inner => inner.accepts setting node
          | .error _ => pure false)

theorem depth_arranged (expression : Combination Leaf) :
    expression.arranged.depth = expression.depth := by
  induction expression with
  | test axis? inner => rfl
  | negation operand ih => exact ih
  | joint connective left right leftIH rightIH =>
      rw [arranged]
      split
      · rw [depth, depth, leftIH, rightIH, Nat.max_comm]
      · rw [depth, depth, leftIH, rightIH]
  | jointWith connective left function ih => exact ih

/-- Operands change places exactly if some right operand lies along more axes than the left one. -/
theorem arranged_eq_iff (expression : Combination Leaf) :
    expression.arranged = expression ↔ expression.InOrder := by
  induction expression with
  | test axis? inner => exact iff_of_true rfl trivial
  | negation operand ih => rw [arranged, negation.injEq, InOrder, ih]
  | joint connective left right leftIH rightIH =>
      rw [arranged, InOrder]
      split
      · next further =>
        refine iff_of_false (fun same => ?_) fun ordered => Nat.not_le_of_lt further ordered.1
        have places := congrArg depth (joint.inj same).2.1
        rw [depth_arranged] at places
        exact Nat.ne_of_gt further places
      · next near => rw [joint.injEq, eq_self, true_and, leftIH, rightIH,
          and_iff_right (Nat.le_of_not_lt near)]
  | jointWith connective left function ih => rw [arranged, jointWith.injEq, InOrder, ih]; simp

variable {rules : ForeignRules Leaf} {setting : Setting Node Leaf Failure}

/-- What building an expression ends with: a mismatch where axes part, and else a plain test along
the axes of the expression, which is asked like the arranged expression. -/
inductive Makes (rules : ForeignRules Leaf) (setting : Setting Node Leaf Failure)
    (expression : Combination Leaf) : Prop where
  | mismatch (text text' : String) (apart : expression.route? = none)
      (failed : expression.build rules = .error (.axisMismatch text text'))
  | made (route : List Axis) (test : Predicate Leaf) (along : expression.route? = some route)
      (deep : expression.depth = route.length) (plain : test.Plain)
      (done : expression.build rules = .ok (.within route test))
      (same : ∀ node, test.accepts setting node = expression.arranged.asks rules setting node)

theorem makes_test {inner : Predicate Leaf} (labelled : ∃ text, inner.label = .ok text)
    (axis? : Option Axis) : (test axis? inner).Makes rules setting := by
  refine .made _ inner.core rfl rfl (inner.core_plain labelled) ?_ fun node => ?_
  · have whole := inner.within_core
    cases axis? with
    | none => exact congrArg Except.ok whole.symm
    | some axis => exact congrArg (Except.ok ∘ Predicate.traversal axis) whole.symm
  · rw [arranged, asks, ← Predicate.accepts_within inner.route, inner.within_core]

theorem Makes.negation {operand : Combination Leaf} (makes : operand.Makes rules setting) :
    (negation operand).Makes rules setting := by
  cases makes with
  | mismatch text text' apart failed =>
      exact .mismatch text text' apart (by rw [build, failed]; rfl)
  | made route test along deep plain done same =>
      refine .made route _ along deep plain.negation ?_ fun node => ?_
      · rw [build, done]
        exact Predicate.not?_within plain route
      · rw [Predicate.accepts_negation, same]
        rfl

theorem Makes.joint {left right : Combination Leaf} (first : left.Makes rules setting)
    (second : right.Makes rules setting) (connective : Connective) :
    (joint connective left right).Makes rules setting := by
  cases first with
  | mismatch text text' apart failed =>
      exact .mismatch text text' (by rw [route?, apart]; rfl) (by rw [build, failed]; rfl)
  | made route test along deep plain done same =>
  cases second with
  | mismatch text text' apart failed =>
      exact .mismatch text text' (by rw [route?, along, apart]; rfl)
        (by rw [build, done, failed]; rfl)
  | made route' test' along' deep' plain' done' same' =>
  have build_eq : (Combination.joint connective left right).build rules =
      (Predicate.within route test).join rules connective (.within route' test') := by
    rw [build, done, done']
    rfl
  have route?_eq : (Combination.joint connective left right).route? =
      if route' <+: route then some route else if route <+: route' then some route' else none := by
    rw [route?, along, along']
    rfl
  by_cases near : route' <+: route
  · -- The axes of the right operand are the first ones of the left operand.
    have least : ¬ left.depth < right.depth := by
      rw [deep, deep']
      exact Nat.not_lt_of_le near.length_le
    refine .made route _ (route?_eq.trans (if_pos near)) ?_ (plain.joined plain' connective)
      (build_eq.trans (Predicate.join_within_of_leading plain plain' near)) fun node => ?_
    · rw [depth, Nat.max_eq_left (Nat.le_of_not_lt least), deep]
    · rw [Predicate.accepts_joined, same, same', arranged, if_neg least, asks]
  by_cases far : route <+: route'
  · -- The right operand goes on along further axes, and so it comes first.
    have longer : route.length < route'.length :=
      Nat.lt_of_not_le fun shorter => near (far.eq_of_length_le shorter ▸ List.prefix_rfl)
    have more : left.depth < right.depth := by rwa [deep, deep']
    refine .made route' _ (route?_eq.trans ((if_neg near).trans (if_pos far))) ?_
      (plain'.joined plain connective)
      (build_eq.trans (Predicate.join_within_of_further plain plain' far longer)) fun node => ?_
    · rw [depth, Nat.max_eq_right (Nat.le_of_lt more), deep']
    · rw [Predicate.accepts_joined, same, same', arranged, if_pos more, asks]
  · obtain ⟨text, text', failed⟩ :=
      Predicate.join_within_of_apart rules connective plain plain' near far
    exact .mismatch text text' (route?_eq.trans ((if_neg near).trans (if_neg far)))
      (build_eq.trans failed)

theorem Makes.jointWith {left : Combination Leaf} {function : Leaf} {inner : Predicate Leaf}
    (first : left.Makes rules setting)
    (good : Predicate.foreignTest rules function = .ok inner) (connective : Connective) :
    (jointWith connective left function).Makes rules setting := by
  cases first with
  | mismatch text text' apart failed =>
      exact .mismatch text text' apart (by rw [build, failed]; rfl)
  | made route test along deep plain done same =>
      obtain ⟨plain', joins⟩ := Predicate.join_within_function connective route plain good
      refine .made route _ along deep (plain.joined plain' connective) ?_ fun node => ?_
      · rw [build, done]
        exact joins
      · rw [Predicate.accepts_joined, same, arranged, asks, good]

theorem Labelled.makes {expression : Combination Leaf} (labelled : expression.Labelled rules)
    (setting : Setting Node Leaf Failure) : expression.Makes rules setting := by
  induction expression with
  | test axis? inner => exact makes_test labelled axis?
  | negation operand ih => exact (ih labelled).negation
  | joint connective left right leftIH rightIH =>
      exact (leftIH labelled.1).joint (rightIH labelled.2) connective
  | jointWith connective left function ih =>
      obtain ⟨labelled, inner, good⟩ := labelled
      exact (ih labelled).jointWith good connective

/-- **Combined predicates are asked from left to right up to exchanges.** An expression over
predicates and traversals of any sort cannot be made into a predicate exactly if the axes of two
operands part. Otherwise the predicate lies along the axes of the expression, and asking it is
asking the tests of the arranged expression from left to right, a right operand only where the left
one leaves the answer open: the same calls in the same order, the same answers and the same faults.
The arranged expression is the expression itself exactly if no right operand in it lies along more
axes than the left one. -/
theorem build_asks (setting : Setting Node Leaf Failure) (expression : Combination Leaf)
    (labelled : expression.Labelled rules) :
    ((∃ text text', expression.build rules = .error (.axisMismatch text text')) ↔
      expression.route? = none) ∧
    (∀ route, expression.route? = some route → ∃ predicate,
      expression.build rules = .ok predicate ∧ predicate.route = route ∧
        ∀ node, predicate.accepts setting node = expression.arranged.asks rules setting node) ∧
    (expression.arranged = expression ↔ expression.InOrder) := by
  refine ⟨?_, fun route along => ?_, expression.arranged_eq_iff⟩
  · cases labelled.makes setting with
    | mismatch text text' apart failed => exact iff_of_true ⟨text, text', failed⟩ apart
    | made route test along deep plain done same =>
        refine iff_of_false ?_ (by rw [along]; nofun)
        rintro ⟨text, text', failed⟩
        cases done.symm.trans failed
  · cases labelled.makes setting with
    | mismatch text text' apart failed => cases apart.symm.trans along
    | made route' test along' deep plain done same =>
        cases along.symm.trans along'
        refine ⟨_, done, plain.route_within route, fun node => ?_⟩
        rw [Predicate.accepts_within, same]

/-- In an expression that is in order the left operand of a connective guards the right one: where
its answer settles the matter, asking the predicate is asking the left operand. -/
theorem build_guards {connective : Connective} {left right : Combination Leaf}
    (labelled : (joint connective left right).Labelled rules)
    (ordered : (joint connective left right).InOrder) {predicate : Predicate Leaf}
    (built : (joint connective left right).build rules = .ok predicate) {node : Node}
    {before after : Journal Node Leaf} {first : Bool}
    (given : (left.asks rules setting node).perform before = (.ok first, after))
    (settled : connective.settles first = true) :
    (predicate.accepts setting node).perform before = (.ok first, after) := by
  cases labelled.makes setting with
  | mismatch text text' apart failed => cases built.symm.trans failed
  | made route test along deep plain done same =>
      cases built.symm.trans done
      rw [Predicate.accepts_within, same, (arranged_eq_iff _).mpr ordered, asks,
        connective.perform_ask_of_settles _ given settled, given]

end Combination

namespace Session

/-- A test by a function of the host that returns the same of every node. -/
def constantly (answer : Bool) : Predicate LeafTest :=
  .ofFunction (.constant (.bool answer)) none

/-- A test by a function of the host that fails on every node. -/
def failing : Predicate LeafTest :=
  .ofFunction (.raise .badValue "asked" none) none

/-- Two tests that accept nothing, one of them along children, to the left of one that fails. -/
def guarding : Combination LeafTest :=
  .joint .and
    (.joint .or (.test (some .children) (constantly false)) (.test none (constantly false)))
    (.test (some .children) failing)

/-- The failing test is not asked, since it stands last. -/
theorem guarding_asks :
    guarding.Labelled LeafTest.foreignRules ∧ guarding.InOrder ∧
    ∃ predicate, guarding.build LeafTest.foreignRules = .ok predicate ∧
      predicate.route = [.children] ∧
      (∀ node, predicate.accepts blank node =
        guarding.asks LeafTest.foreignRules blank node) ∧
      ((predicate.accepts blank .null).perform {}).1 = .ok false := by
  have labelled : guarding.Labelled LeafTest.foreignRules := ⟨⟨⟨_, rfl⟩, _, rfl⟩, _, rfl⟩
  have ordered : guarding.InOrder := by
    refine ⟨by decide, ⟨by decide, trivial, trivial⟩, trivial⟩
  obtain ⟨-, made, same⟩ := Combination.build_asks blank guarding labelled
  obtain ⟨predicate, built, along, asked⟩ := made [.children] rfl
  rw [same.mpr ordered] at asked
  refine ⟨labelled, ordered, predicate, built, along, asked, ?_⟩
  rw [asked]
  rfl

/-- A test that accepts nothing, to the left of a search for children that fails. -/
def exchanging : Combination LeafTest :=
  .joint .and (.test none (constantly false)) (.test (some .children) failing)

/-- The left operand rejects every node, and the failure of the right one comes out nevertheless,
without the left one having been asked. -/
theorem right_operand_asked_first :
    ∃ predicate, exchanging.build LeafTest.foreignRules = .ok predicate ∧
      (((constantly false).accepts blank .null).perform {}).1 = .ok false ∧
      ((predicate.accepts blank .null).perform {}).1 =
        .error (.raised (.host .badValue "asked")) ∧
      ((predicate.accepts blank .null).perform {}).2.calls =
        [.tested (.function (.raise .badValue "asked" none)) .null] :=
  ⟨_, rfl, rfl, rfl, rfl⟩

end Session

end TreeQuery
