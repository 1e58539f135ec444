import TreeQuery.Proofs.Path.Circles

/-! # Composing stored paths

A composition makes a new path object of its receiver and its argument, or lets the receiver grow in
place. Every store that is built by such steps is closed (`TreeQuery.PathStore.Composed.closed`).
Where no circle arises, the result of a composition is read from what its receiver and its argument
were read as before, also when they are one object or have parts in common
(`TreeQuery.PathStore.read?_create_pair`, `TreeQuery.PathStore.read?_grow`).
-/

namespace TreeQuery.PathStore

variable {Leaf : Type}

/-- A store that path objects were made and composed in, one after the other. -/
inductive Composed : PathStore Leaf → Prop where
  | empty : Composed {}
  | create {store : PathStore Leaf} {shape : PathShape Leaf} :
      Composed store → (∀ part ∈ shape.parts, part.Below store.paths.size) →
        Composed (store.create shape).1
  | or {store after : PathStore Leaf} {path result : Nat} {other : PathPart Leaf} :
      Composed store → path < store.paths.size → other.Below store.paths.size →
        store.or path other = .ok (after, result) → Composed after
  | exclude {store : PathStore Leaf} {path : Nat} {other : PathPart Leaf} :
      Composed store → path < store.paths.size → other.Below store.paths.size →
        Composed (store.exclude path other).1
  | append {store : PathStore Leaf} {path other : Nat} :
      Composed store → path < store.paths.size → other < store.paths.size →
        Composed (store.append path other).1
  | appendSteps {store : PathStore Leaf} {path : Nat} (steps : List (Option (Predicate Leaf))) :
      Composed store → path < store.paths.size → Composed (store.appendSteps path steps).1
  | trace {store : PathStore Leaf} (path : Nat) (name : Value) :
      Composed store → Composed (store.trace path name)

variable {store : PathStore Leaf} {path : Nat}

section Views

/-- A new object is one more. -/
theorem size_create (shape : PathShape Leaf) :
    (store.create shape).1.paths.size = store.paths.size + 1 := by
  simp [create]

/-- An object that grows in place is no new one. -/
theorem size_reshape (shape : PathShape Leaf) :
    (store.reshape path shape).paths.size = store.paths.size := by
  simp [reshape]

theorem index_create (shape : PathShape Leaf) : (store.create shape).2 = store.paths.size := rfl

/-- A new object is traced under no name. -/
theorem title?_create_self (shape : PathShape Leaf) :
    (store.create shape).1.title? store.paths.size = none := by
  simp [title?, create]

/-- A new object leaves the titles of the old ones alone. -/
theorem title?_create_of_lt (shape : PathShape Leaf) (present : path < store.paths.size) :
    (store.create shape).1.title? path = store.title? path := by
  simp [title?, create, Array.getElem?_push_lt, present]

/-- An object keeps its title when it or another one grows. -/
theorem title?_reshape (shape : PathShape Leaf) (other : Nat) :
    (store.reshape path shape).title? other = store.title? other := by
  rw [title?, title?, reshape, Array.getElem?_modify]
  split
  · cases store.paths[other]? <;> rfl
  · rfl

/-- Tracing an object changes what none is made of. -/
theorem shape_trace (name : Value) (other : Nat) :
    (store.trace path name).shape other = store.shape other := by
  rw [shape, shape, trace, Array.getElem?_modify]
  split
  · cases store.paths[other]? <;> rfl
  · rfl

theorem size_trace (name : Value) : (store.trace path name).paths.size = store.paths.size := by
  simp [trace]

/-- Only objects of the store hold others. -/
theorem lt_size_of_mem_parts {part : PathPart Leaf} (member : part ∈ (store.shape path).parts) :
    path < store.paths.size := by
  by_contra outside
  rw [shape, Array.getElem?_eq_none (Nat.le_of_not_lt outside)] at member
  exact absurd member List.not_mem_nil

end Views

/-- Uniting adds the part to a union, and makes one of the two where there is none. -/
theorem or_cases {after : PathStore Leaf} {result : Nat} {other : PathPart Leaf}
    (united : store.or path other = .ok (after, result)) :
    (∃ delegates, store.shape path = .union delegates ∧
      after = store.reshape path (.union (delegates ++ [other])) ∧ result = path) ∨
    (after, result) = store.create (.union [.path path, other]) := by
  rw [or] at united
  split at united
  · next delegates shape =>
      cases united
      exact .inl ⟨delegates, shape, rfl, rfl⟩
  · cases united
  · cases united
    exact .inr rfl

/-- Excluding adds the part to an exclusion, and makes one of the two where there is none. -/
theorem exclude_cases (store : PathStore Leaf) (path : Nat) (other : PathPart Leaf) :
    (∃ base excluded, store.shape path = .exclusion base excluded ∧
      store.exclude path other =
        (store.reshape path (.exclusion base (excluded ++ [other])), path)) ∨
    store.exclude path other = store.create (.exclusion (.path path) [other]) := by
  rw [exclude]
  split
  · next base excluded shape => exact .inl ⟨base, excluded, shape, rfl⟩
  · exact .inr rfl

/-- Appending adds the path to a chain, and makes one of the two where there is none. -/
theorem append_cases (store : PathStore Leaf) (path other : Nat) :
    (∃ links, store.shape path = .chain links ∧
      store.append path other = (store.reshape path (.chain (links ++ [.path other])), path)) ∨
    store.append path other = store.create (.chain [.path path, .path other]) := by
  rw [append]
  split
  · next links shape => exact .inl ⟨links, shape, rfl⟩
  · exact .inr rfl

section Closed

/-- A new object may be made of those there are. -/
theorem Closed.create {shape : PathShape Leaf} (closed : store.Closed)
    (within : ∀ part ∈ shape.parts, part.Below store.paths.size) :
    (store.create shape).1.Closed := by
  intro whole part member index named
  rw [size_create]
  have bound := lt_size_of_mem_parts member
  rw [size_create] at bound
  rcases Nat.lt_succ_iff_lt_or_eq.mp bound with old | rfl
  · rw [shape_create_of_lt _ _ old] at member
    exact (closed whole part member index named).trans (Nat.lt_succ_self _)
  · have self : (store.create shape).1.shape store.paths.size = shape := shape_create_self _ _
    rw [self] at member
    exact (within part member index named).trans (Nat.lt_succ_self _)

/-- An object may be made anew of those there are. -/
theorem Closed.reshape {shape : PathShape Leaf} (closed : store.Closed)
    (present : path < store.paths.size)
    (within : ∀ part ∈ shape.parts, part.Below store.paths.size) :
    (store.reshape path shape).Closed := by
  intro whole part member
  rw [size_reshape]
  by_cases same : path = whole
  · subst same
    rw [shape_reshape_self _ _ present] at member
    exact within part member
  · rw [shape_reshape_of_ne _ _ same] at member
    exact closed whole part member

theorem below_path {index count : Nat} (less : index < count) :
    (PathPart.path index : PathPart Leaf).Below count := by
  rintro _ ⟨⟩
  exact less

theorem below_append {parts : List (PathPart Leaf)} {other : PathPart Leaf} {count : Nat}
    (within : ∀ part ∈ parts, part.Below count) (last : other.Below count) :
    ∀ part ∈ parts ++ [other], part.Below count :=
  List.forall_mem_append.mpr ⟨within, List.forall_mem_singleton.mpr last⟩

/-- A path object and a part may be put together in a closed store. -/
theorem Closed.below_pair (present : path < store.paths.size) {other : PathPart Leaf}
    (last : other.Below store.paths.size) :
    ∀ part ∈ [.path path, other], part.Below store.paths.size :=
  List.forall_mem_cons.mpr ⟨below_path present, List.forall_mem_singleton.mpr last⟩

/-- An object of the store may be appended to another. -/
theorem Closed.append (closed : store.Closed) (present : path < store.paths.size) {other : Nat}
    (last : other < store.paths.size) : (store.append path other).1.Closed := by
  rcases append_cases store path other with ⟨links, shape, same⟩ | same
  · have within := closed path
    rw [shape] at within
    rw [same]
    exact closed.reshape present (below_append within (below_path last))
  · rw [same]
    exact closed.create (below_pair present (below_path last))

/-- Path objects that were made and composed one after the other are made of each other only. -/
theorem Composed.closed (composed : store.Composed) : store.Closed := by
  induction composed with
  | empty => exact fun _ _ member => absurd member List.not_mem_nil
  | create _ within ih => exact ih.create within
  | @or store after path result other _ present last united ih =>
      rcases or_cases united with ⟨delegates, shape, rfl, _⟩ | same
      · have within := ih path
        rw [shape] at within
        exact ih.reshape present (below_append within last)
      · have made : after = (store.create _).1 := congrArg Prod.fst same
        rw [made]
        exact ih.create (Closed.below_pair present last)
  | @exclude store path other _ present last ih =>
      rcases exclude_cases store path other with ⟨base, excluded, shape, same⟩ | same
      · have within := ih path
        rw [shape] at within
        rw [same]
        exact ih.reshape present (below_append within last)
      · rw [same]
        exact ih.create (Closed.below_pair present last)
  | append _ present last ih => exact ih.append present last
  | @appendSteps store path steps _ present ih =>
      cases steps with
      | nil => exact ih
      | cons step rest =>
          have made : (store.create (.simple (step :: rest))).1.Closed :=
            ih.create fun _ member => absurd member List.not_mem_nil
          have more : path < (store.create (.simple (step :: rest))).1.paths.size := by
            rw [size_create]
            exact present.trans (Nat.lt_succ_self _)
          refine made.append more ?_
          rw [size_create]
          exact Nat.lt_succ_self _
  | trace path name _ ih =>
      intro whole part member
      rw [shape_trace] at member
      rw [size_trace]
      exact ih whole part member

end Closed

section Layered

/-- Every path object is made of older ones. -/
def Layered (store : PathStore Leaf) : Prop :=
  ∀ whole, ∀ part ∈ (store.shape whole).parts, part.Below whole

/-- Where every path object is made of older ones, none holds itself. -/
theorem Layered.circleFree (layered : store.Layered) : store.CircleFree := by
  have older : ∀ whole part, Relation.TransGen store.Holds whole part → part < whole := by
    intro whole part below
    induction below with
    | single holds => exact layered _ _ holds _ rfl
    | tail _ holds ih => exact (layered _ _ holds _ rfl).trans ih
  exact fun path circle => Nat.lt_irrefl path (older path path circle)

theorem layered_empty : ({} : PathStore Leaf).Layered :=
  fun _ _ member => absurd member List.not_mem_nil

/-- A new object is made of older ones. -/
theorem Layered.create {shape : PathShape Leaf} (layered : store.Layered)
    (within : ∀ part ∈ shape.parts, part.Below store.paths.size) :
    (store.create shape).1.Layered := by
  intro whole part member
  have bound := lt_size_of_mem_parts member
  rw [size_create] at bound
  rcases Nat.lt_succ_iff_lt_or_eq.mp bound with old | rfl
  · rw [shape_create_of_lt _ _ old] at member
    exact layered whole part member
  · have self : (store.create shape).1.shape store.paths.size = shape := shape_create_self _ _
    rw [self] at member
    exact within part member

/-- An object that grows by older ones is made of older ones still. -/
theorem Layered.reshape {shape : PathShape Leaf} (layered : store.Layered)
    (present : path < store.paths.size) (older : ∀ part ∈ shape.parts, part.Below path) :
    (store.reshape path shape).Layered := by
  intro whole part member
  by_cases same : path = whole
  · subst same
    rw [shape_reshape_self _ _ present] at member
    exact older part member
  · rw [shape_reshape_of_ne _ _ same] at member
    exact layered whole part member

end Layered

section Growing

variable {shape : PathShape Leaf} {other : Nat}

section TakingIn

variable (present : path < store.paths.size)
  (takesIn : shape.parts = (store.shape path).parts ++ [.path other])

include present takesIn

/-- An object that takes in a path holds that path besides what it held. -/
theorem holds_reshape_iff {whole part : Nat} :
    (store.reshape path shape).Holds whole part ↔
      store.Holds whole part ∨ whole = path ∧ part = other := by
  by_cases same : path = whole
  · subst same
    rw [Holds, shape_reshape_self _ _ present, takesIn, List.mem_append, List.mem_singleton, Holds]
    simp
  · rw [Holds, shape_reshape_of_ne _ _ same, Holds]
    simp [Ne.symm same]

/-- An object that takes in a path comes to hold itself exactly if that path is the object or
contains it. -/
theorem circleFree_reshape_iff (free : store.CircleFree) :
    (store.reshape path shape).CircleFree ↔ ¬ Relation.ReflTransGen store.Holds other path := by
  have holds : ∀ {whole part : Nat}, (store.reshape path shape).Holds whole part ↔
      store.Holds whole part ∨ whole = path ∧ part = other := holds_reshape_iff present takesIn
  exact (Tree.acyclic_edge_iff holds).trans (and_iff_right free)

end TakingIn

end Growing

section Reading

/-- What an object of a closed store is made of is in the store. -/
theorem Closed.lt_size (closed : store.Closed) (present : path < store.paths.size) {other : Nat}
    (below : Relation.ReflTransGen store.Holds path other) : other < store.paths.size := by
  induction below with
  | refl => exact present
  | tail _ holds _ => exact closed _ _ holds _ rfl

/-- A new object is read from what its parts are read as. -/
theorem read?_create {shape : PathShape Leaf} (closed : store.Closed)
    (within : ∀ part ∈ shape.parts, part.Below store.paths.size) :
    (store.create shape).1.read? store.paths.size =
      readShape? (PathPart.read? store.read?) shape := by
  have self : (store.create shape).1.shape store.paths.size = shape := shape_create_self _ _
  rw [read?, size_create, readTo?, title?_create_self, self]
  refine Option.map_id'.trans ?_
  refine readShape?_congr fun part member => readPart?_congr ?_
  rintro index rfl
  refine readTo?_congr fun other below => ?_
  have old := closed.lt_size (within _ member index rfl) below
  exact ⟨shape_create_of_lt _ _ old, title?_create_of_lt _ old⟩

/-- An object that grows is read from what its parts were read as before, if no circle arises. -/
theorem read?_reshape {shape : PathShape Leaf} (closed : store.Closed)
    (present : path < store.paths.size)
    (within : ∀ part ∈ shape.parts, part.Below store.paths.size)
    (kept : (store.shape path).parts ⊆ shape.parts) (free : (store.reshape path shape).CircleFree) :
    (store.reshape path shape).read? path =
      entitled (store.title? path) <$> readShape? (PathPart.read? store.read?) shape := by
  have self := shape_reshape_self store shape present
  have still : path < (store.reshape path shape).paths.size := by
    rwa [size_reshape]
  rw [free.read?_eq (closed.reshape present within) still, title?_reshape, self]
  congr 1
  refine readShape?_congr fun part member => readPart?_congr ?_
  rintro index rfl
  rw [read?, read?, size_reshape]
  refine readTo?_congr fun other below => ⟨shape_reshape_of_ne _ _ ?_, title?_reshape _ _⟩
  -- The part would hold the object that it is a part of.
  rintro rfl
  have grows : store.Holds ≤ (store.reshape path shape).Holds := by
    intro whole index holds
    by_cases same : path = whole
    · subst same
      rw [Holds, self]
      exact kept holds
    · rw [Holds, shape_reshape_of_ne _ _ same]
      exact holds
  have back := Relation.ReflTransGen.mono grows _ _ below
  refine free path (.head' ?_ back)
  rw [Holds, self]
  exact member

/-- If one more part can be read, one more path is read at the end. -/
theorem mapM_read_append {readPart? : PathPart Leaf → Option (Path Leaf)}
    {parts : List (PathPart Leaf)} {other : PathPart Leaf} {paths : List (Path Leaf)}
    {path : Path Leaf} (read : parts.mapM readPart? = some paths)
    (last : readPart? other = some path) :
    (parts ++ [other]).mapM readPart? = some (paths ++ [path]) := by
  rw [List.mapM_append, read, List.mapM_cons, last]
  rfl

variable {first second : Path Leaf} {other : PathPart Leaf}
  (closed : store.Closed) (present : path < store.paths.size)
  (last : other.Below store.paths.size)
  (read : store.read? path = some first) (readLast : other.read? store.read? = some second)

include closed present last read readLast

section Collections

-- A shape is made of a list of parts, and a path of what they are read as.
variable {shapeOf : List (PathPart Leaf) → PathShape Leaf}
  {pathOf : List (Path Leaf) → Path Leaf}
  (reads : ∀ readPart? parts,
    readShape? readPart? (shapeOf parts) = pathOf <$> parts.mapM readPart?)
  (made : ∀ parts, (shapeOf parts).parts = parts)

include reads made

/-- A new object of two parts is read from what both are read as. -/
theorem read?_create_pair :
    (store.create (shapeOf [.path path, other])).1.read? store.paths.size =
      some (pathOf [first, second]) := by
  rw [read?_create closed (by rw [made]; exact Closed.below_pair present last), reads,
    List.mapM_cons, PathPart.read?, read, List.mapM_cons, readLast]
  rfl

/-- An object that takes in one more part is read with one path more. -/
theorem read?_grow (free : store.CircleFree) {parts : List (PathPart Leaf)}
    (shape : store.shape path = shapeOf parts)
    (still : (store.reshape path (shapeOf (parts ++ [other]))).CircleFree) :
    ∃ paths, first = entitled (store.title? path) (pathOf paths) ∧
      (store.reshape path (shapeOf (parts ++ [other]))).read? path =
        some (entitled (store.title? path) (pathOf (paths ++ [second]))) := by
  have within := closed path
  rw [shape, made] at within
  rw [free.read?_eq closed present, shape, reads] at read
  obtain ⟨body, found, rfl⟩ := Option.map_eq_some_iff.mp read
  obtain ⟨paths, readAll, rfl⟩ := Option.map_eq_some_iff.mp found
  refine ⟨paths, rfl, ?_⟩
  rw [read?_reshape closed present _ _ still, reads, mapM_read_append readAll readLast]
  · rfl
  · rw [made]
    exact below_append within last
  · rw [shape, made, made]
    exact List.subset_append_left parts _

end Collections

/-- A new exclusion of two parts is read as that of their paths. -/
theorem read?_create_exclusion :
    (store.create (.exclusion (.path path) [other])).1.read? store.paths.size =
      some (.exclusion first [second]) := by
  have within : ∀ part ∈ (PathShape.exclusion (.path path) [other]).parts,
      part.Below store.paths.size := Closed.below_pair present last
  rw [read?_create closed within, readShape?, PathPart.read?, read, List.mapM_cons, readLast]
  rfl

/-- An exclusion that grows is read as before with one more path at its end, under the same title.
-/
theorem read?_grow_exclusion (free : store.CircleFree) {base : PathPart Leaf}
    {excluded : List (PathPart Leaf)} (shape : store.shape path = .exclusion base excluded)
    (still : (store.reshape path (.exclusion base (excluded ++ [other]))).CircleFree) :
    ∃ kept paths, first = entitled (store.title? path) (.exclusion kept paths) ∧
      (store.reshape path (.exclusion base (excluded ++ [other]))).read? path =
        some (entitled (store.title? path) (.exclusion kept (paths ++ [second]))) := by
  have within := closed path
  rw [shape] at within
  rw [free.read?_eq closed present, shape] at read
  obtain ⟨body, found, rfl⟩ := Option.map_eq_some_iff.mp read
  obtain ⟨kept, readBase, found⟩ := Option.bind_eq_some_iff.mp found
  obtain ⟨paths, readAll, made⟩ := Option.bind_eq_some_iff.mp found
  cases made
  have grown : ∀ part ∈ (PathShape.exclusion base (excluded ++ [other])).parts,
      part.Below store.paths.size := below_append within last
  refine ⟨kept, paths, rfl, ?_⟩
  rw [read?_reshape closed present grown _ still, readShape?, readBase,
    mapM_read_append readAll readLast]
  · rfl
  · rw [shape]
    exact List.subset_append_left (base :: excluded) _

end Reading

end TreeQuery.PathStore
