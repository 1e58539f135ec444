import Mathlib.Order.Interval.Set.Nat
import TreeQuery.Navigation.Stored
import TreeQuery.Proofs.Tree.Grounded

/-! # Stored paths without circles

Path objects hold each other as parts. As long as none of them holds itself, at whatever remove,
every path object can be read out of its store (`TreeQuery.PathStore.CircleFree.exists_readTo?`).
What is read depends only on the objects that a path is made of
(`TreeQuery.PathStore.readTo?_congr`), so a new object and one that grows in place change nothing
about the objects that do not hold it.
-/

namespace TreeQuery

variable {Leaf : Type}

/-- The path object that a part is, unless it is a stray. -/
def PathPart.index? : PathPart Leaf → Option Nat
  | path index => some index
  | stray _ => none

/-- A part that is no path object outside the first ones. -/
def PathPart.Below (count : Nat) (part : PathPart Leaf) : Prop :=
  ∀ index, part = .path index → index < count

/-- The parts of a path object, the base of an exclusion first. -/
def PathShape.parts : PathShape Leaf → List (PathPart Leaf)
  | simple _ => []
  | union parts | chain parts => parts
  | exclusion base excluded => base :: excluded

namespace PathStore

/-- A path object has another among its parts. -/
def Holds (store : PathStore Leaf) (whole part : Nat) : Prop :=
  .path part ∈ (store.shape whole).parts

/-- No path object holds itself, at whatever remove. -/
def CircleFree (store : PathStore Leaf) : Prop :=
  ∀ path, ¬ Relation.TransGen store.Holds path path

/-- All path objects are made of path objects of the same store. -/
def Closed (store : PathStore Leaf) : Prop :=
  ∀ whole, ∀ part ∈ (store.shape whole).parts, part.Below store.paths.size

section Reading

variable {first second : PathPart Leaf → Option (Path Leaf)}

theorem mapM_read_congr {parts : List (PathPart Leaf)}
    (same : ∀ part ∈ parts, first part = second part) : parts.mapM first = parts.mapM second := by
  induction parts with
  | nil => rw [List.mapM_nil, List.mapM_nil]
  | cons part rest ih =>
      rw [List.mapM_cons, List.mapM_cons, same part List.mem_cons_self,
        ih fun other member => same other (List.mem_cons_of_mem _ member)]

/-- What a shape is read as depends on its parts only. -/
theorem readShape?_congr {shape : PathShape Leaf}
    (same : ∀ part ∈ shape.parts, first part = second part) :
    readShape? first shape = readShape? second shape := by
  cases shape with
  | simple steps => rfl
  | union delegates => exact congrArg (Path.union <$> ·) (mapM_read_congr same)
  | exclusion base excluded =>
      obtain ⟨here, there⟩ := List.forall_mem_cons.mp same
      rw [readShape?, readShape?, here, mapM_read_congr there]
  | chain links => exact congrArg (Path.chain <$> ·) (mapM_read_congr same)

theorem exists_mapM_read_iff {parts : List (PathPart Leaf)} :
    (∃ paths, parts.mapM first = some paths) ↔ ∀ part ∈ parts, ∃ path, first part = some path := by
  induction parts with
  | nil => exact ⟨fun _ _ member => absurd member List.not_mem_nil, fun _ => ⟨[], List.mapM_nil⟩⟩
  | cons part rest ih =>
      rw [List.mapM_cons, List.forall_mem_cons, ← ih]
      constructor
      · rintro ⟨_, read⟩
        obtain ⟨path, here, later⟩ := Option.bind_eq_some_iff.mp read
        obtain ⟨paths, there, _⟩ := Option.bind_eq_some_iff.mp later
        exact ⟨⟨path, here⟩, paths, there⟩
      · rintro ⟨⟨path, here⟩, paths, there⟩
        exact ⟨path :: paths, by rw [here, there]; rfl⟩

/-- A shape can be read exactly when its parts can. -/
theorem exists_readShape?_iff {shape : PathShape Leaf} :
    (∃ path, readShape? first shape = some path) ↔
      ∀ part ∈ shape.parts, ∃ path, first part = some path := by
  have mapped : ∀ (wrap : List (Path Leaf) → Path Leaf) (parts : List (PathPart Leaf)),
      (∃ path, wrap <$> parts.mapM first = some path) ↔ ∃ paths, parts.mapM first = some paths := by
    intro wrap parts
    cases parts.mapM first <;> simp
  cases shape with
  | simple steps => exact ⟨fun _ _ member => absurd member List.not_mem_nil, fun _ => ⟨_, rfl⟩⟩
  | union delegates => exact (mapped .union delegates).trans exists_mapM_read_iff
  | exclusion base excluded =>
      rw [PathShape.parts, List.forall_mem_cons, ← exists_mapM_read_iff]
      cases here : first base <;> cases there : excluded.mapM first <;>
        simp [readShape?, here, there]
  | chain links => exact (mapped .chain links).trans exists_mapM_read_iff

theorem readPart?_congr {ofPath ofOther : Nat → Option (Path Leaf)} {part : PathPart Leaf}
    (same : ∀ index, part = .path index → ofPath index = ofOther index) :
    part.read? ofPath = part.read? ofOther := by
  cases part with
  | path index => exact same index rfl
  | stray operand? => rfl

end Reading

variable {store after : PathStore Leaf}

/-- Two stores read a path object alike when they agree about all that it is made of. -/
theorem readTo?_congr {depth path : Nat}
    (same : ∀ other, Relation.ReflTransGen store.Holds path other →
      after.shape other = store.shape other ∧ after.title? other = store.title? other) :
    after.readTo? depth path = store.readTo? depth path := by
  induction depth generalizing path with
  | zero => rfl
  | succ depth ih =>
      obtain ⟨shape, title⟩ := same path .refl
      rw [readTo?, readTo?, shape, title]
      congr 1
      refine readShape?_congr fun part member => readPart?_congr ?_
      rintro index rfl
      exact ih fun other below => same other (.head member below)

/-- A path that can be read to some depth reads the same to every greater one. -/
theorem readTo?_of_le {depth more path : Nat} {read : Path Leaf} (least : depth ≤ more)
    (found : store.readTo? depth path = some read) : store.readTo? more path = some read := by
  induction depth generalizing more path read with
  | zero => cases found
  | succ depth ih =>
      obtain ⟨more, rfl⟩ := Nat.exists_eq_add_of_le' (Nat.le_of_add_left_le least)
      obtain ⟨body, begun, _⟩ := Option.map_eq_some_iff.mp found
      have parts := exists_readShape?_iff.mp ⟨body, begun⟩
      rw [← found, readTo?, readTo?]
      congr 1
      refine readShape?_congr fun part member => readPart?_congr ?_
      rintro index rfl
      obtain ⟨path, here⟩ := parts _ member
      rw [PathPart.read?] at here
      rw [here, ih (Nat.le_of_succ_le_succ least) here]

/-- The path objects that a path object holds, as a listing. -/
def held (store : PathStore Leaf) (whole : Nat) : Listing Nat Unit :=
  ⟨(store.shape whole).parts.filterMap PathPart.index?, none⟩

theorem mem_held_iff {whole part : Nat} :
    part ∈ (store.held whole).nodes ↔ store.Holds whole part := by
  rw [held, List.mem_filterMap, Holds]
  constructor
  · rintro ⟨_ | _, member, named⟩
    · cases named
      exact member
    · cases named
  · exact fun member => ⟨_, member, rfl⟩

/-- The path objects of a closed store without circles are grounded in what they hold. -/
theorem CircleFree.grounded (free : store.CircleFree) (closed : store.Closed) :
    Tree.Grounded store.held (Set.Iio store.paths.size) where
  finite := Set.finite_Iio _
  confined := fun whole _ =>
    ⟨rfl, fun part member => closed whole _ (mem_held_iff.mp member) part rfl⟩
  acyclic := fun path _ circle =>
    free path (Relation.TransGen.mono (fun _ _ => mem_held_iff.mp) path path circle)

/-- A path object can be read to a depth that nothing below it reaches. -/
theorem exists_readTo?_of_depth {depth path : Nat}
    (shallow : ∀ level below, Tree.Descends store.held path level below → level < depth) :
    ∃ read, store.readTo? depth path = some read := by
  induction depth generalizing path with
  | zero => exact absurd (shallow 0 path .here) (Nat.not_lt_zero 0)
  | succ depth ih =>
      have parts : ∀ part ∈ (store.shape path).parts,
          ∃ read, part.read? (store.readTo? depth) = some read := by
        intro part member
        cases part with
        | stray operand? => exact ⟨_, rfl⟩
        | path index =>
            refine ih fun level below descends => ?_
            have deeper := descends.of_child (mem_held_iff.mpr member)
            exact Nat.lt_of_succ_lt_succ (shallow _ below deeper)
      obtain ⟨body, found⟩ := exists_readShape?_iff.mpr parts
      exact ⟨_, by rw [readTo?, found]; rfl⟩

/-- In a closed store without circles every path object can be read. -/
theorem CircleFree.exists_readTo? (free : store.CircleFree) (closed : store.Closed) {path : Nat}
    (present : path < store.paths.size) :
    ∃ read, store.readTo? store.paths.size path = some read := by
  refine exists_readTo?_of_depth fun level below descends => ?_
  have bound := (free.grounded closed).enclosed.depth_lt_ncard present descends
  rwa [Set.ncard_Iio_nat] at bound

/-- In a closed store without circles a path object is read from its parts. -/
theorem CircleFree.read?_eq (free : store.CircleFree) (closed : store.Closed) {path : Nat}
    (present : path < store.paths.size) :
    store.read? path = entitled (store.title? path) <$>
      readShape? (PathPart.read? store.read?) (store.shape path) := by
  obtain ⟨read, found⟩ := free.exists_readTo? closed present
  rw [read?, found, ← readTo?_of_le (Nat.le_succ _) found, readTo?]
  rfl

end PathStore

end TreeQuery
