import TreeQuery.Proofs.Navigation.Loops
import TreeQuery.Proofs.Navigation.Termination
import TreeQuery.Proofs.Run.Course
import TreeQuery.Proofs.Run.Renaming

/-! # Navigation over renamed nodes

What nodes are is the business of the host. When nodes go by other names, of which two share a key
just if the old ones do, and host and tests answer about the new names as about the old ones, then
every navigation goes the same way, whatever fails in it, and finds the same nodes by their new
names (`TreeQuery.Path.navigate_renamed`).
-/

namespace TreeQuery

variable {Node Other Leaf Failure : Type} [Keyed Node] [Keyed Other] {rename : Node → Other}
  {region : Set Node}

/-- Names of which two share a key just if the nodes of a region do. -/
def KeepsKeys (rename : Node → Other) (region : Set Node) : Prop :=
  ∀ left ∈ region, ∀ right ∈ region,
    Keyed.key (rename left) = Keyed.key (rename right) ↔ Keyed.key left = Keyed.key right

namespace KeepsKeys

variable {nodes : List Node}

/-- Renamed nodes are taken away where the nodes are, since their keys tell the same apart. -/
theorem without (keeps : KeepsKeys rename region) {gone : List Node}
    (lost : ∀ node ∈ gone, node ∈ region) (inside : ∀ node ∈ nodes, node ∈ region) :
    Frontier.without ((gone.map rename).map Keyed.key) (nodes.map rename) =
      (Frontier.without (gone.map Keyed.key) nodes).map rename := by
  rw [Frontier.without, Frontier.without, List.filter_map]
  congr 1
  apply List.filter_congr
  intro node member
  rw [Function.comp_apply, List.contains_eq_mem, List.contains_eq_mem, List.map_map]
  congr 1
  apply decide_eq_decide.mpr
  rw [List.mem_map, List.mem_map]
  apply exists_congr
  intro other
  apply and_congr_right
  exact fun present => keeps other (lost other present) node (inside node member)

/-- Of each key the same node comes first, by whichever name. -/
theorem keepFirst (keeps : KeepsKeys rename region) (inside : ∀ node ∈ nodes, node ∈ region) :
    Frontier.keepFirst (nodes.map rename) = (Frontier.keepFirst nodes).map rename := by
  induction nodes with
  | nil => rfl
  | cons node rest ih =>
      obtain ⟨here, others⟩ := List.forall_mem_cons.mp inside
      have later : ∀ other ∈ Frontier.keepFirst rest, other ∈ region :=
        fun other member => others other (Frontier.mem_of_mem_keepFirst member)
      rw [List.map_cons, Frontier.keepFirst, Frontier.keepFirst, List.map_cons, ih others,
        List.filter_map]
      congr 2
      apply List.filter_congr
      intro other member
      exact decide_eq_decide.mpr (not_congr (keeps other (later other member) node here))

end KeepsKeys

namespace Frontier

/-- A frontier of the new names of the nodes of a frontier, all of which are in a region. -/
structure Renamed (rename : Node → Other) (region : Set Node) (left : Frontier Node)
    (right : Frontier Other) : Prop where
  nodes : right.nodes = left.nodes.map rename
  inside : left.Inside region

namespace Renamed

variable {left : Frontier Node} {right : Frontier Other}

theorem empty : Renamed rename region ∅ ∅ :=
  ⟨rfl, inside_empty⟩

/-- A renaming neither adds nor loses nodes. -/
theorem isEmpty (renamed : Renamed rename region left right) : left.isEmpty = right.isEmpty := by
  rw [Frontier.isEmpty, Frontier.isEmpty, renamed.nodes, List.isEmpty_map]

theorem size (renamed : Renamed rename region left right) : left.size = right.size := by
  rw [Frontier.size, Frontier.size, renamed.nodes, List.length_map]

/-- A renamed node is new exactly where the node is. -/
theorem insertAll (keeps : KeepsKeys rename region) (renamed : Renamed rename region left right)
    {nodes : List Node} (others : ∀ node ∈ nodes, node ∈ region) :
    Renamed rename region (left.insertAll nodes) (right.insertAll (nodes.map rename)) where
  nodes := by
    rw [nodes_insertAll_eq_keepFirst, nodes_insertAll_eq_keepFirst, renamed.nodes,
      ← List.map_append, keeps.keepFirst]
    intro node member
    exact (List.mem_append.mp member).elim (renamed.inside node) (others node)
  inside := renamed.inside.insertAll others

theorem removeAll (keeps : KeepsKeys rename region) (renamed : Renamed rename region left right)
    {nodes : List Node} (others : ∀ node ∈ nodes, node ∈ region) :
    Renamed rename region (left.removeAll nodes) (right.removeAll (nodes.map rename)) where
  nodes := by
    rw [nodes_removeAll_eq_without, nodes_removeAll_eq_without, renamed.nodes,
      keeps.without others renamed.inside]
  inside := renamed.inside.removeAll nodes

/-- Repetitions in a list stay repetitions. -/
theorem ofList (keeps : KeepsKeys rename region) {nodes : List Node}
    (inside : ∀ node ∈ nodes, node ∈ region) :
    Renamed rename region (Frontier.ofList nodes) (Frontier.ofList (nodes.map rename)) :=
  insertAll keeps empty inside

end Renamed

end Frontier

/-- Relations in which the new names stand as the nodes of a region do, and which do not lead out of
it. -/
def Host.Renamed (rename : Node → Other) (region : Set Node) (host : Host Node Failure)
    (other : Host Other Failure) : Prop :=
  ∀ relation, ∀ node ∈ region,
    other.related relation (rename node) = (host.related relation node).renamed rename ∧
      ∀ found ∈ (host.related relation node).nodes, found ∈ region

/-- A setting over another host, in which tests are asked about the new names of nodes. -/
def Setting.along (setting : Setting Other Leaf Failure) (rename : Node → Other)
    (host : Host Node Failure) : Setting Node Leaf Failure where
  host := host
  answer leaf node := setting.answer leaf (rename node)
  unlabelled := setting.unlabelled
  noPath := setting.noPath
  sink := setting.sink
  patience := setting.patience

section Steps

variable {setting : Setting Other Leaf Failure} {host : Host Node Failure}

omit [Keyed Node] [Keyed Other] in
/-- A test of a node asks the leaves about its new name. -/
theorem Predicate.test_mirrors (predicate : Predicate Leaf) (node : Node) :
    Run.Mirrors rename Eq (predicate.test (setting.along rename host) node)
      (predicate.test setting (rename node)) := by
  have answers : ∀ leaf, Run.Mirrors rename Eq
      (liftM (setting.answer leaf (rename node)) : Run Node Leaf Failure Value)
      (liftM (setting.answer leaf (rename node)) : Run Other Leaf Failure Value) := by
    intro leaf
    apply Run.Mirrors.liftExcept
    cases setting.answer leaf (rename node) <;> exact rfl
  induction predicate with
  | any => exact .pure rfl
  | function leaf label =>
      refine (Run.Mirrors.note (.tested leaf node)).bind fun _ _ _ => ?_
      exact (answers leaf).bind fun _ _ same => .pure (same ▸ rfl)
  | custom leaf className =>
      exact (Run.Mirrors.note (.tested leaf node)).bind fun _ _ _ => answers leaf
  | counting counter inner title? ih =>
      exact (Run.Mirrors.note (.counted counter node)).bind fun _ _ _ => ih
  | negation inner ih => exact ih.bind fun _ _ same => .pure (same ▸ rfl)
  | conjunction left right leftIH rightIH =>
      refine leftIH.bind fun first _ same => ?_
      cases same
      split
      · exact rightIH.bind fun _ _ same => .pure (same ▸ rfl)
      · exact .pure rfl
  | disjunction left right leftIH rightIH =>
      refine leftIH.bind fun first _ same => ?_
      cases same
      split
      · exact .pure rfl
      · exact rightIH.bind fun _ _ same => .pure (same ▸ rfl)
  | traversal axis inner ih => exact ih
  | foreign object => exact answers object

omit [Keyed Node] [Keyed Other] in
theorem Predicate.accepts_mirrors (predicate : Predicate Leaf) (node : Node) :
    Run.Mirrors rename Eq (predicate.accepts (setting.along rename host) node)
      (predicate.accepts setting (rename node)) :=
  (predicate.test_mirrors node).map fun _ _ same => congrArg Value.truthy same

omit [Keyed Node] [Keyed Other] in
/-- A renamed listing breaks off where the listing does. -/
theorem Listing.toExcept_matches (listing : Listing Node Failure)
    (within : ∀ node ∈ listing.nodes, node ∈ region) :
    Run.Matches (fun found others => others = found.map rename ∧ ∀ node ∈ found, node ∈ region)
      listing.toExcept (listing.renamed rename).toExcept := by
  obtain ⟨nodes, fault?⟩ := listing
  cases fault? with
  | none => exact ⟨rfl, within⟩
  | some fault => rfl

omit [Keyed Node] [Keyed Other] in
/-- A host that is renamed answers with the renamed nodes. -/
theorem Setting.ask_mirrors (hosts : Host.Renamed rename region host setting.host)
    (relation : Relation) {node : Node} (inside : node ∈ region) :
    Run.Mirrors rename (fun found others => others = found.map rename ∧ ∀ node ∈ found,
      node ∈ region) ((setting.along rename host).ask relation node)
        (setting.ask relation (rename node)) := by
  obtain ⟨renamed, within⟩ := hosts relation node inside
  refine (Run.Mirrors.note (.asked relation node)).bind fun _ _ _ => ?_
  apply Run.Mirrors.liftExcept
  rw [renamed]
  exact Listing.toExcept_matches _ within

omit [Keyed Node] [Keyed Other] in
theorem Setting.labelOf_mirrors (step : Predicate Leaf) :
    Run.Mirrors rename Eq ((setting.along rename host).labelOf step) (setting.labelOf step) := by
  rw [labelOf, labelOf]
  split
  · exact .pure rfl
  · exact .throw _

variable {left : Frontier Node} {right : Frontier Other}

/-- Taking in what is found mirrors taking in the same under other names. -/
theorem Frontier.takingIn_mirrors (keeps : KeepsKeys rename region)
    {find : Run Node Leaf Failure (List Node)} {seek : Run Other Leaf Failure (List Other)}
    (finds : Run.Mirrors rename (fun found others => others = found.map rename ∧ ∀ node ∈ found,
      node ∈ region) find seek) (renamed : Renamed rename region left right) :
    Run.Mirrors rename (Renamed rename region) (takingIn find left) (takingIn seek right) := by
  refine finds.bind fun found others listed => ?_
  obtain ⟨rfl, inside⟩ := listed
  exact .pure (renamed.insertAll keeps inside)

/-- Nodes are kept where their new names are. -/
theorem Frontier.filterRun_mirrors (keeps : KeepsKeys rename region)
    {accepts : Node → Run Node Leaf Failure Bool} {admits : Other → Run Other Leaf Failure Bool}
    (decides : ∀ node, Run.Mirrors rename Eq (accepts node) (admits (rename node)))
    (renamed : Renamed rename region left right) :
    Run.Mirrors rename (Renamed rename region) (left.filterRun accepts)
      (right.filterRun admits) := by
  rw [filterRun_eq_sequence, filterRun_eq_sequence, renamed.nodes, List.map_map]
  refine .sequence (fun _ _ _ => rfl) (forall₂_map_of_mem fun node member => ?_) .empty
  intro kept others same
  refine (decides node).bind fun verdict _ agree => ?_
  cases agree
  split
  · refine .pure (same.insertAll keeps (List.forall_mem_singleton.mpr ?_))
    exact renamed.inside node member
  · exact .pure same

/-- Along every axis the renamed nodes are found in the same order. -/
theorem Axis.relocate_mirrors (keeps : KeepsKeys rename region)
    (hosts : Host.Renamed rename region host setting.host) (axis : Axis)
    (renamed : Frontier.Renamed rename region left right) :
    Run.Mirrors rename (Frontier.Renamed rename region)
      (axis.relocate (setting.along rename host) left) (axis.relocate setting right) := by
  have inquiries : axis.inquiries right.nodes =
      (axis.inquiries left.nodes).map (Prod.map id rename) := by
    rw [Axis.inquiries, Axis.inquiries, renamed.nodes, List.flatMap_map, List.map_flatMap]
    simp only [List.map_map, Function.comp_def, Prod.map_apply, id_eq]
  rw [relocate_eq_sequence, relocate_eq_sequence, inquiries, List.map_map]
  refine .sequence (fun _ _ _ => rfl) (forall₂_map_of_mem fun inquiry member => ?_) .empty
  obtain ⟨node, present, asked⟩ := List.mem_flatMap.mp member
  obtain ⟨relation, _, rfl⟩ := List.mem_map.mp asked
  intro found others same
  apply Frontier.takingIn_mirrors keeps _ same
  exact Setting.ask_mirrors hosts relation (renamed.inside node present)

/-- A search that goes deeper ends in the same round under the new names. -/
theorem Frontier.deepen_mirrors (keeps : KeepsKeys rename region)
    {relocate : Frontier Node → Run Node Leaf Failure (Frontier Node)}
    {move : Frontier Other → Run Other Leaf Failure (Frontier Other)} (again : Bool)
    {accepts : Node → Run Node Leaf Failure Bool} {admits : Other → Run Other Leaf Failure Bool}
    (relocates : ∀ left right, Renamed rename region left right →
      Run.Mirrors rename (Renamed rename region) (relocate left) (move right))
    (decides : ∀ node, Run.Mirrors rename Eq (accepts node) (admits (rename node))) (moves : Nat)
    (renamed : Renamed rename region left right) :
    Run.Mirrors rename (Renamed rename region) (deepen relocate again accepts moves left)
      (deepen move again admits moves right) := by
  induction moves generalizing left right with
  | zero => exact .throw _
  | succ moves ih =>
      rw [deepen, deepen]
      refine (relocates left right renamed).bind fun arrived others moved => ?_
      rw [moved.isEmpty]
      split
      · exact .pure .empty
      · refine (filterRun_mirrors keeps decides moved).bind fun candidates chosen kept => ?_
        rw [kept.isEmpty]
        split
        · exact ih moved
        · exact .pure kept

/-- A step finds the new names of what it finds. -/
theorem Predicate.step_mirrors (keeps : KeepsKeys rename region)
    (hosts : Host.Renamed rename region host setting.host) (step : Predicate Leaf)
    (renamed : Frontier.Renamed rename region left right) :
    Run.Mirrors rename (Frontier.Renamed rename region)
      (step.step (setting.along rename host) left) (step.step setting right) := by
  cases step with
  | traversal axis inner =>
      apply Frontier.deepen_mirrors keeps axis.deepens _ (inner.accepts_mirrors ·) _ renamed
      exact fun left right same => axis.relocate_mirrors keeps hosts same
  | any | function | custom | counting | negation | conjunction | disjunction | foreign =>
      exact Frontier.filterRun_mirrors keeps (Predicate.accepts_mirrors _ ·) renamed

end Steps

namespace Program

variable {setting : Setting Other Leaf Failure} {host : Host Node Failure}

/-- Programs of which the second does under other names what the first does. -/
def Mirrors (rename : Node → Other) (region : Set Node) (left : Program Node Leaf Failure)
    (right : Program Other Leaf Failure) : Prop :=
  ∀ frontier other, Frontier.Renamed rename region frontier other →
    Run.Mirrors rename (Frontier.Renamed rename region) (left frontier) (right other)

/-- A step of a path finds the new names of what it finds, since its index names no node. -/
theorem stepPart_mirrors (keeps : KeepsKeys rename region)
    (hosts : Host.Renamed rename region host setting.host) (index : Nat) (last : Bool)
    (step? : Option (Predicate Leaf)) :
    Mirrors rename region (stepPart (setting.along rename host) index last step?)
      (stepPart setting index last step?) := by
  intro frontier other renamed
  cases step? with
  | none => exact .throw _
  | some step =>
      rw [stepPart, stepPart]
      refine (step.step_mirrors keeps hosts renamed).bind fun found others same => ?_
      refine (Setting.labelOf_mirrors step).bind fun label _ agree => ?_
      cases agree
      rw [same.size, same.isEmpty]
      refine (Run.Mirrors.send setting.sink _).bind fun _ _ _ => ?_
      have ended : Run.Mirrors rename (Frontier.Renamed rename region)
          (pure found : Run Node Leaf Failure (Frontier Node)) (pure others) := .pure same
      split
      · exact (Run.Mirrors.send setting.sink _).bind fun _ _ _ => ended
      · exact ended

theorem stepParts_mirror (keeps : KeepsKeys rename region)
    (hosts : Host.Renamed rename region host setting.host) (index : Nat)
    (steps : List (Option (Predicate Leaf))) :
    List.Forall₂ (Mirrors rename region) (stepParts (setting.along rename host) index steps)
      (stepParts setting index steps) := by
  induction steps generalizing index with
  | nil => exact .nil
  | cons step? rest ih =>
      exact .cons (stepPart_mirrors keeps hosts index rest.isEmpty step?) (ih (index + 1))

end Program

namespace Path

variable {setting : Setting Other Leaf Failure} {host : Host Node Failure}

/-- By induction on the path, of which each kind is its parts in sequence. -/
theorem run_mirrors (keeps : KeepsKeys rename region)
    (hosts : Host.Renamed rename region host setting.host) (path : Path Leaf) :
    Program.Mirrors rename region (path.run (setting.along rename host)) (path.run setting) := by
  have ended : ∀ (left : Frontier Node) (right : Frontier Other),
      Frontier.Renamed rename region left right → left.isEmpty = right.isEmpty :=
    fun _ _ same => same.isEmpty
  induction path using induct with
  | simple steps =>
      intro frontier other renamed
      rw [run, run, Program.simple_eq_sequence, Program.simple_eq_sequence]
      exact .sequence ended (Program.stepParts_mirror keeps hosts 0 steps) renamed
  | union delegates ih =>
      intro frontier other renamed
      rw [run, run, Program.union_eq_sequence, Program.union_eq_sequence, runs_eq_map, runs_eq_map,
        List.map_map, List.map_map, renamed.isEmpty]
      refine .sequence (fun _ _ _ => rfl) (forall₂_map_of_mem fun delegate member => ?_) .empty
      intro found others same
      refine (ih delegate member frontier other renamed).bind fun result more listed => .pure ?_
      rw [listed.nodes]
      exact same.insertAll keeps listed.inside
  | exclusion base excluded baseIH excludedIH =>
      intro frontier other renamed
      rw [run, run, Program.exclusion_eq_sequence, Program.exclusion_eq_sequence, runs_eq_map,
        runs_eq_map, List.map_map, List.map_map]
      refine .sequence ended (.cons baseIH (forall₂_map_of_mem fun path member => ?_)) renamed
      intro found others same
      have taken := (excludedIH path member frontier other renamed).excluding setting.sink
      refine taken.bind fun result more listed => .pure ?_
      rw [listed.nodes]
      exact same.removeAll keeps listed.inside
  | chain links ih =>
      intro frontier other renamed
      rw [run, run, Program.chain_eq_sequence, Program.chain_eq_sequence, runs_eq_map, runs_eq_map]
      exact .sequence ended (forall₂_map_of_mem ih) renamed
  | traced title body ih =>
      intro frontier other renamed
      exact (ih frontier other renamed).traced setting.sink title
  | stray operand? => exact fun _ _ _ => .throw _

/-- Under other names of which two share a key just if the nodes do, every navigation goes the same
way: it puts the same questions, sends the same lines, fails with the same fault or finds the same
nodes. -/
theorem navigate_renamed (keeps : KeepsKeys rename region)
    (hosts : Host.Renamed rename region host setting.host) (path : Path Leaf) {start : List Node}
    (inside : ∀ node ∈ start, node ∈ region) :
    Run.Mirrors rename (Frontier.Renamed rename region)
      (path.navigate (setting.along rename host) start)
      (path.navigate setting (start.map rename)) :=
  path.run_mirrors keeps hosts _ _ (.ofList keeps inside)

end Path

end TreeQuery
