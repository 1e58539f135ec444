import TreeQuery.Adapter
import TreeQuery.Proofs.Tree.Grounded

/-! # Descendants in pre-order

The descendants of a node are its children in order, each followed at once by its own descendants.
That is a recursion, while a host keeps a stack of unfinished listings. Since listings may break
off, the recursion makes sequences in which a fault may stand between nodes: it comes after the last
child of the listing that breaks off, and what belongs to the nodes around comes after the fault. In
an enclosed region there is one such sequence for each node. What still comes from a stack is read
off its unfinished listings in the same way, and the stack hands it out up to the first fault
(`TreeQuery.Tree.Enclosed.descendants_in_preorder`).
-/

namespace TreeQuery

variable {Node Failure : Type}

namespace Listing

/-- The sequence of the nodes of a listing, each followed at once by a sequence of its own. The
fault with which the listing breaks off comes last. -/
def interleave (listing : Listing Node Failure)
    (below : Node → List (Except (Fault Failure) Node)) : List (Except (Fault Failure) Node) :=
  (listing.nodes.flatMap fun node => .ok node :: below node) ++
    (listing.fault?.map Except.error).toList

/-- What a sequence hands out: its nodes up to the first fault, and that fault. -/
def upToFault : List (Except (Fault Failure) Node) → Listing Node Failure
  | [] => empty
  | .ok node :: rest => cons node (upToFault rest)
  | .error fault :: _ => failed fault

/-- A sequence of nodes only is listed to its end. -/
theorem upToFault_map_ok (nodes : List Node) :
    upToFault (nodes.map .ok) = (⟨nodes, none⟩ : Listing Node Failure) := by
  induction nodes with
  | nil => rfl
  | cons node rest ih => rw [List.map_cons, upToFault, ih, cons]

/-- A sequence is listed up to its first fault, and nothing behind it. -/
theorem upToFault_append_error (nodes : List Node) (fault : Fault Failure)
    (rest : List (Except (Fault Failure) Node)) :
    upToFault (nodes.map .ok ++ .error fault :: rest) = ⟨nodes, some fault⟩ := by
  induction nodes with
  | nil => rfl
  | cons node others ih => rw [List.map_cons, List.cons_append, upToFault, ih, cons]

/-- A sequence consists of nodes only, or there is a first fault in it. -/
theorem eq_map_ok_or_exists_error (sequence : List (Except (Fault Failure) Node)) :
    (∃ nodes : List Node, sequence = nodes.map .ok) ∨
      ∃ (nodes : List Node) (fault : Fault Failure) (rest : List (Except (Fault Failure) Node)),
        sequence = nodes.map .ok ++ .error fault :: rest := by
  induction sequence with
  | nil => exact .inl ⟨[], rfl⟩
  | cons entry rest ih =>
      cases entry with
      | error fault => exact .inr ⟨[], fault, rest, rfl⟩
      | ok node =>
          rcases ih with ⟨nodes, rfl⟩ | ⟨nodes, fault, behind, rfl⟩
          · exact .inl ⟨node :: nodes, rfl⟩
          · exact .inr ⟨node :: nodes, fault, behind, rfl⟩

/-- What is below a node comes between the node and the next one. -/
theorem interleave_cons (node : Node) (rest : List Node) (fault? : Option (Fault Failure))
    (below : Node → List (Except (Fault Failure) Node)) :
    interleave ⟨node :: rest, fault?⟩ below =
      .ok node :: (below node ++ interleave ⟨rest, fault?⟩ below) := by
  rw [interleave, interleave, List.flatMap_cons, List.cons_append, List.cons_append,
    List.append_assoc]

/-- It only matters what is below the nodes listed. -/
theorem interleave_congr {listing : Listing Node Failure}
    {first second : Node → List (Except (Fault Failure) Node)}
    (same : ∀ node ∈ listing.nodes, first node = second node) :
    listing.interleave first = listing.interleave second := by
  unfold interleave
  rw [List.flatMap_congr fun node member => congrArg (Except.ok node :: ·) (same node member)]

/-- A node is listed itself or is below one that is. -/
theorem ok_mem_interleave {listing : Listing Node Failure}
    {below : Node → List (Except (Fault Failure) Node)} {found : Node} :
    .ok found ∈ listing.interleave below ↔
      ∃ node ∈ listing.nodes, found = node ∨ .ok found ∈ below node := by
  simp [interleave]

/-- A fault comes from below a node that is listed, or from the listing. -/
theorem error_mem_interleave {listing : Listing Node Failure}
    {below : Node → List (Except (Fault Failure) Node)} {fault : Fault Failure} :
    .error fault ∈ listing.interleave below ↔
      (∃ node ∈ listing.nodes, .error fault ∈ below node) ∨ listing.fault? = some fault := by
  simp [interleave]

/-- A listing breaks off with a fault of its sequence. -/
theorem error_mem_of_upToFault {sequence : List (Except (Fault Failure) Node)}
    {fault : Fault Failure} (breaks : (upToFault sequence).fault? = some fault) :
    .error fault ∈ sequence := by
  rcases eq_map_ok_or_exists_error sequence with ⟨nodes, rfl⟩ | ⟨nodes, first, rest, rfl⟩
  · rw [upToFault_map_ok] at breaks
    cases breaks
  · rw [upToFault_append_error] at breaks
    cases breaks
    exact List.mem_append_right _ List.mem_cons_self

end Listing

namespace Tree

open Listing

variable {children : Node → Listing Node Failure} {region : Set Node}
  {preorder : Node → List (Except (Fault Failure) Node)}

/-- Below each node of a region there are its children, each followed at once by what is below it,
and the fault with which the listing of the children breaks off, if it does. -/
def Unfolds (children : Node → Listing Node Failure) (region : Set Node)
    (preorder : Node → List (Except (Fault Failure) Node)) : Prop :=
  ∀ node ∈ region, preorder node = (children node).interleave preorder

/-- What is below a node down to a depth. -/
def preorderTo (children : Node → Listing Node Failure) :
    Nat → Node → List (Except (Fault Failure) Node)
  | 0, _ => []
  | depth + 1, node => (children node).interleave (preorderTo children depth)

/-- From some depth on there is nothing more below a node. -/
theorem Enclosed.preorderTo_eq (enclosed : Enclosed children region) {node : Node}
    (inside : node ∈ region) {first second : Nat}
    (firstDeep : (beneath children region node).ncard < first)
    (secondDeep : (beneath children region node).ncard < second) :
    preorderTo children first node = preorderTo children second node := by
  induction node, inside using enclosed.induction_on generalizing first second with
  | step node inside lower =>
      obtain ⟨first, rfl⟩ := Nat.exists_eq_succ_of_ne_zero (Nat.ne_zero_of_lt firstDeep)
      obtain ⟨second, rfl⟩ := Nat.exists_eq_succ_of_ne_zero (Nat.ne_zero_of_lt secondDeep)
      apply interleave_congr
      intro kid listed
      have fewer := enclosed.ncard_beneath_lt inside listed
      exact lower kid listed (by omega) (by omega)

/-- In an enclosed region the recursion has a solution. -/
theorem Enclosed.exists_unfolds (enclosed : Enclosed children region) :
    ∃ preorder, Unfolds children region preorder := by
  refine ⟨preorderTo children region.ncard, fun node inside => ?_⟩
  have shallow := enclosed.ncard_beneath_lt_ncard inside
  exact enclosed.preorderTo_eq inside shallow (Nat.lt_succ_of_lt shallow)

namespace Unfolds

/-- In an enclosed region the recursion has one solution at most. -/
theorem eqOn (unfolds : Unfolds children region preorder)
    (enclosed : Enclosed children region) {other : Node → List (Except (Fault Failure) Node)}
    (again : Unfolds children region other) : Set.EqOn other preorder region := by
  intro node inside
  induction node, inside using enclosed.induction_on with
  | step node inside lower =>
      rw [again node inside, unfolds node inside, interleave_congr lower]

/-- What comes below a node is what can be reached from it by going down. -/
theorem ok_mem_iff (unfolds : Unfolds children region preorder)
    (enclosed : Enclosed children region) {node : Node} (inside : node ∈ region) {found : Node} :
    .ok found ∈ preorder node ↔ Relation.TransGen (IsAbove children) node found := by
  induction node, inside using enclosed.induction_on with
  | step node inside lower =>
      rw [unfolds node inside, ok_mem_interleave, Relation.TransGen.head'_iff]
      apply exists_congr
      intro kid
      apply and_congr_right
      intro listed
      rw [lower kid listed, Relation.reflTransGen_iff_eq_or_transGen]

/-- Every fault that comes below a node is one with which a listing breaks off. -/
theorem exists_fault (unfolds : Unfolds children region preorder)
    (enclosed : Enclosed children region) {node : Node} (inside : node ∈ region)
    {fault : Fault Failure} (comes : .error fault ∈ preorder node) :
    ∃ lower ∈ region, (children lower).fault? = some fault := by
  induction node, inside using enclosed.induction_on with
  | step node inside lower =>
      rw [unfolds node inside, error_mem_interleave] at comes
      rcases comes with ⟨kid, listed, comes⟩ | here
      · exact lower kid listed comes
      · exact ⟨node, inside, here⟩

end Unfolds

/-- What is still to come from a stack of unfinished listings, the listing on top first. -/
def pending (preorder : Node → List (Except (Fault Failure) Node))
    (stack : List (Listing Node Failure)) : List (Except (Fault Failure) Node) :=
  stack.flatMap (·.interleave preorder)

theorem pending_nil_cons (stack : List (Listing Node Failure)) :
    pending preorder (⟨[], none⟩ :: stack) = pending preorder stack := rfl

/-- The first node of the listing on top comes next, and then what comes from its children. -/
theorem Unfolds.pending_cons (unfolds : Unfolds children region preorder) {node : Node}
    (inside : node ∈ region) (rest : List Node) (fault? : Option (Fault Failure))
    (stack : List (Listing Node Failure)) :
    pending preorder (⟨node :: rest, fault?⟩ :: stack) =
      .ok node :: pending preorder (children node :: ⟨rest, fault?⟩ :: stack) := by
  rw [pending, pending, List.flatMap_cons, List.flatMap_cons, List.flatMap_cons, interleave_cons,
    ← unfolds node inside, List.cons_append, List.append_assoc]

namespace Unfolds

/-- A stack hands out what is still to come from it up to the first fault, unless its moves are
spent before. It spends one move on each listing that it holds, and two on each node: one to hand
the node out, and one to finish the listing of its children. -/
theorem unwind_cases (unfolds : Unfolds children region preorder)
    (halting : Halting children region) (moves : Nat)
    {stack : List (Listing Node Failure)}
    (inside : ∀ listing ∈ stack, ∀ node ∈ listing.nodes, node ∈ region) :
    let due := upToFault (pending preorder stack)
    Host.unwind children moves stack = due ∨
      moves ≤ stack.length + 2 * due.nodes.length ∧
        (Host.unwind children moves stack).nodes <+: due.nodes := by
  induction moves generalizing stack with
  | zero => exact .inr ⟨Nat.zero_le _, List.nil_prefix⟩
  | succ moves ih =>
      match stack with
      | [] => exact .inl rfl
      | ⟨[], some fault⟩ :: stack => exact .inl rfl
      | ⟨[], none⟩ :: stack =>
          obtain same | ⟨few, front⟩ := ih fun listing held => inside listing (.tail _ held)
          · exact .inl same
          · refine .inr ⟨?_, front⟩
            rw [pending_nil_cons, List.length_cons]
            omega
      | ⟨node :: rest, fault?⟩ :: stack =>
          obtain ⟨top, others⟩ := List.forall_mem_cons.mp inside
          obtain ⟨here, later⟩ := List.forall_mem_cons.mp top
          have held : ∀ listing ∈ children node :: ⟨rest, fault?⟩ :: stack,
              ∀ other ∈ listing.nodes, other ∈ region := by
            rw [List.forall_mem_cons, List.forall_mem_cons]
            exact ⟨(halting node here).2, later, others⟩
          -- There is one listing more to finish now, and one node fewer to come.
          rw [unfolds.pending_cons here, upToFault]
          obtain same | ⟨few, front⟩ := ih held
          · exact .inl (congrArg (cons node) same)
          · refine .inr ⟨?_, List.cons_prefix_cons.mpr ⟨rfl, front⟩⟩
            simp only [List.length_cons, cons] at few ⊢
            omega

/-- The descendants of a node are what comes below it up to the first fault, and that fault as it
is relayed. A search that is given up hands out the first of them. -/
theorem descend_eq (unfolds : Unfolds children region preorder)
    (halting : Halting children region) (patience : Nat) {node : Node} (inside : node ∈ region) :
    let due := upToFault (preorder node)
    (Host.descend patience children node).nodes <+: due.nodes ∧
      (2 * due.nodes.length + 2 ≤ patience →
        Host.descend patience children node = due.relayed) := by
  have whole : pending preorder [children node] = preorder node := by
    rw [pending, List.flatMap_singleton, ← unfolds node inside]
  have cases := unfolds.unwind_cases halting patience
    (List.forall_mem_singleton.mpr (halting node inside).2)
  rw [whole, List.length_singleton] at cases
  obtain same | ⟨few, front⟩ := cases
  · rw [Host.descend, same]
    exact ⟨List.prefix_rfl, fun _ => rfl⟩
  · exact ⟨front, fun enough => absurd few (by omega)⟩

end Unfolds

/-- **Descendants are listed in pre-order, up to the first fault.** In an enclosed region nodes may
hang on several others, and a listing of children may break off before its first child or behind any
other. The recursion that puts below each node its children in order, each followed at once by what
is below it, and at the end the fault of their listing has one solution there. A host that derives
descendants from children lists what comes below a node up to the first fault and breaks off there;
if there is no fault, the host lists everything and ends. It breaks off with that very fault unless
children were answered with the signal that ends listings, which is the one fault that is not let
through. The node itself is not listed. Two moves for each node that is listed and two more are
enough, and with fewer moves nothing else is listed. -/
theorem Enclosed.descendants_in_preorder [Keyed Node] (enclosed : Enclosed children region)
    (parent : Node → Except (Fault Failure) (Option Node)) :
    ∃ preorder : Node → List (Except (Fault Failure) Node),
      Unfolds children region preorder ∧
      (∀ other, Unfolds children region other → Set.EqOn other preorder region) ∧
      ∀ node ∈ region,
        let descendants patience := (Host.ofLinks patience children parent).descendants node
        ∃ nodes : List Node, node ∉ nodes ∧
          (∀ patience, (descendants patience).nodes <+: nodes) ∧
          (preorder node = nodes.map .ok ∧
              (∀ patience, 2 * nodes.length + 2 ≤ patience →
                descendants patience = ⟨nodes, none⟩) ∨
            ∃ fault rest, preorder node = nodes.map .ok ++ .error fault :: rest ∧
              ∀ patience, 2 * nodes.length + 2 ≤ patience →
                descendants patience = ⟨nodes, some fault.relayed⟩ ∧
                  (descendants patience = ⟨nodes, some fault⟩ ↔ fault ≠ .endSignal)) := by
  obtain ⟨preorder, unfolds⟩ := enclosed.exists_unfolds
  refine ⟨preorder, unfolds, fun other again => unfolds.eqOn enclosed again, ?_⟩
  intro node inside descendants
  have descends patience := unfolds.descend_eq enclosed.halting patience inside
  have apart : .ok node ∉ preorder node := fun listed =>
    enclosed.acyclic node inside ((unfolds.ok_mem_iff enclosed inside).mp listed)
  rcases eq_map_ok_or_exists_error (preorder node) with ⟨nodes, whole⟩ | ⟨nodes, fault, rest, split⟩
  · simp only [whole, upToFault_map_ok] at descends apart
    refine ⟨nodes, fun listed => apart (List.mem_map_of_mem listed), fun patience => ?_, ?_⟩
    · exact (descends patience).1
    · exact .inl ⟨whole, fun patience => (descends patience).2⟩
  · simp only [split, upToFault_append_error] at descends apart
    refine ⟨nodes, fun listed => apart ?_, fun patience => (descends patience).1, ?_⟩
    · exact List.mem_append_left _ (List.mem_map_of_mem listed)
    · refine .inr ⟨fault, rest, split, fun patience enough => ?_⟩
      have broken : descendants patience = ⟨nodes, some fault.relayed⟩ :=
        (descends patience).2 enough
      refine ⟨broken, ?_⟩
      rw [broken, Listing.mk.injEq, Option.some.injEq, Fault.relayed_eq_self_iff]
      exact and_iff_right rfl

end Tree

end TreeQuery

namespace TreeQuery.Thicket

/-! ### A thicket

The value that stands for nothing is among its nodes, one node hangs on two others, and one listing
of children breaks off before its last child.
-/

def stem (index : Nat) : Value :=
  .node (.object index) (.identity (.object index))

def table : Adapter :=
  .table [(stem 0, [.node (stem 1), .node .null, .node (stem 2), .node (stem 3)]),
    (stem 1, [.node (stem 4), .node .null]),
    (stem 2, [.node (stem 4), .failing 7, .node (stem 3)])] []

def host (patience : Nat) : Host Value Failure :=
  ({} : World).host patience table

def region : Set Value :=
  {stem 0, stem 1, stem 2, stem 3, stem 4, .null}

/-- What the table lists. -/
def children (node : Value) : Listing Value Failure :=
  match node.place? with
  | some (.object 0) => ⟨[stem 1, .null, stem 2, stem 3], none⟩
  | some (.object 1) => ⟨[stem 4, .null], none⟩
  | some (.object 2) => ⟨[stem 4], some (.raised (.hostChild 7))⟩
  | _ => .empty

theorem host_eq (patience : Nat) :
    host patience = .ofLinks patience children fun _ => .ok none := by
  have listed : (host patience).children = children := by
    funext node
    have known : ∀ index,
        World.same node (stem index) = (node.place? == some (.object index)) := by
      intro index
      unfold World.same
      cases node.place? <;> rfl
    simp only [host, World.host, table, Host.ofLinks, List.find?_cons, known, children]
    rcases node.place? with _ | _ | (_ | _ | _ | index)
    all_goals rfl
  rw [← listed]
  rfl

/-- In the thicket children have fewer children. -/
theorem length_children_lt (above below : Value) (listed : Tree.IsAbove children above below) :
    (children below).nodes.length < (children above).nodes.length := by
  unfold Tree.IsAbove at listed
  generalize same : children above = listing at listed ⊢
  unfold children at same
  revert below
  split at same <;> subst same <;> decide

theorem enclosed : Tree.Enclosed children region where
  finite := by
    unfold region
    exact Set.toFinite _
  halting := by
    rintro node (rfl | rfl | rfl | rfl | rfl | rfl) <;>
      simp [children, region, stem, Value.place?, Listing.empty]
  acyclic := fun node _ => Tree.not_transGen_self_of_rank _ length_children_lt node

/-- From the top the listing that breaks off is met. Below a node in front of it everything is
listed. -/
theorem descendants_of_thicket :
    Tree.Enclosed (host 14).children region ∧
      (host 14).descendants (stem 0) =
        ⟨[stem 1, stem 4, .null, .null, stem 2, stem 4], some (.raised (.hostChild 7))⟩ ∧
      (host 14).descendants (stem 1) = ⟨[stem 4, .null], none⟩ := by
  obtain ⟨preorder, -, unique, descends⟩ := enclosed.descendants_in_preorder fun _ => .ok none
  have computed : Tree.Unfolds children region (Tree.preorderTo children 3) := by
    rintro node (rfl | rfl | rfl | rfl | rfl | rfl) <;> rfl
  have handed : ∀ node ∈ region, ∀ listing : Listing Value Failure,
      Listing.upToFault (Tree.preorderTo children 3 node) = listing →
        2 * listing.nodes.length + 2 ≤ 14 → (host 14).descendants node = listing.relayed := by
    intro node inside listing due patient
    rw [unique _ computed inside] at due
    rw [host_eq]
    obtain ⟨nodes, -, -, ⟨whole, ends⟩ | ⟨fault, rest, split, ends⟩⟩ := descends node inside
    · rw [whole, Listing.upToFault_map_ok] at due
      subst due
      exact ends 14 patient
    · rw [split, Listing.upToFault_append_error] at due
      subst due
      exact (ends 14 patient).1
  refine ⟨?_, handed _ (.inl rfl) _ rfl ?_, handed _ (.inr (.inl rfl)) _ rfl ?_⟩
  · rw [host_eq]
    exact enclosed
  · exact Nat.le_refl _
  · decide

/-- The same children, but for one node whose children cannot be asked for, since the signal that
ends listings is raised instead. -/
def signalling (node : Value) : Listing Value Failure :=
  if node.place? = some (.object 2) then .failed .endSignal else children node

theorem signalling_enclosed : Tree.Enclosed signalling region where
  finite := enclosed.finite
  halting := by
    intro node inside
    unfold signalling
    split
    · exact ⟨nofun, nofun⟩
    · exact enclosed.halting node inside
  acyclic := by
    intro node _
    apply Tree.not_transGen_self_of_rank fun node => (children node).nodes.length
    intro above below listed
    unfold Tree.IsAbove signalling at listed
    split at listed
    · exact absurd listed List.not_mem_nil
    · exact length_children_lt above below listed

/-- The signal is the first fault of the sequence, but what the host breaks off with is another. -/
theorem signal_is_replaced :
    let host patience : Host Value Failure := .ofLinks patience signalling fun _ => .ok none
    let preorder := Tree.preorderTo signalling 3
    Tree.Enclosed signalling region ∧ Tree.Unfolds signalling region preorder ∧
      preorder (stem 0) = [stem 1, stem 4, .null, .null, stem 2].map .ok ++
        [.error .endSignal, .ok (stem 3)] ∧
      ∀ patience, 12 ≤ patience →
        (host patience).descendants (stem 0) =
          ⟨[stem 1, stem 4, .null, .null, stem 2], some .strayEndSignal⟩ ∧
        (host patience).descendants (stem 0) ≠ Listing.upToFault (preorder (stem 0)) := by
  intro host preorder
  have unfolds : Tree.Unfolds signalling region preorder := by
    rintro node (rfl | rfl | rfl | rfl | rfl | rfl) <;> rfl
  refine ⟨signalling_enclosed, unfolds, rfl, fun patience patient => ?_⟩
  have broken : (host patience).descendants (stem 0) =
      ⟨[stem 1, stem 4, .null, .null, stem 2], some .strayEndSignal⟩ :=
    (unfolds.descend_eq signalling_enclosed.halting patience (.inl rfl)).2 patient
  refine ⟨broken, ?_⟩
  rw [broken]
  exact nofun

end TreeQuery.Thicket
