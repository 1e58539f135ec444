import TreeQuery.Frontier

/-! # Hosts

A navigation sees a tree only through a host, which lists the children, the descendants and the
siblings of a node and names its parent. A listing may break off with a failure; the nodes before
it have been handed out by then. A host that knows only children and parents derives the other two:
siblings from the children of the parent, descendants by walking down with a stack of unfinished
listings, so that the depth of a tree does not matter. What goes wrong in a listing that is derived
comes out of it as it is, but for the signal that ends listings, in whose place another fault comes
out. A host may be guarded against nodes that cannot be told apart from others; it breaks off where
it would hand out one.
-/

namespace TreeQuery

/-- Why a computation ended without a result: something outside failed, a path had no step where
one was due, or a search was given up. The signal that ends a listing is a fault too where no
listing is under way yet, as when a host raises it while it is asked for children. A listing that
is derived from such children breaks off with the last fault instead. -/
inductive Fault (Failure : Type) where
  | raised (failure : Failure)
  | missingStep (index : Nat)
  | exhausted
  | endSignal
  | strayEndSignal
  deriving DecidableEq, Repr

namespace Fault

variable {Failure : Type}

/-- The same fault with another failure for the one outside. -/
def map {Other : Type} (change : Failure → Other) : Fault Failure → Fault Other
  | raised failure => raised (change failure)
  | missingStep index => missingStep index
  | exhausted => exhausted
  | endSignal => endSignal
  | strayEndSignal => strayEndSignal

/-- A fault as it comes out of a derived listing. The signal that ends listings is not let through,
since whoever walks the derived one would take it for complete. -/
def relayed : Fault Failure → Fault Failure
  | endSignal => strayEndSignal
  | fault => fault

theorem relayed_eq_self_iff {fault : Fault Failure} : fault.relayed = fault ↔ fault ≠ endSignal := by
  cases fault <;> simp [relayed]

theorem relayed_eq_exhausted_iff {fault : Fault Failure} :
    fault.relayed = exhausted ↔ fault = exhausted := by
  cases fault <;> simp [relayed]

end Fault

/-- The nodes handed out one after the other, and the fault that broke the listing off, if any. -/
structure Listing (Node Failure : Type) where
  nodes : List Node
  fault? : Option (Fault Failure) := none
  deriving DecidableEq, Repr

namespace Listing

variable {Node Failure : Type}

def empty : Listing Node Failure := ⟨[], none⟩

def failed (fault : Fault Failure) : Listing Node Failure := ⟨[], some fault⟩

/-- Hands out one more node before all others. -/
def cons (node : Node) (rest : Listing Node Failure) : Listing Node Failure :=
  ⟨node :: rest.nodes, rest.fault?⟩

/-- Hands out the accepted nodes only. -/
def filter (accepts : Node → Bool) (listing : Listing Node Failure) : Listing Node Failure :=
  ⟨listing.nodes.filter accepts, listing.fault?⟩

/-- Hands out the nodes of one listing and, unless it breaks off, those of another. -/
def append (first second : Listing Node Failure) : Listing Node Failure :=
  match first.fault? with
  | none => ⟨first.nodes ++ second.nodes, second.fault?⟩
  | some fault => ⟨first.nodes, some fault⟩

/-- Hands out the nodes of several listings in order, up to the first that breaks off. -/
def concat (listings : List (Listing Node Failure)) : Listing Node Failure :=
  listings.foldr append empty

/-- Hands out the nodes of a list up to the first that is refused. -/
def admitted (refusal? : Node → Option (Fault Failure)) : List Node → Listing Node Failure
  | [] => empty
  | node :: rest => match refusal? node with
      | some fault => failed fault
      | none => cons node (admitted refusal? rest)

/-- A listing as it comes out of one that is derived from it. -/
def relayed (listing : Listing Node Failure) : Listing Node Failure :=
  ⟨listing.nodes, listing.fault?.map Fault.relayed⟩

/-- Breaks a listing off at the first node that is refused. -/
def guarded (refusal? : Node → Option (Fault Failure)) (listing : Listing Node Failure) :
    Listing Node Failure :=
  (admitted refusal? listing.nodes).append ⟨[], listing.fault?⟩

/-- The first node of a listing that passes a test. A listing that breaks off before has its fault
instead. -/
def find? (accepts : Node → Bool) (listing : Listing Node Failure) :
    Except (Fault Failure) (Option Node) :=
  match listing.nodes.find? accepts, listing.fault? with
  | none, some fault => .error fault
  | found?, _ => .ok found?

/-- All nodes of a listing that ends, or the fault of one that does not. -/
def toExcept (listing : Listing Node Failure) : Except (Fault Failure) (List Node) :=
  match listing.fault? with
  | none => .ok listing.nodes
  | some fault => .error fault

theorem admitted_none (nodes : List Node) :
    admitted (fun _ => none) nodes = (⟨nodes, none⟩ : Listing Node Failure) := by
  induction nodes with
  | nil => rfl
  | cons node rest ih => rw [admitted, ih]; rfl

theorem guarded_none (listing : Listing Node Failure) :
    listing.guarded (fun _ => none) = listing := by
  rw [guarded, admitted_none]
  simp [append]

theorem fault?_relayed_eq_exhausted_iff {listing : Listing Node Failure} :
    listing.relayed.fault? = some .exhausted ↔ listing.fault? = some .exhausted := by
  simp [relayed, Fault.relayed_eq_exhausted_iff]

end Listing

/-- What a navigation may ask about a node. -/
inductive Relation where
  | children
  | descendants
  | siblings
  | parent
  deriving DecidableEq, Repr

/-- A tree as a navigation sees it. -/
structure Host (Node Failure : Type) where
  children : Node → Listing Node Failure
  descendants : Node → Listing Node Failure
  siblings : Node → Listing Node Failure
  parent : Node → Except (Fault Failure) (Option Node)

namespace Host

variable {Node Failure : Type}

/-- The nodes that stand in a relation to a node, of which a parent is at most one. -/
def related (host : Host Node Failure) (relation : Relation) (node : Node) :
    Listing Node Failure :=
  match relation with
  | .children => host.children node
  | .descendants => host.descendants node
  | .siblings => host.siblings node
  | .parent => match host.parent node with
      | .ok parent => ⟨parent.toList, none⟩
      | .error fault => .failed fault

/-- Hands out what a stack of unfinished listings holds, top first, and puts the children of each
node on top as soon as the node is handed out. The number bounds the moves of the stack. -/
def unwind (children : Node → Listing Node Failure) :
    Nat → List (Listing Node Failure) → Listing Node Failure
  | 0, _ => .failed .exhausted
  | _ + 1, [] => .empty
  | _ + 1, ⟨[], some fault⟩ :: _ => .failed fault
  | moves + 1, ⟨[], none⟩ :: stack => unwind children moves stack
  | moves + 1, ⟨node :: rest, fault?⟩ :: stack =>
      .cons node (unwind children moves (children node :: ⟨rest, fault?⟩ :: stack))

/-- The children of a node, each followed at once by its own descendants. -/
def descend (patience : Nat) (children : Node → Listing Node Failure) (node : Node) :
    Listing Node Failure :=
  (unwind children patience [children node]).relayed

/-- The children of the parent of a node whose keys differ from the key of the node. -/
def besides [Keyed Node] (children : Node → Listing Node Failure)
    (parent : Node → Except (Fault Failure) (Option Node)) (node : Node) :
    Listing Node Failure :=
  let listed : Listing Node Failure := match parent node with
    | .error fault => .failed fault
    | .ok none => .empty
    | .ok (some above) =>
        (children above).filter fun sibling => Keyed.key sibling ≠ Keyed.key node
  listed.relayed

/-- The host with the given children and parents and the derived descendants and siblings. A search
for descendants is given up when its patience is spent. -/
def ofLinks [Keyed Node] (patience : Nat) (children : Node → Listing Node Failure)
    (parent : Node → Except (Fault Failure) (Option Node)) : Host Node Failure where
  children := children
  descendants := descend patience children
  siblings := besides children parent
  parent := parent

/-- The same host, which does not hand out refused nodes but breaks off at them. -/
def guarded (refusal? : Node → Option (Fault Failure)) (host : Host Node Failure) :
    Host Node Failure where
  children node := (host.children node).guarded refusal?
  descendants node := (host.descendants node).guarded refusal?
  siblings node := (host.siblings node).guarded refusal?
  parent node := match host.parent node with
    | .ok (some above) => match refusal? above with
        | some fault => .error fault
        | none => .ok (some above)
    | outcome => outcome

theorem guarded_none (host : Host Node Failure) : host.guarded (fun _ => none) = host := by
  rcases host with ⟨children, descendants, siblings, parent⟩
  simp only [guarded, Listing.guarded_none, mk.injEq, true_and]
  funext node
  split <;> simp_all

end Host

end TreeQuery
