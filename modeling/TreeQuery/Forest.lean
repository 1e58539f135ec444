import TreeQuery.Host
import TreeQuery.Value

/-! # Forests

A forest holds member nodes with links in both directions: each member lists its children and knows
its parent. Members are planted one by one, each with an identifier of its own unless it brings
one. The parent of a member is a member, while objects from outside the forest may stand among the
children of a member. A walk goes down from a member and breaks off at the first such object.
-/

namespace TreeQuery

/-- A node of a forest. The parent is given by its position in the forest. -/
structure Member where
  name : Value
  kind : Value
  identifier : String
  attributes : List (String × Value) := []
  parent? : Option Nat := none
  children : List Place := []
  deriving Inhabited, Repr

/-- Member nodes in the order in which they were planted, and the number that the next identifier
takes. -/
structure Forest where
  members : Array Member := #[]
  nextIdentifier : Nat := 1
  deriving Inhabited, Repr

namespace Forest

def parent? (forest : Forest) (index : Nat) : Option Nat :=
  forest.members[index]?.bind Member.parent?

def children (forest : Forest) (index : Nat) : List Place :=
  (forest.members[index]?.map Member.children).getD []

def adopt (forest : Forest) (parent : Nat) (child : Place) : Forest :=
  { forest with
    members := forest.members.modify parent fun member =>
      { member with children := member.children ++ [child] } }

def setParent (forest : Forest) (child parent : Nat) : Forest :=
  { forest with
    members := forest.members.modify child fun member => { member with parent? := some parent } }

def link (forest : Forest) (parent child : Nat) : Forest :=
  (forest.setParent child parent).adopt parent (.member child)

/-- The identifier that a generated number stands for. -/
def generated (number : Nat) : String :=
  "n" ++ toString number

/-- Adds a member without relatives. Only a member that brings no identifier takes a generated one,
and with it the number. -/
def sprout (forest : Forest) (name kind : Value) (identifier? : Option String)
    (attributes : List (String × Value)) : Forest :=
  match identifier? with
  | some identifier =>
      { forest with
        members := forest.members.push ⟨name, kind, identifier, attributes, none, []⟩ }
  | none =>
      { members := forest.members.push
          ⟨name, kind, generated forest.nextIdentifier, attributes, none, []⟩
        nextIdentifier := forest.nextIdentifier + 1 }

/-- A member followed by its descendants down to a depth, each before its own descendants. The walk
breaks off at an object from outside the forest. -/
def walkTo (forest : Forest) : Nat → Nat → Listing Nat Place
  | 0, _ => .failed .exhausted
  | depth + 1, index =>
      .cons index (.concat ((forest.children index).map fun child => match child with
        | .member index => forest.walkTo depth index
        | stranger => .failed (.raised stranger)))

/-- A member followed by its descendants, each before its own. No chain of children is longer than
the number of members unless it returns to where it was. -/
def walk (forest : Forest) (index : Nat) : Listing Nat Place :=
  forest.walkTo forest.members.size index

/-- Whether a member has a name that equals the given value. -/
def isCalled (forest : Forest) (name : Value) (index : Nat) : Bool :=
  forest.members[index]?.any fun member => member.name.equals name

/-- The first member of a walk that has the given name. -/
def find? (forest : Forest) (index : Nat) (name : Value) :
    Except (Fault Place) (Option Nat) :=
  (forest.walk index).find? (forest.isCalled name)

/-- Only the child that is linked changes its parent. -/
theorem parent?_link (forest : Forest) (parent child index : Nat) :
    (forest.link parent child).parent? index =
      if index = child ∧ index < forest.members.size then some parent
      else forest.parent? index := by
  simp only [Forest.parent?, link, setParent, adopt, Array.getElem?_modify]
  by_cases present : index < forest.members.size
  · by_cases same : child = index <;> by_cases above : parent = index <;>
      simp_all [Option.map, eq_comm]
  · simp_all
    omega

/-- Only the parent changes its children, of which the new one is the last. -/
theorem children_link (forest : Forest) (parent child index : Nat) :
    (forest.link parent child).children index =
      if index = parent ∧ index < forest.members.size then
        forest.children index ++ [.member child]
      else forest.children index := by
  simp only [children, link, setParent, adopt, Array.getElem?_modify]
  by_cases present : index < forest.members.size
  · by_cases same : child = index <;> by_cases above : parent = index <;>
      simp_all [eq_comm]
  · simp_all
    omega

end Forest

end TreeQuery
