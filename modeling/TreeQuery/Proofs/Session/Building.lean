import TreeQuery.Proofs.Session.Quiet
import TreeQuery.Session.Build

/-! # Building leaves collections alone

Planting members, putting objects and parsed nodes into the world and setting attributes change the
world and the tags only. This holds for what was done before a failure as well: a tree of which a
node is refused has left its earlier nodes in the world, and every collection as it was.
-/

namespace TreeQuery.Session

variable {held : Holdings}

/-- Neither registers nor collections are part of the world. -/
theorem setWorld_quiet (world : World) : Quiet held (setWorld world) anything :=
  .modify fun _ => ⟨rfl, rfl⟩

/-- Looking for a member only reads the session. -/
theorem memberFor_quiet (wanted : String) (node : Value) :
    Quiet held (memberFor wanted node) anything := by
  rw [memberFor.eq_def]
  split
  · exact .pure trivial
  · exact .get_bind fun _ _ => .fail _

/-- Refusing a child only reads the session, for the message that names it. -/
theorem refuseChild_quiet {α : Type} (refused : AttachError) :
    Quiet held (refuseChild refused : Act α) anything := by
  refine .get_bind fun _ _ => ?_
  split
  · exact .fail _
  · exact .fail _

/-- A planted member changes the world and the tags, also when one of its children is refused. -/
theorem plantMember_quiet (tag : String) (name kind : Value) (identifier? : Option String)
    (attributes : List (String × Value)) (children : List Value) :
    Quiet held (plantMember tag name kind identifier? attributes children) anything := by
  refine .get_bind fun _ _ => (setWorld_quiet _).bind fun _ _ => ?_
  split
  · exact (bindTag_quiet _ _).bind fun _ _ => .pure trivial
  · exact refuseChild_quiet _

/-- A child that is attached changes the world only, and one that is refused nothing. -/
theorem attachChild_quiet (parent : Nat) (child : Value) :
    Quiet held (attachChild parent child) anything := by
  refine .get_bind fun _ _ => ?_
  split
  · exact setWorld_quiet _
  · exact refuseChild_quiet _

/-- A member grown under another is planted and then attached. -/
theorem growMember_quiet (tag : String) (name kind : Value) (parent : Nat) :
    Quiet held (growMember tag name kind parent) anything :=
  (plantMember_quiet _ _ _ _ _ _).bind fun _ _ => .get_bind fun _ _ =>
    (attachChild_quiet _ _).bind fun _ _ => .pure trivial

mutual

/-- Planting a tree is quiet, since planting its children and its root is. -/
theorem plantTree_quiet (tree : TreeExpr) : Quiet held (plantTree tree) anything := by
  cases tree with
  | node tag name kind children =>
      rw [plantTree]
      exact (plantTrees_quiet children).bind fun _ _ => (newObject_quiet _).bind fun _ _ =>
        (newObject_quiet _).bind fun _ _ => (plantMember_quiet _ _ _ _ _ _).bind fun _ _ =>
          .read _

/-- Planting several trees is quiet, also when a later one fails. -/
theorem plantTrees_quiet (trees : List TreeExpr) : Quiet held (plantTrees trees) anything := by
  cases trees with
  | nil => exact .pure trivial
  | cons tree rest =>
      rw [plantTrees]
      exact (plantTree_quiet tree).bind fun _ _ => (plantTrees_quiet rest).bind fun _ _ =>
        .pure trivial

end

theorem identifierOf_quiet (node : Value) : Quiet held (identifierOf node) anything :=
  .read _

/-- Each member of a chain is grown under the one before. -/
theorem plantChain_quiet (as : String) (length : Nat) (kind : Value) :
    Quiet held (plantChain as length kind) anything := by
  refine (newObject_quiet kind).bind fun kind _ => (newObject_quiet _).bind fun _ _ =>
    (plantMember_quiet _ _ _ _ _ _).bind fun _ _ => Quiet.bind (.foldlM _ ?_) fun _ _ => .read _
  exact fun _ _ _ => (newObject_quiet _).bind fun _ _ => growMember_quiet _ _ _ _

/-- The levels of a wide tree are three loops in which nothing is done but growing members. -/
theorem plantLevels_quiet (as : String) (fanout depth : Nat) :
    Quiet held (plantLevels as fanout depth) anything := by
  refine (newObject_quiet _).bind fun _ _ => (plantMember_quiet _ _ _ _ _ _).bind fun _ _ =>
    Quiet.bind (.foldlM _ fun state _ _ => ?_) fun _ _ => .read _
  obtain ⟨above, number, last⟩ := state
  refine Quiet.bind (.foldlM _ fun state parent _ => ?_) fun _ _ => .pure trivial
  obtain ⟨grown, number, last⟩ := state
  refine .foldlM _ fun state _ _ => ?_
  obtain ⟨grown, number, last⟩ := state
  exact (newObject_quiet _).bind fun _ _ => (growMember_quiet _ _ _ _).bind fun _ _ => .pure trivial

/-- An object put beside the forest changes the world and the tags. -/
theorem putThing_quiet (tag : String) (thing : Thing) :
    Quiet held (putThing tag thing) anything :=
  .get_bind fun _ _ => (setWorld_quiet _).bind fun _ _ => (bindTag_quiet _ _).bind fun _ _ =>
    .pure trivial

/-- A syntax node does so too, and without a tag the world only. -/
theorem putParsed_quiet (tag? : Option String) (kind : SyntaxClass)
    (attributes : List (String × Value)) :
    Quiet held (putParsed tag? kind attributes) anything := by
  refine .get_bind fun _ _ => (setWorld_quiet _).bind fun _ _ => ?_
  dsimp only
  split
  · exact (bindTag_quiet _ _).bind fun _ _ => .pure trivial
  · exact .pure_bind (.pure trivial)

mutual

/-- Building a field of a syntax node puts the nodes in it into the world. -/
theorem buildField_quiet (fromSource isName : Bool) (field : SyntaxExpr) :
    Quiet held (buildField fromSource isName field) anything := by
  cases field with
  | null => exact .pure trivial
  | text text =>
      rw [buildField]
      split
      · exact .pure trivial
      · exact newObject_quiet _
  | literal written => exact newObject_quiet _
  | reference tag => exact node_quiet _
  | list items =>
      rw [buildField]
      exact (buildFields_quiet _ _ items).bind fun _ _ => newObject_quiet _
  | node tag? className fields =>
      rw [buildField]
      refine (buildEntries_quiet _ fields).bind fun _ _ => .get_bind fun _ _ => ?_
      split
      · exact .pure trivial
      · exact putParsed_quiet _ _ _

theorem buildFields_quiet (fromSource isName : Bool) (items : List SyntaxExpr) :
    Quiet held (buildFields fromSource isName items) anything := by
  cases items with
  | nil => exact .pure trivial
  | cons item rest =>
      rw [buildFields]
      exact (buildField_quiet _ _ item).bind fun _ _ => (buildFields_quiet _ _ rest).bind fun _ _ =>
        .pure trivial

/-- Building all fields is quiet, also when a later one fails. -/
theorem buildEntries_quiet (fromSource : Bool) (fields : List (String × SyntaxExpr)) :
    Quiet held (buildEntries fromSource fields) anything := by
  cases fields with
  | nil => exact .pure trivial
  | cons entry rest =>
      obtain ⟨name, field⟩ := entry
      rw [buildEntries]
      exact (buildField_quiet _ _ field).bind fun _ _ =>
        (buildEntries_quiet _ rest).bind fun _ _ => .pure trivial

end

/-- What an attribute is set to is looked up or made, but no collection is. -/
theorem evalAttribute_quiet (expression : AttributeExpr) :
    Quiet held (evalAttribute expression) anything := by
  cases expression with
  | node tag? => exact node_quiet _
  | nodes tags =>
      exact (Quiet.mapM fun _ _ => node_quiet _).bind fun _ _ => newObject_quiet _
  | tuple tags =>
      exact (Quiet.mapM fun _ _ => node_quiet _).bind fun _ _ => newObject_quiet _
  | value value => exact newObject_quiet _

/-- Setting attributes changes the world only, up to the first that fails. -/
theorem setAttributes_quiet (node : Value) (attributes : List (String × AttributeExpr)) :
    Quiet held (setAttributes node attributes) anything := by
  rw [setAttributes]
  refine .forM fun entry _ => ?_
  refine (evalAttribute_quiet entry.2).bind fun _ _ => ?_
  split
  · exact .get_bind fun _ _ => setWorld_quiet _
  · exact .get_bind fun _ _ => .fail _

end TreeQuery.Session
