import TreeQuery.Path

/-! # Induction over paths

Paths contain lists of paths. What holds of a composite as soon as it holds of all its parts, and of
the paths without parts, holds of every path.
-/

namespace TreeQuery.Path

variable {Leaf : Type}

/-- Induction over a path, with what is to be shown known of all parts of a composite. -/
@[elab_as_elim]
theorem induct {motive : Path Leaf → Prop}
    (simple : ∀ steps, motive (simple steps))
    (union : ∀ delegates, (∀ delegate ∈ delegates, motive delegate) → motive (union delegates))
    (exclusion : ∀ base excluded, motive base → (∀ path ∈ excluded, motive path) →
      motive (exclusion base excluded))
    (chain : ∀ links, (∀ link ∈ links, motive link) → motive (chain links))
    (traced : ∀ title body, motive body → motive (traced title body))
    (stray : ∀ operand?, motive (stray operand?)) (path : Path Leaf) : motive path :=
  @Path.rec Leaf motive (fun paths => ∀ path ∈ paths, motive path) simple union exclusion chain
    traced stray (fun _ member => absurd member List.not_mem_nil)
    (fun _ _ first others _ member => (List.mem_cons.mp member).elim (· ▸ first) (others _)) path

end TreeQuery.Path
