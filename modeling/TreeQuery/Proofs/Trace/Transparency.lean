import TreeQuery.Proofs.Navigation.Congruence
import TreeQuery.Proofs.Navigation.Steps
import TreeQuery.Proofs.Run.Alike

/-! # Tracing is transparent

What a navigation finds, how it fails, and what it asks of predicates and of the host do not depend
on which parts of its path are traced, under which titles, and where the trace goes
(`TreeQuery.Path.navigate_alike`). The argument goes over the path without its titles, which both
runs are alike to, missing steps and failures included.
-/

namespace TreeQuery

variable {Node Leaf Failure : Type} [Keyed Node] {first second : Sink Failure}

namespace Path

/-- A path runs like the path without its titles. -/
theorem run_alike_untraced (accepts : first.Accepts) (takes : second.Accepts)
    (setting : Setting Node Leaf Failure) (path : Path Leaf) (start : Frontier Node) :
    (path.run (setting.reporting first) start).Alike
      (path.untraced.run (setting.reporting second) start) := by
  have related := (Run.Alike.traceCongruence accepts takes id).run_untraced setting path start
  rw [path.retitled_id] at related
  exact related

/-- **Tracing is transparent.** Two paths that differ only in what is traced and under which titles,
run with two sinks that take every line, end in the same way and make the same calls in the same
order, whether or not they fail. -/
theorem navigate_alike {left right : Path Leaf} (accepts : first.Accepts)
    (takes : second.Accepts) (same : left.untraced = right.untraced)
    (setting : Setting Node Leaf Failure) (start : List Node) {before other : Journal Node Leaf}
    (calls : before.calls = other.calls) :
    let here := (left.navigate (setting.reporting first) start).perform before
    let there := (right.navigate (setting.reporting second) start).perform other
    here.1 = there.1 ∧ here.2.calls = there.2.calls := by
  -- Both runs are alike to the run of the path that they have in common.
  have forth := run_alike_untraced accepts takes setting left (.ofList start)
  have back := run_alike_untraced takes takes setting right (.ofList start)
  rw [same] at forth
  exact (forth.trans back.symm) before other calls

end Path

end TreeQuery

namespace TreeQuery.Grove

/-- In the grove, traced in its parts or as a whole. -/
theorem detour_alike :
    let here := ((detour (.traced "part")).navigate (setting.reporting .accepting)
      [spot 0 "r"]).perform {}
    let there := ((Path.traced "whole" (detour id)).navigate (setting.reporting .accepting)
      [spot 0 "r"]).perform { active := true }
    here.1 = there.1 ∧ here.2.calls = there.2.calls := by
  apply Path.navigate_alike
  · exact fun _ _ => rfl
  · exact fun _ _ => rfl
  · rfl
  · rfl

end TreeQuery.Grove
