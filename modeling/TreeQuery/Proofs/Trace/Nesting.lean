import TreeQuery.Trace

/-! # Nested lines

The lines that open and close a traced section or an exclusion are marks, to be matched like
brackets. Followed line by line, a trace keeps a stack of what it has opened and not closed yet;
it is nested when no line closes anything but the innermost open mark and nothing is left open.
Lines that are nested stay so within whatever is open around them
(`TreeQuery.Line.Nested.foldlM_follow`).
-/

namespace TreeQuery

/-- What a trace may have opened. -/
inductive Mark where
  | path (title : String)
  | exclusion
  deriving DecidableEq, Repr

/-- The marks still open when one of them is closed, innermost first. -/
def Mark.close (mark : Mark) : List Mark → Option (List Mark)
  | [] => none
  | innermost :: outer => if innermost = mark then some outer else none

/-- The innermost mark can be closed. -/
theorem Mark.close_cons_self (mark : Mark) (outer : List Mark) :
    mark.close (mark :: outer) = some outer :=
  if_pos rfl

/-- Closing a mark does not depend on what is open further out. -/
theorem Mark.close_append {mark : Mark} {opened later : List Mark}
    (closed : mark.close opened = some later) (outer : List Mark) :
    mark.close (opened ++ outer) = some (later ++ outer) := by
  cases opened with
  | nil => cases closed
  | cons innermost rest =>
      rw [close] at closed
      by_cases same : innermost = mark
      · rw [if_pos same] at closed
        cases closed
        exact if_pos same
      · rw [if_neg same] at closed
        cases closed

namespace Line

/-- The marks open after a line, innermost first, unless the line closes what is not innermost. -/
def follow (opened : List Mark) : Line → Option (List Mark)
  | beginPath title => some (.path title :: opened)
  | endPath title => (Mark.path title).close opened
  | beginExclusion => some (.exclusion :: opened)
  | endExclusion => Mark.exclusion.close opened
  | step _ _ | abort | note _ => some opened

/-- Whether a line opens or closes an exclusion. -/
def isExclusion : Line → Bool
  | beginExclusion | endExclusion => true
  | _ => false

/-- A line with other titles of paths. -/
def retitled (names : String → String) : Line → Line
  | beginPath title => beginPath (names title)
  | endPath title => endPath (names title)
  | line => line

/-- Lines that close every mark they open, the innermost first, and no other. -/
def Nested (lines : List Line) : Prop := lines.foldlM follow [] = some []

instance : DecidablePred Nested := fun lines =>
  inferInstanceAs (Decidable (lines.foldlM follow [] = some []))

/-- Lines that are nested as far as the marks of paths go. -/
def PathsNested (lines : List Line) : Prop := Nested (lines.filter fun line => !line.isExclusion)

/-- Lines that fall into traced sections, so that each has the opening line of one before it and the
closing line behind it, or is one of the two. -/
def Sectioned (lines : List Line) : Prop :=
  ∃ parts : List (String × List Line),
    (∀ part ∈ parts, PathsNested part.2) ∧
      lines = parts.flatMap fun (title, body) => beginPath title :: body ++ [endPath title]

/-- What a line does to the open marks does not depend on those further out. -/
theorem follow_append {line : Line} {opened later : List Mark}
    (followed : line.follow opened = some later) (outer : List Mark) :
    line.follow (opened ++ outer) = some (later ++ outer) := by
  cases line with
  | endPath title => exact Mark.close_append followed outer
  | endExclusion => exact Mark.close_append followed outer
  | _ =>
      cases followed
      rfl

/-- Lines that can be followed can be followed within whatever is open around them. -/
theorem foldlM_follow_append {lines : List Line} {opened later : List Mark}
    (followed : lines.foldlM follow opened = some later) (outer : List Mark) :
    lines.foldlM follow (opened ++ outer) = some (later ++ outer) := by
  induction lines generalizing opened with
  | nil =>
      cases followed
      rfl
  | cons line rest ih =>
      rw [List.foldlM_cons] at followed ⊢
      obtain ⟨middle, first, further⟩ := Option.bind_eq_some_iff.mp followed
      rw [follow_append first outer]
      exact ih further

namespace Nested

/-- Nested lines leave the marks open around them as they are. -/
theorem foldlM_follow {lines : List Line} (nested : Nested lines) (opened : List Mark) :
    lines.foldlM follow opened = some opened := by
  have framed := foldlM_follow_append nested opened
  rw [List.nil_append] at framed
  exact framed

theorem nil : Nested [] := rfl

/-- Nested lines behind nested lines are nested. -/
theorem append {first second : List Line} (before : Nested first) (after : Nested second) :
    Nested (first ++ second) := by
  rw [Nested, List.foldlM_append, before]
  exact after

/-- Nested lines stay nested between two lines of which the second closes what the first opens. -/
theorem wrap {opening closing : Line} {mark : Mark} {body : List Line}
    (opens : opening.follow [] = some [mark]) (closes : closing.follow [mark] = some [])
    (nested : Nested body) : Nested (opening :: body ++ [closing]) := by
  rw [Nested, List.cons_append, List.foldlM_cons, opens]
  change (body ++ [closing]).foldlM follow [mark] = some []
  rw [List.foldlM_append, nested.foldlM_follow]
  change [closing].foldlM follow [mark] = some []
  rw [List.foldlM_cons, closes]
  rfl

/-- The lines of a traced section around nested ones are nested. -/
theorem path {body : List Line} (nested : Nested body) (title : String) :
    Nested (beginPath title :: body ++ [endPath title]) :=
  wrap rfl (Mark.close_cons_self (.path title) []) nested

/-- The lines of an exclusion around nested ones are nested. -/
theorem exclusion {body : List Line} (nested : Nested body) :
    Nested (beginExclusion :: body ++ [endExclusion]) :=
  wrap rfl (Mark.close_cons_self .exclusion []) nested

end Nested

example : Nested [beginPath "p", beginExclusion, abort, endExclusion, endPath "p"] := by decide

example : ¬ Nested [beginPath "p", beginExclusion, endPath "p", endExclusion] := by decide

namespace PathsNested

theorem nil : PathsNested [] := rfl

theorem append {first second : List Line} (before : PathsNested first)
    (after : PathsNested second) : PathsNested (first ++ second) := by
  rw [PathsNested, List.filter_append]
  exact Nested.append before after

theorem path {body : List Line} (nested : PathsNested body) (title : String) :
    PathsNested (beginPath title :: body ++ [endPath title]) := by
  have split : (beginPath title :: body ++ [endPath title]).filter (fun line => !line.isExclusion) =
      beginPath title :: body.filter (fun line => !line.isExclusion) ++ [endPath title] := by
    rw [List.cons_append, List.filter_cons, List.filter_append]
    rfl
  rw [PathsNested, split]
  exact Nested.path nested title

/-- The marks of exclusions may be left out, also when one was never closed. -/
theorem cons_of_isExclusion {line : Line} {rest : List Line} (nested : PathsNested rest)
    (mark : line.isExclusion = true) : PathsNested (line :: rest) := by
  rw [PathsNested, List.filter_cons, mark]
  exact nested

end PathsNested

namespace Sectioned

theorem nil : Sectioned [] := ⟨[], fun _ member => absurd member List.not_mem_nil, rfl⟩

theorem append {first second : List Line} (before : Sectioned first) (after : Sectioned second) :
    Sectioned (first ++ second) := by
  obtain ⟨front, frontNested, rfl⟩ := before
  obtain ⟨back, backNested, rfl⟩ := after
  refine ⟨front ++ back, ?_, List.flatMap_append.symm⟩
  intro part member
  rcases List.mem_append.mp member with early | late
  · exact frontNested part early
  · exact backNested part late

theorem path {body : List Line} (nested : PathsNested body) (title : String) :
    Sectioned (beginPath title :: body ++ [endPath title]) := by
  refine ⟨[(title, body)], ?_, (List.flatMap_singleton ..).symm⟩
  intro part member
  rw [List.mem_singleton.mp member]
  exact nested

end Sectioned

end Line

end TreeQuery
