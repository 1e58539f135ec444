import TreeQuery.Proofs.Run.Sequence
import TreeQuery.Proofs.Run.Yield
import TreeQuery.Proofs.Trace.Brackets

/-! # What runs tell

A run tells the texts that it sends when it does not fail. They depend on whether trace output is on
before, and on nothing else that was sent; what a run tells is put together from what its parts tell
(`TreeQuery.Run.Tells.bind`). Testing nodes and asking the host tells nothing
(`TreeQuery.Run.Silent`).
-/

namespace TreeQuery.Run

variable {Node Leaf Failure : Type} {α β : Type}

/-- A run that sends no line and leaves trace output on or off as it was, also when it fails. -/
def Silent (computation : Run Node Leaf Failure α) : Prop :=
  ∀ before, (computation.perform before).2.active = before.active ∧
    (computation.perform before).2.lines = before.lines

namespace Silent

theorem bind {first : Run Node Leaf Failure α} {next : α → Run Node Leaf Failure β}
    (silent : Silent first) (goes : ∀ value, Silent (next value)) : Silent (first >>= next) := by
  intro before
  obtain ⟨active, lines⟩ := silent before
  rw [perform_bind]
  generalize first.perform before = done at active lines ⊢
  obtain ⟨_ | value, middle⟩ := done
  · exact ⟨active, lines⟩
  · obtain ⟨still, same⟩ := goes value middle
    exact ⟨still.trans active, same.trans lines⟩

theorem congruence : Congruence fun _ (left _ : Run Node Leaf Failure _) => Silent left where
  pure _ _ := ⟨rfl, rfl⟩
  throw _ _ := ⟨rfl, rfl⟩
  note _ _ := ⟨rfl, rfl⟩
  liftExcept outcome := by
    intro before
    rw [perform_liftExcept]
    exact ⟨rfl, rfl⟩
  bind := bind

end Silent

/-- A run that, unless it fails, ends on a value as expected, leaves trace output on or off as it
was, and sends texts that depend on which of the two it is. -/
def Tells (computation : Run Node Leaf Failure α) (expected : α → Prop)
    (texts : Bool → List String) : Prop :=
  ∀ before value after, computation.perform before = (.ok value, after) →
    expected value ∧ after.active = before.active ∧
      after.lines.map Line.text = (texts before.active).reverse ++ before.lines.map Line.text

/-- A text sent when trace output is on. -/
def whenActive (text : String) (active : Bool) : List String :=
  if active then [text] else []

namespace Tells

variable {expected : α → Prop} {desired : β → Prop} {texts later : Bool → List String}

theorem pure {value : α} (holds : expected value) :
    Tells (Pure.pure value : Run Node Leaf Failure α) expected fun _ => [] := by
  intro before found after ended
  cases ended
  exact ⟨holds, rfl, rfl⟩

theorem throw (fault : Fault Failure) :
    Tells (throw fault : Run Node Leaf Failure α) expected texts := by
  intro before found after ended
  cases ended

theorem congr {computation : Run Node Leaf Failure α} (tells : Tells computation expected texts)
    (same : ∀ active, texts active = later active) : Tells computation expected later :=
  funext same ▸ tells

/-- What is told by a run that goes on from another one. -/
theorem bind {first : Run Node Leaf Failure α} {next : α → Run Node Leaf Failure β}
    (tells : Tells first expected texts)
    (goes : ∀ value, expected value → Tells (next value) desired later) :
    Tells (first >>= next) desired fun active => texts active ++ later active := by
  intro before found after ended
  obtain ⟨value, middle, begun, rest⟩ := perform_bind_eq_ok.mp ended
  obtain ⟨holds, same, sent⟩ := tells before value middle begun
  obtain ⟨fits, still, more⟩ := goes value holds middle found after rest
  refine ⟨fits, still.trans same, ?_⟩
  rw [more, sent, same, List.reverse_append, List.append_assoc]

/-- A sequence whose work is over tells nothing. -/
theorem sequence_of_over {isOver : α → Bool} (parts : List (α → Run Node Leaf Failure α))
    {state : α} (done : isOver state = true) (holds : expected state)
    (quiet : ∀ active, texts active = []) :
    Tells (Run.sequence isOver parts state) expected texts := by
  rw [Run.sequence_of_over parts done]
  exact (pure holds).congr fun active => (quiet active).symm

/-- A silent run tells nothing. -/
theorem of_silent {computation : Run Node Leaf Failure α} (silent : Silent computation)
    (yields : ∀ value, computation.Yields value → expected value) :
    Tells computation expected fun _ => [] := by
  intro before value after ended
  obtain ⟨active, lines⟩ := silent before
  rw [ended] at active lines
  exact ⟨yields value ⟨before, after, ended⟩, active, congrArg (List.map Line.text) lines⟩

variable {sink : Sink Failure} (accepts : sink.Accepts)

include accepts

theorem send (line : Line) :
    Tells (Run.send sink line : Run Node Leaf Failure Unit) (fun _ => True)
      (whenActive line.text) := by
  rintro ⟨active, lines, calls⟩ value after ended
  rw [perform_send_of_accepts accepts] at ended
  cases ended
  cases active <;> exact ⟨trivial, rfl, rfl⟩

/-- A line at the end of a run that has its value by then. -/
theorem send_last (line : Line) {value : α} (holds : expected value) :
    Tells (do Run.send sink line; Pure.pure value : Run Node Leaf Failure α) expected
      (whenActive line.text) := by
  have sent : Tells (do Run.send sink line; Pure.pure value : Run Node Leaf Failure α) expected
      fun active => whenActive line.text active ++ [] :=
    (send accepts line).bind fun _ _ => pure holds
  simpa only [List.append_nil] using sent

/-- The texts of a body between those of the two lines of an exclusion. -/
theorem excluding {body : Run Node Leaf Failure α} (tells : Tells body expected texts) :
    Tells (Run.excluding sink body) expected fun active =>
      whenActive "## begin exclude..." active ++
        (texts active ++ whenActive "## end exclude." active) :=
  (send accepts .beginExclusion).bind fun _ _ => tells.bind fun _ holds =>
    send_last accepts .endExclusion holds

/-- A traced section tells what its body does with output on, between two texts of its own. -/
theorem traced (title : String) {body : Run Node Leaf Failure α}
    (tells : Tells body expected texts) :
    Tells (Run.traced sink title body) expected fun _ =>
      ("## [ begin path: " ++ title ++ " ]") :: texts true ++
        ["## [ end path: " ++ title ++ " ]"] := by
  intro before value after ended
  rw [perform_traced_of_accepts accepts] at ended
  generalize reached : body.perform
    { before with active := true, lines := .beginPath title :: before.lines } = done at ended
  obtain ⟨outcome, last⟩ := done
  obtain ⟨rfl, rfl⟩ := Prod.mk.inj ended
  obtain ⟨holds, active, sent⟩ := tells _ _ _ reached
  have loud : last.active = true := active
  refine ⟨holds, rfl, ?_⟩
  have opens : (Line.beginPath title).text = "## [ begin path: " ++ title ++ " ]" := rfl
  have closes : (Line.endPath title).text = "## [ end path: " ++ title ++ " ]" := rfl
  rw [loud, if_pos rfl, List.map_cons, sent, List.map_cons, opens, closes]
  -- How the two texts are made up does not matter from here on.
  generalize "## [ begin path: " ++ title ++ " ]" = opening
  generalize "## [ end path: " ++ title ++ " ]" = closing
  simp

end Tells

end TreeQuery.Run
