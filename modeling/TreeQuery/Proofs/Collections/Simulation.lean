import TreeQuery.Proofs.Collections.Growth
import TreeQuery.Proofs.Collections.Handling
import TreeQuery.Proofs.Frontier.KeepFirst

/-! # Computations on collections follow runs

A computation on collections follows a run if both send the same lines, put the same questions and
end in the same way, and if what it did to the collections is allowed. Computations follow runs part
by part (`TreeQuery.Handling.Follows.bind`); in between, a computation may make a step of its own
that no part of the run stands for (`TreeQuery.Handling.Follows.after`).
-/

namespace TreeQuery.Handling

variable {Node Leaf Failure : Type} [Keyed Node] {α β γ δ : Type}

/-- A computation goes on from the journal and the collections that its first part left, unless that
part failed. -/
theorem perform_bind (first : Handling Node Leaf Failure α)
    (next : α → Handling Node Leaf Failure β) (journal : Journal Node Leaf)
    (collections : Collections Node) :
    (first >>= next).perform journal collections = match first.perform journal collections with
      | (.ok value, later, changed) => (next value).perform later changed
      | (.error fault, later, changed) => (.error fault, later, changed) := by
  change (match first.run.run (journal, collections) with
    | (outcome, after) => (ExceptT.bindCont next outcome) after) = _
  unfold perform
  rcases first.run.run (journal, collections) with ⟨_ | _, _, _⟩ <;> rfl

/-- A computation may go on from the journal and the collections at present. -/
theorem perform_get_bind (next : Journal Node Leaf × Collections Node → Handling Node Leaf Failure β)
    (journal : Journal Node Leaf) (collections : Collections Node) :
    (get >>= next).perform journal collections =
      (next (journal, collections)).perform journal collections :=
  rfl

/-- A run does nothing to collections. -/
theorem perform_ofRun (run : Run Node Leaf Failure α) (journal : Journal Node Leaf)
    (collections : Collections Node) :
    (ofRun run).perform journal collections =
      ((run.perform journal).1, (run.perform journal).2, collections) :=
  rfl

/-- A run part by part is a computation part by part. -/
theorem ofRun_bind_eq (first : Run Node Leaf Failure α) (next : α → Run Node Leaf Failure β) :
    ofRun (first >>= next) = ofRun first >>= fun value => ofRun (next value) := by
  funext state
  obtain ⟨journal, collections⟩ := state
  change (ofRun (first >>= next)).perform journal collections =
    (ofRun first >>= fun value => ofRun (next value)).perform journal collections
  rw [perform_bind, perform_ofRun, perform_ofRun, Run.perform_bind]
  rcases first.perform journal with ⟨_ | _, _⟩ <;> rfl

/-- A computation that leaves the journal alone, and ends on a value with certain collections. -/
def Steps (handling : Handling Node Leaf Failure α) (before : Collections Node) (value : α)
    (after : Collections Node) : Prop :=
  ∀ journal, handling.perform journal before = (.ok value, journal, after)

section Steps

variable (collections : Collections Node)

/-- Reading a collection changes none. -/
theorem read_steps (index : Nat) :
    Steps (read index : Handling Node Leaf Failure (Frontier Node)) collections
      (collections.get index) collections :=
  fun _ => rfl

theorem present_steps :
    Steps (present : Handling Node Leaf Failure (Collections Node)) collections collections
      collections :=
  fun _ => rfl

theorem ofRun_pure_steps (value : α) :
    Steps (ofRun (Pure.pure value) : Handling Node Leaf Failure α) collections value collections :=
  fun _ => rfl

/-- The collections may be replaced as a whole. -/
theorem replace_steps (later : Collections Node) :
    Steps (replace later : Handling Node Leaf Failure Unit) collections () later :=
  fun _ => rfl

theorem listed_steps (source : NodeSource Node) :
    Steps (listed source : Handling Node Leaf Failure (List Node)) collections
      (collections.listed source) collections :=
  fun _ => rfl

/-- A new collection is made without any call. -/
theorem create_steps (frontier : Frontier Node) :
    Steps (create frontier : Handling Node Leaf Failure Nat) collections
      (collections.create frontier).2 (collections.create frontier).1 :=
  fun _ => rfl

/-- Every collection but the shared empty one can be filled. -/
theorem fill_steps (refused : CollectionError → Failure) {buffer : Nat} (source : NodeSource Node)
    (owned : buffer ≠ Collections.shared) :
    Steps (fill refused buffer source : Handling Node Leaf Failure Unit) collections ()
      (collections.put buffer
        ((collections.get buffer).insertAll (collections.listed source))) := by
  intro journal
  rw [fill, perform_get_bind]
  dsimp only
  rw [Collections.addAll, if_neg owned]
  rfl

/-- A collection can be drained of the nodes of every other one. -/
theorem drain_steps (refused : CollectionError → Failure) {buffer argument : Nat}
    (apart : argument ≠ buffer) :
    Steps (drain refused buffer (.collection argument) : Handling Node Leaf Failure Unit)
      collections ()
      (collections.put buffer
        ((collections.get buffer).removeAll (collections.get argument).nodes)) := by
  intro journal
  rw [drain, perform_get_bind]
  simp only [Collections.removeAll, if_neg apart]
  rfl

/-- A buffer is handed out itself unless it has no node. -/
theorem handOut_steps (buffer : Nat) :
    Steps (handOut buffer : Handling Node Leaf Failure Nat) collections
      (if (collections.get buffer).isEmpty then Collections.shared else buffer) collections := by
  intro journal
  rw [handOut, perform_bind, read_steps]
  dsimp only
  split <;> rfl

end Steps

/-- A computation on collections that does what a run does and ends as it ends, on values that are
related, with collections that are allowed. -/
def Follows (before : Collections Node) (allowed : Collections Node → Prop)
    (run : Run Node Leaf Failure α) (handling : Handling Node Leaf Failure β)
    (related : Collections Node → α → β → Prop) : Prop :=
  ∀ journal, ∃ after, allowed after ∧ match run.perform journal with
    | (.ok value, later) => ∃ handed,
        handling.perform journal before = (.ok handed, later, after) ∧ related after value handed
    | (.error fault, later) => handling.perform journal before = (.error fault, later, after)

namespace Follows

variable {before : Collections Node} {allowed tolerated : Collections Node → Prop}
  {related : Collections Node → α → β → Prop} {desired : Collections Node → γ → δ → Prop}

/-- A value at hand follows a value at hand that fits it. -/
theorem pure {value : α} {handed : β} (here : allowed before)
    (fits : related before value handed) :
    Follows before allowed (Pure.pure value : Run Node Leaf Failure α)
      (Pure.pure handed : Handling Node Leaf Failure β) related :=
  fun _ => ⟨before, here, handed, rfl, fits⟩

/-- The same fault comes out of both. -/
theorem throw (fault : Fault Failure) (here : allowed before) :
    Follows before allowed (throw fault : Run Node Leaf Failure α)
      (throw fault : Handling Node Leaf Failure β) related :=
  fun _ => ⟨before, here, rfl⟩

/-- A run that has nothing to do with collections leaves them as they are. -/
theorem ofRun (run : Run Node Leaf Failure α) (here : allowed before) :
    Follows before allowed run (Handling.ofRun run)
      fun after value handed => before = after ∧ value = handed := by
  intro journal
  refine ⟨before, here, ?_⟩
  rw [perform_ofRun]
  rcases run.perform journal with ⟨_ | value, later⟩
  · rfl
  · exact ⟨value, rfl, rfl, rfl⟩

/-- Less may be asked of the collections and of the values. -/
theorem mono {run : Run Node Leaf Failure α} {handling : Handling Node Leaf Failure β}
    {weaker : Collections Node → α → β → Prop}
    (follows : Follows before allowed run handling related)
    (tolerant : ∀ after, allowed after → tolerated after)
    (weaken : ∀ after value handed, allowed after → related after value handed →
      weaker after value handed) : Follows before tolerated run handling weaker := by
  intro journal
  obtain ⟨after, there, ended⟩ := follows journal
  refine ⟨after, tolerant after there, ?_⟩
  generalize run.perform journal = done at ended
  obtain ⟨_ | value, later⟩ := done
  · exact ended
  · obtain ⟨handed, done, fits⟩ := ended
    exact ⟨handed, done, weaken after value handed there fits⟩

/-- A part of a computation may be allowed less than the whole. -/
theorem bind_of_tolerated {first : Run Node Leaf Failure α} {next : α → Run Node Leaf Failure γ}
    {opening : Handling Node Leaf Failure β} {goes : β → Handling Node Leaf Failure δ}
    (begins : Follows before tolerated first opening related)
    (tolerant : ∀ after, tolerated after → allowed after)
    (continues : ∀ after value handed, tolerated after → related after value handed →
      Follows after allowed (next value) (goes handed) desired) :
    Follows before allowed (first >>= next) (opening >>= goes) desired := by
  intro journal
  obtain ⟨middle, there, ended⟩ := begins journal
  rw [Run.perform_bind, perform_bind]
  generalize first.perform journal = done at ended
  obtain ⟨fault | value, later⟩ := done
  · refine ⟨middle, tolerant middle there, ?_⟩
    rw [ended]
  · obtain ⟨handed, done, fits⟩ := ended
    rw [done]
    exact continues middle value handed there fits later

/-- What goes on from values that fit starts from the collections left behind. -/
theorem bind {first : Run Node Leaf Failure α} {next : α → Run Node Leaf Failure γ}
    {opening : Handling Node Leaf Failure β} {goes : β → Handling Node Leaf Failure δ}
    (begins : Follows before allowed first opening related)
    (continues : ∀ after value handed, allowed after → related after value handed →
      Follows after allowed (next value) (goes handed) desired) :
    Follows before allowed (first >>= next) (opening >>= goes) desired :=
  begins.bind_of_tolerated (fun _ there => there) continues

/-- A run as a part of a computation follows itself. -/
theorem ofRun_bind (first : Run Node Leaf Failure α) {next : α → Run Node Leaf Failure γ}
    {goes : α → Handling Node Leaf Failure δ} (here : allowed before)
    (continues : ∀ value, Follows before allowed (next value) (goes value) desired) :
    Follows before allowed (first >>= next) (Handling.ofRun first >>= goes) desired := by
  refine (ofRun first here).bind ?_
  rintro _ value _ _ ⟨rfl, rfl⟩
  exact continues value

/-- A computation may make a step of its own first. -/
theorem after {run : Run Node Leaf Failure γ} {opening : Handling Node Leaf Failure β}
    {goes : β → Handling Node Leaf Failure δ} {handed : β} {middle : Collections Node}
    (steps : Steps opening before handed middle)
    (continues : Follows middle allowed run (goes handed) desired) :
    Follows before allowed run (opening >>= goes) desired := by
  intro journal
  rw [perform_bind, steps journal]
  exact continues journal

/-- A computation may end with a step of its own. -/
theorem of_steps {value : α} {handling : Handling Node Leaf Failure β} {handed : β}
    {middle : Collections Node} (steps : Steps handling before handed middle)
    (there : allowed middle) (fits : related middle value handed) :
    Follows before allowed (Pure.pure value : Run Node Leaf Failure α) handling related :=
  fun journal => ⟨middle, there, handed, steps journal, fits⟩

/-- Work that is done in any case is the same in both. -/
theorem ensuring {body : Run Node Leaf Failure α} {handling : Handling Node Leaf Failure β}
    (closing : Run Node Leaf Failure Unit)
    (follows : Follows before allowed body handling related) :
    Follows before allowed (Run.ensuring body closing) (Handling.ensuring handling closing)
      related := by
  intro journal
  obtain ⟨after, there, ended⟩ := follows journal
  refine ⟨after, there, ?_⟩
  have attempted : (attempt handling).perform journal before =
      (.ok (handling.perform journal before).1, (handling.perform journal before).2) := rfl
  rw [Run.perform_ensuring, Handling.ensuring, perform_bind, attempted]
  generalize body.perform journal = done at ended
  obtain ⟨fault | value, later⟩ := done
  · rw [ended]
    dsimp only
    rw [perform_bind, perform_ofRun]
    rcases closing.perform later with ⟨_ | _, last⟩ <;> rfl
  · obtain ⟨handed, done, fits⟩ := ended
    rw [done]
    dsimp only
    rw [perform_bind, perform_ofRun]
    rcases closing.perform later with ⟨_ | _, last⟩
    · rfl
    · exact ⟨handed, rfl, fits⟩

/-- Traced sections open and close with the same lines around either. -/
theorem traced {sink : Sink Failure} (title : String) {body : Run Node Leaf Failure α}
    {handling : Handling Node Leaf Failure β} (here : allowed before)
    (follows : Follows before allowed body handling related) :
    Follows before allowed (Run.traced sink title body) (Handling.traced sink title handling)
      related := by
  refine .ofRun_bind Run.isActive here fun active => ?_
  exact .ofRun_bind (Run.enter sink title) here fun _ => follows.ensuring _

end Follows

end TreeQuery.Handling
