import TreeQuery.Proofs.Session.Telling
import TreeQuery.Session.Query

/-! # Queries hand out collections

A query of a session puts at most new collections beside the old ones, whether it fails or not, and
what it puts under a name is one of those. Such an action leads from some holdings to others
(`TreeQuery.Session.Leads`), and so does what goes on from there.
-/

namespace TreeQuery.Session

variable {α β : Type}

namespace Holdings

/-- The same registers, of which one holds another operand. -/
def withRegister (held : Holdings) (name : String) (operand : Operand)
    (within : operand.Within held.collections) : Holdings where
  registers := setEntry name operand held.registers
  collections := held.collections
  formed := held.formed
  registered other content found := by
    by_cases same : other = name
    · rw [same, lookup_setEntry_self, Option.some.injEq] at found
      exact found ▸ within
    · rw [lookup_setEntry_of_ne _ _ same] at found
      exact held.registered other content found

/-- The same registers beside no fewer collections. -/
def withCollections (held : Holdings) (collections : Collections Value)
    (formed : collections.WellFormed)
    (grown : held.collections.frontiers.size ≤ collections.frontiers.size) : Holdings where
  registers := held.registers
  collections := collections
  formed := formed
  registered name content found index same :=
    Nat.lt_of_lt_of_le (held.registered name content found index same) grown

end Holdings

variable {held : Holdings} {allowed : Collections Value → Prop}

/-- An action that leads from some holdings to others with collections that are allowed, and to an
end as expected unless it fails. -/
def Leads (held : Holdings) (allowed : Collections Value → Prop) (action : Act α)
    (expected : Holdings → α → Prop) : Prop :=
  ∀ before : Session, before.Holds held → ∃ later : Holdings,
    (action.perform before).2.Holds later ∧ allowed later.collections ∧
      match (action.perform before).1 with
      | .ok value => expected later value
      | .error _ => True

/-- What is expected of an action and its holdings where nothing is known. -/
abbrev anyhow : Holdings → α → Prop := fun _ _ => True

section Rules

variable {first : Act α} {next : α → Act β} {expected : α → Prop}
  {reaches : Holdings → α → Prop} {desired : Holdings → β → Prop}

/-- An action that changes no holding leads to the same ones. -/
theorem Quiet.leads {action : Act α} (quiet : Quiet held action expected)
    (here : allowed held.collections) (holds : ∀ value, expected value → reaches held value) :
    Leads held allowed action reaches := by
  intro before holding
  obtain ⟨kept, ended⟩ := quiet before holding
  refine ⟨held, kept, here, ?_⟩
  cases same : (action.perform before).1 with
  | ok value =>
      rw [same] at ended
      exact holds value ended
  | error fault => trivial

theorem Quiet.leads_anyhow {action : Act α} (quiet : Quiet held action anything)
    (here : allowed held.collections) : Leads held allowed action anyhow :=
  quiet.leads here fun _ _ => trivial

/-- Less may be said of where an action leads. -/
theorem Leads.mono {action : Act α} {weaker : Holdings → α → Prop}
    (leads : Leads held allowed action reaches)
    (weaken : ∀ later value, reaches later value → weaker later value) :
    Leads held allowed action weaker := by
  intro before holding
  obtain ⟨later, kept, there, ended⟩ := leads before holding
  refine ⟨later, kept, there, ?_⟩
  cases same : (action.perform before).1 with
  | ok value =>
      rw [same] at ended
      exact weaken later value ended
  | error fault => trivial

/-- Less may be asked of the collections on the way. -/
theorem Leads.tolerate {action : Act α} {tolerated : Collections Value → Prop}
    (leads : Leads held allowed action reaches)
    (tolerant : ∀ collections, allowed collections → tolerated collections) :
    Leads held tolerated action reaches := by
  intro before holding
  obtain ⟨later, kept, there, ended⟩ := leads before holding
  exact ⟨later, kept, tolerant _ there, ended⟩

/-- What follows an action starts from the holdings that it led to. -/
theorem Leads.bind (leads : Leads held allowed first reaches)
    (goes : ∀ later value, allowed later.collections → reaches later value →
      Leads later allowed (next value) desired) :
    Leads held allowed (first >>= next) desired := by
  intro before holding
  obtain ⟨later, kept, there, ended⟩ := leads before holding
  rw [perform_bind]
  generalize first.perform before = done at kept ended
  obtain ⟨_ | value, after⟩ := done
  · exact ⟨later, kept, there, trivial⟩
  · exact goes later value there ended after kept

theorem Leads.map {action : Act α} (change : α → β) (leads : Leads held allowed action reaches)
    (holds : ∀ later value, reaches later value → desired later (change value)) :
    Leads held allowed (change <$> action) desired := by
  rw [map_eq_pure_bind]
  refine leads.bind fun later value there reached => ?_
  have ended : Quiet later (pure (change value)) (· = change value) := .pure rfl
  refine ended.leads there ?_
  rintro _ rfl
  exact holds later value reached

/-- After a quiet action the holdings are those from before. -/
theorem Quiet.bind_leads (quiet : Quiet held first expected) (here : allowed held.collections)
    (goes : ∀ value, expected value → Leads held allowed (next value) desired) :
    Leads held allowed (first >>= next) desired := by
  have first_leads : Leads held allowed first fun later value => later = held ∧ expected value :=
    quiet.leads here fun value ended => ⟨rfl, ended⟩
  refine first_leads.bind ?_
  rintro _ value _ ⟨rfl, ended⟩
  exact goes value ended

/-- Reading the session is no change, and what is read agrees with the holdings. -/
theorem Leads.get_bind {next : Session → Act β}
    (goes : ∀ session, session.Holds held → Leads held allowed (next session) desired) :
    Leads held allowed (get >>= next) desired := by
  intro before holding
  rw [perform_get_bind]
  exact goes before holding before holding

theorem Leads.modify {change : Session → Session} {later : Holdings}
    (moves : ∀ session : Session, session.Holds held → (change session).Holds later)
    (there : allowed later.collections) :
    Leads held allowed (modify change) fun reached _ => reached = later :=
  fun before holding => ⟨later, moves before holding, there, rfl⟩

end Rules

section Registers

/-- A register is set to an operand that is there. -/
theorem setRegister_leads (name : String) {operand : Operand}
    (within : operand.Within held.collections) (here : allowed held.collections) :
    Leads held allowed (setRegister name operand) fun reached _ =>
      reached = held.withRegister name operand within :=
  .modify (fun _ holding => ⟨congrArg (setEntry name operand) holding.registers,
    holding.collections⟩) here

/-- Putting an operand under a name and telling about it. -/
theorem setRegister_bind_leads {next : Unit → Act β} {expected : β → Prop} (name : String)
    {operand : Operand} (within : operand.Within held.collections)
    (here : allowed held.collections)
    (quiet : ∀ named : Holdings, Quiet named (next ()) expected) :
    Leads held allowed (setRegister name operand >>= next) fun _ => expected := by
  refine (setRegister_leads name within here).bind ?_
  rintro _ _ there rfl
  exact (quiet _).leads there fun _ ended => ended

/-- A collection there is may be put under a name. -/
theorem within_of_present {collections : Collections Value} {index : Nat}
    (present : index < collections.frontiers.size) :
    (Operand.object (.collection index)).Within collections := by
  rintro _ ⟨⟩
  exact present

end Registers

section Keeping

variable {result : Collections Value × α}

/-- Keeping a result makes its collections those of the session. -/
theorem keeping_leads {later : Holdings} (registers : later.registers = held.registers)
    (collections : later.collections = result.1) (there : allowed later.collections) :
    Leads held allowed (keeping result) fun reached value =>
      reached = later ∧ value = result.2 := by
  refine Leads.bind (.modify ?_ there) ?_
  · exact fun _ holding => ⟨holding.registers.trans registers.symm, collections.symm⟩
  · rintro _ _ _ rfl
    exact (Quiet.pure rfl).leads there fun _ same => ⟨rfl, same.symm⟩

/-- Where old collections have to keep their nodes, one may be added to them. -/
theorem keeping_leads_of_adds {start : Collections Value} {result : Collections Value × Nat}
    (begun : start.Extends held.collections) (adds : held.collections.Adds result) :
    Leads held start.Extends (keeping result) fun later index =>
      later.collections = result.1 ∧ index = result.2 := by
  let grown := held.withCollections result.1 (held.formed.of_extends adds.old_extends)
    adds.old_extends.grown
  have leads : Leads held start.Extends (keeping result) fun reached index =>
      reached = grown ∧ index = result.2 :=
    keeping_leads rfl rfl (begun.trans adds.old_extends)
  refine leads.mono ?_
  rintro _ _ ⟨rfl, same⟩
  exact ⟨rfl, same⟩

end Keeping

section Quietly

theorem testNodes_quiet (asFunction : Bool) (operand : Operand) (nodes : List Value) :
    Quiet held (testNodes asFunction operand nodes) anything :=
  .get_bind fun _ _ => (runQuietly_quiet _ _).mono fun _ _ => trivial

theorem ensureAdmissible_quiet (node : Value) : Quiet held (ensureAdmissible node) anything := by
  refine .get_bind fun _ _ => ?_
  split
  · exact .throw _
  · exact .pure trivial

theorem admitted_quiet (source : NodeSource Value) : Quiet held (admitted source) anything :=
  .read _

theorem finished_quiet {Node : Type} (listing : Listing Node Failure) (result : α) :
    Quiet held (finished listing result) (· = result) := by
  rw [finished.eq_def]
  split
  · exact .throw _
  · exact .pure rfl

theorem keptLines_quiet (keeper? : Option Nat) : Quiet held (keptLines keeper?) anything :=
  .read _

theorem givenAdapter_quiet (adapter : AdapterExpr) :
    Quiet held (givenAdapter adapter) anything := by
  refine (evalAdapter_quiet _).bind fun _ _ => ?_
  split
  · exact .pure trivial
  · exact .pure trivial

theorem adapterOrStandard_quiet (operand : Operand) :
    Quiet held (adapterOrStandard operand) anything :=
  .read _

theorem tally_quiet (name : String) (reset : Bool) : Quiet held (tally name reset) anything := by
  refine (register_quiet name).bind fun _ _ => ?_
  split
  · refine .get_bind fun _ holding => ?_
    dsimp only
    split
    · refine Quiet.bind (Quiet.set ?_) fun _ _ => .pure trivial
      exact holding.of_unchanged ⟨rfl, rfl⟩
    · exact .pure_bind (.pure trivial)
  · exact lacks_quiet _ _

theorem ask_quiet (relation : Relation) (node : Value) (adapter : Operand) :
    Quiet held (ask relation node adapter) anything := by
  refine (adapterOrStandard_quiet _).bind fun _ _ => .get_bind fun _ _ =>
    (ofExcept_quiet _).bind fun _ _ => ?_
  split
  · exact .pure trivial
  · exact .pure trivial

/-- A run that hands out what it found as a result beside some collections, unless it failed. -/
def RunResult.Hands (result : RunResult (Collections Value × Nat))
    (collections : Collections Value) : Prop :=
  ∀ handed, result.outcome = .ok handed → ∃ found, handed = collections.result found

/-- A navigation hands out its nodes beside the collections held, and keeps nothing by itself. -/
theorem runPath_quiet (config : Config Operand) (given? : Option Operand) (path : Nat)
    (start : NodeSource Value) :
    Quiet held (runPath config given? path start) fun done => done.2.Hands held.collections := by
  refine .get_bind fun _ _ => ?_
  split
  · exact .fail _
  · exact .fail _
  · refine (admitted_quiet _).bind fun _ _ => (finished_quiet _ _).bind fun source _ =>
      .get_bind fun session holding => (runEngine_quiet _ _ _).bind fun result ended => ?_
    refine .pure fun handed same => ?_
    obtain ⟨found, _, same⟩ := Collections.result_of_navigate (ended handed same)
    exact ⟨found, holding.collections ▸ same⟩

end Quietly

section Collections

variable {start : Collections Value}

/-- A collection among those there are. -/
abbrev Present : Holdings → Nat → Prop := fun later index =>
  index < later.collections.frontiers.size

theorem keeping_present (begun : start.Extends held.collections)
    {result : Collections Value × Nat} (adds : held.collections.Adds result) :
    Leads held start.Extends (keeping result) Present := by
  refine (keeping_leads_of_adds begun adds).mono ?_
  rintro later _ ⟨same, rfl⟩
  rw [Present, same]
  exact adds.present

/-- The collection that a filter makes is there afterwards. -/
theorem filterCollection_leads (begun : start.Extends held.collections) (index : Nat)
    (operand : Operand) : Leads held start.Extends (filterCollection index operand) Present := by
  refine .get_bind fun session holding => (runQuietly_quiet _ _).bind_leads begun ?_
  rintro found ⟨setting, yields⟩
  rw [holding.collections] at yields
  exact keeping_present begun (Collections.filterRun_adds held.formed.present yields)

/-- The collection that a union makes is there afterwards. -/
theorem unionWith_leads (begun : start.Extends held.collections) (index : Nat)
    (source : NodeSource Value) : Leads held start.Extends (unionWith index source) Present := by
  refine (admitted_quiet _).bind_leads begun fun listing _ => .get_bind fun session holding => ?_
  rw [holding.collections]
  refine (keeping_present begun (Collections.union_adds _ _ _)).bind fun later found there
    present => ?_
  exact (finished_quiet _ _).leads there fun _ same => same ▸ present

/-- The collection that a difference makes is there afterwards. -/
theorem differenceFrom_leads (begun : start.Extends held.collections) (index : Nat)
    (source : NodeSource Value) :
    Leads held start.Extends (differenceFrom index source) Present := by
  refine (admitted_quiet _).bind_leads begun fun listing _ => .get_bind fun session holding => ?_
  rw [holding.collections]
  refine (keeping_present begun (Collections.difference_adds _ _ _)).bind fun later found there
    present => .get_bind fun _ _ => ?_
  split
  · exact (Quiet.pure rfl).leads there fun _ same => same ▸ present
  · exact (finished_quiet _ _).leads there fun _ same => same ▸ present

theorem answerCollection_leads (begun : start.Extends held.collections) {index : Nat}
    (present : Present held index) (as? : Option String) :
    Leads held start.Extends (answerCollection index as?) anyhow := by
  have told (named : Holdings) : Quiet named (do
      let session ← get
      return Answer.collectionUnder (session.showCollection index)
        (session.namesOf (.collection index))) anything :=
    .read _
  rw [answerCollection.eq_def]
  dsimp only
  split
  · exact (setRegister_bind_leads _ (within_of_present present) begun told).mono fun _ _ _ =>
      trivial
  · exact (Quiet.pure_bind (told held)).leads begun fun _ _ => trivial

theorem traverse_leads (begun : start.Extends held.collections) (operand : Operand)
    (nodes : List Value) (adapter : Operand) :
    Leads held start.Extends (traverse operand nodes adapter) anyhow := by
  have told (later : Holdings) (index : Nat) : Quiet later (do
      return Answer.collection ((← get).showCollection index)) anything :=
    .read _
  refine (traversalFor_quiet _ _).bind_leads begun fun _ _ =>
    (frontierOf_quiet _).bind_leads begun fun _ _ =>
      (adapterOrStandard_quiet _).bind_leads begun fun _ _ =>
        (runQuietly_quiet _ _).bind_leads begun fun found _ => .get_bind fun session holding => ?_
  refine Leads.bind (keeping_present begun ?_) fun later index there _ =>
    (told later index).leads there fun _ _ => trivial
  rw [holding.collections]
  split
  · exact Collections.create_adds _ _
  · exact Collections.result_adds held.formed.present

end Collections

section Navigation

/-- A name under which there is a collection that is the shared one just if it has no node, and
otherwise none of the old ones. -/
def Holdings.Hands (later : Holdings) (old : Collections Value) (name : String) : Prop :=
  ∃ index, later.registers.lookup name = some (.object (.collection index)) ∧
    (index = Collections.shared ↔ later.collections.get index = ∅) ∧
    (index = Collections.shared ∨ old.frontiers.size ≤ index)

/-- A result beside some collections is handed out in that way. -/
theorem hands_of_result {later : Holdings} {found : Frontier Value} {name : String}
    (same : later.collections = (held.collections.result found).1)
    (registered : later.registers.lookup name =
      some (.object (.collection (held.collections.result found).2))) :
    later.Hands held.collections name := by
  have adds : held.collections.Adds (held.collections.result found) :=
    Collections.result_adds held.formed.present
  refine ⟨_, registered, ?_, adds.apart⟩
  rw [same, Collections.get_result held.formed.nothing]
  exact Collections.result_shared_iff held.formed.present

/-- What a navigation found, put under a name if one is given. -/
theorem viewResult_leads {later : Holdings} {found : Frontier Value}
    (begun : held.collections.Extends later.collections)
    (same : later.collections = (held.collections.result found).1) (view : ResultView) :
    Leads later held.collections.Extends (viewResult (held.collections.result found).2 view)
      fun named _ => ∀ name, view = .collection (some name) →
        named.Hands held.collections name := by
  have told (named : Holdings) : Quiet named (do
      return Found.collection ((← get).showCollection (held.collections.result found).2))
        anything :=
    .read _
  have within : (Operand.object (.collection (held.collections.result found).2)).Within
      later.collections :=
    within_of_present (same ▸ (Collections.result_adds held.formed.present).present)
  cases view with
  | collection as? =>
      cases as? with
      | none => exact (Quiet.pure_bind (told later)).leads begun fun _ _ => nofun
      | some name =>
          refine (setRegister_leads name within begun).bind ?_
          rintro named _ there rfl
          refine (told _).leads there ?_
          rintro _ _ _ ⟨⟩
          exact hands_of_result same (lookup_setEntry_self _ _ _)
  | first =>
      exact (Quiet.read _).leads begun fun _ _ => nofun
  | count =>
      exact (Quiet.read _).leads begun fun _ _ => nofun

/-- Whatever is viewed of a navigation, the old collections stay, and a collection named as its
result has the nodes found. -/
theorem navigate_leads (path : PathExpr) (source : StartExpr) (view : ResultView)
    (adapter : AdapterExpr) (config : ConfigExpr) :
    Leads held held.collections.Extends (navigate path source view adapter config)
      fun later answer => ∀ navigation found name, answer = .navigation navigation →
        navigation.outcome = .ok found → view = .collection (some name) →
          later.Hands held.collections name := by
  have begun := Collections.Extends.refl held.collections
  refine (evalConfig_quiet _ _).bind_leads begun fun config _ =>
    (givenAdapter_quiet _).bind_leads begun fun given? _ =>
      (keptLines_quiet _).bind_leads begun fun before _ => ?_
  have searched : Quiet held (do
      let path ← pathFor source.method (← evalPath path)
      runPath config given? path (← optionalSource source.source))
        fun done => done.2.Hands held.collections :=
    (evalPath_quiet _).bind fun _ _ => (pathFor_quiet _ _).bind fun _ _ =>
      (optionalSource_quiet _).bind fun _ _ => runPath_quiet _ _ _ _
  refine (attempt_quiet searched).bind_leads begun fun attempted hands => ?_
  have told (later : Holdings) (outcome : Except (Fault Failure) Found) (log : List LogEntry) :
      Quiet later (do
        let after ← keptLines (keeperOf config)
        return Answer.navigation
          { outcome, trace? := (keeperOf config).map fun _ => after.drop before.length, log })
        fun answer => ∀ navigation, answer = .navigation navigation →
          navigation.outcome = outcome := by
    refine (keptLines_quiet _).bind fun _ _ => .pure ?_
    rintro _ ⟨⟩
    rfl
  dsimp only
  split
  · rw [pure_bind]
    refine (told held _ _).leads begun fun answer same navigation found name this ended => ?_
    rw [same navigation this] at ended
    cases ended
  · split
    · rw [pure_bind, pure_bind]
      refine (told held _ _).leads begun fun answer same navigation found name this ended => ?_
      rw [same navigation this] at ended
      cases ended
    · next handed ended =>
      obtain ⟨frontier, rfl⟩ := hands _ rfl handed ended
      have adds : held.collections.Adds (held.collections.result frontier) :=
        Collections.result_adds held.formed.present
      refine (keeping_leads_of_adds begun adds).bind ?_
      rintro later _ there ⟨same, rfl⟩
      rw [bind_map_left]
      refine (viewResult_leads there same view).bind fun named found there hands => ?_
      rw [pure_bind]
      exact (told named _ _).leads there fun _ _ _ _ name _ _ => hands name

end Navigation

end TreeQuery.Session
