import Tasking.Cli.Run
import Tasking.Proofs.Reading.Variables

/-! # What a scenario is started with

After the word for a scenario come pairs of an option and its value.  `Rejects` lists what can be wrong with them and with
the environment, in the order in which it is looked for, and the complaint about it; `Accepts` says what is made of them
otherwise.  `starts_exactly`: either there is exactly one complaint, and the command line does nothing but print it, or
there is exactly one plan, and the command line does what it says.
-/

namespace Tasking.Cli

/-- The word for a scenario. -/
def Workload.word : Workload → String
  | counter => "counter"
  | deadlock => "deadlock"
  | pingpong => "pingpong"

/-- Arguments that are pairs of an option that is allowed and a value, whatever the value looks like. -/
inductive Pairs (allowed : List String) : List String → List (String × String) → Prop where
  | nil : Pairs allowed [] []
  | cons {name value : String} {rest : List String} {values : List (String × String)} (permitted : name ∈ allowed)
      (later : Pairs allowed rest values) : Pairs allowed (("--" ++ name) :: value :: rest) ((name, value) :: values)

/-- The complaint about the first argument from the left that is no option, an option that is not allowed, or one without a
value. -/
inductive Misread (allowed : List String) : List String → String → Prop where
  | unexpected {argument : String} {rest : List String} (plain : ∀ name, argument ≠ "--" ++ name) :
      Misread allowed (argument :: rest) ("unexpected argument `" ++ argument ++ "`")
  | unknown {name : String} {rest : List String} (foreign : name ∉ allowed) :
      Misread allowed (("--" ++ name) :: rest) ("unknown option `" ++ ("--" ++ name) ++ "`")
  | noValue {name : String} (permitted : name ∈ allowed) :
      Misread allowed ["--" ++ name] ("option `" ++ ("--" ++ name) ++ "` needs a value")
  | later {name value message : String} {rest : List String} (permitted : name ∈ allowed)
      (misread : Misread allowed rest message) : Misread allowed (("--" ++ name) :: value :: rest) message

/-- The value that was given last under a name. -/
def Last (values : List (String × String)) (name text : String) : Prop :=
  ∃ before after, values = before ++ (name, text) :: after ∧ ∀ other, (name, other) ∉ after

/-- The number that an option asks for, if it was given. -/
inductive Chosen (values : List (String × String)) (name : String) : Option Nat → Prop where
  | absent (absent : ∀ text, (name, text) ∉ values) : Chosen values name none
  | given {text : String} {n : Nat} (last : Last values name text) (numeral : Text.Numeral text n)
      (fits : n < 2 ^ 64) : Chosen values name (some n)

/-- The complaint about an option whose last value is not a number. -/
inductive Illegible (values : List (String × String)) (name : String) : String → Prop where
  | intro {text : String} (last : Last values name text) (illegible : ¬∃ n < 2 ^ 64, Text.Numeral text n) :
      Illegible values name ("--" ++ name ++ " expects a number, got `" ++ text ++ "`")

/-- The size of a scenario: what its option asks for, or else its default. -/
inductive Sized (w : Workload) (values : List (String × String)) : Nat → Prop where
  | fixed (fixed : w.sizeOption = none) : Sized w values 0
  | chosen {name : String} {otherwise : Nat} {n? : Option Nat} (sizable : w.sizeOption = some (name, otherwise))
      (chosen : Chosen values name n?) : Sized w values (n?.getD otherwise)

/-- The complaint that keeps a scenario from being started.  Each thing is looked at only after those before it were found
to be in order. -/
inductive Rejects (w : Workload) (valueOf : String → Option String) (arguments : List String) : String → Prop where
  | arguments {message : String} (misread : Misread w.options arguments message) : Rejects w valueOf arguments message
  | size {message name : String} {otherwise : Nat} {values : List (String × String)}
      (pairs : Pairs w.options arguments values) (sizable : w.sizeOption = some (name, otherwise))
      (illegible : Illegible values name message) : Rejects w valueOf arguments message
  | workers {message : String} {size : Nat} {values : List (String × String)} (pairs : Pairs w.options arguments values)
      (sized : Sized w values size) (illegible : Illegible values "workers" message) : Rejects w valueOf arguments message
  | environment {size : Nat} {n? : Option Nat} {e : HostError} {values : List (String × String)}
      (pairs : Pairs w.options arguments values) (sized : Sized w values size) (workers : Chosen values "workers" n?)
      (refused : Settings.ofEnvironment valueOf = .error e) : Rejects w valueOf arguments e.message
  | tooMany {size n : Nat} {s : Settings} {values : List (String × String)} (pairs : Pairs w.options arguments values)
      (sized : Sized w values size) (workers : Chosen values "workers" (some n))
      (accepted : Settings.ofEnvironment valueOf = .ok s) (many : 1024 < n) :
      Rejects w valueOf arguments "config error: worker_threads too large (max 1024)"

/-- The plan that is made of what a scenario is started with.  The environment's number of workers counts only if no option
gives one. -/
inductive Accepts (w : Workload) (valueOf : String → Option String) (arguments : List String) : Plan → Prop where
  | intro {size : Nat} {n? : Option Nat} {s : Settings} {values : List (String × String)}
      (pairs : Pairs w.options arguments values) (sized : Sized w values size) (workers : Chosen values "workers" n?)
      (accepted : Settings.ofEnvironment valueOf = .ok s) (few : ∀ n ∈ n?, n ≤ 1024) :
      Accepts w valueOf arguments ⟨w, size, { s with workers := n?.or s.workers }⟩

variable {w : Workload} {valueOf : String → Option String} {arguments allowed : List String}
  {values : List (String × String)} {name argument text message : String} {size : Nat} {n? : Option Nat} {plan : Plan}

/-! ## Pairs of arguments -/

theorem name?_eq_some_iff : Options.name? argument = some name ↔ argument = "--" ++ name := by
  rw [← String.toList_inj, String.toList_append, Options.name?]
  have dashes : "--".toList = ['-', '-'] := by decide
  rw [dashes]
  split
  · next name' here =>
    rw [here, Option.some.injEq, ← String.toList_inj, String.toList_ofList]
    simp
  · next other =>
    exact ⟨nofun, fun here => absurd here (other name.toList)⟩

theorem name?_dashes (name : String) : Options.name? ("--" ++ name) = some name := name?_eq_some_iff.2 rfl

theorem pairs_of_pairs (pairs : Pairs allowed arguments values) : Options.pairs allowed arguments = .ok values := by
  induction pairs with
  | nil => rfl
  | cons permitted _ inductionHypothesis =>
    simp only [Options.pairs, name?_dashes, if_pos permitted, inductionHypothesis]
    rfl

theorem pairs_of_misread (misread : Misread allowed arguments message) :
    ∃ complaint, Options.pairs allowed arguments = .error complaint ∧ complaint.message = message := by
  induction misread with
  | @unexpected argument rest plain =>
    have nameless : Options.name? argument = none :=
      Option.eq_none_iff_forall_ne_some.2 fun name named => plain name (name?_eq_some_iff.1 named)
    refine ⟨.unexpected argument, ?_, rfl⟩
    cases rest with
    | nil => simp only [Options.pairs, nameless]
    | cons value rest => simp only [Options.pairs, nameless]
  | @unknown name rest foreign =>
    refine ⟨.unknown ("--" ++ name), ?_, rfl⟩
    cases rest with
    | nil => simp only [Options.pairs, name?_dashes, if_neg foreign]
    | cons value rest => simp only [Options.pairs, name?_dashes, if_neg foreign]
  | @noValue name permitted =>
    exact ⟨.noValue ("--" ++ name), by simp only [Options.pairs, name?_dashes, if_pos permitted], rfl⟩
  | later permitted _ inductionHypothesis =>
    obtain ⟨complaint, read, worded⟩ := inductionHypothesis
    refine ⟨complaint, ?_, worded⟩
    simp only [Options.pairs, name?_dashes, if_pos permitted, read]
    rfl

theorem pairs_or_misread (allowed : List String) : ∀ arguments,
    (∃ values, Pairs allowed arguments values) ∨ ∃ message, Misread allowed arguments message
  | [] => .inl ⟨[], .nil⟩
  | argument :: rest => by
    by_cases dashed : ∃ name, argument = "--" ++ name
    · obtain ⟨name, rfl⟩ := dashed
      by_cases permitted : name ∈ allowed
      · cases rest with
        | nil => exact .inr ⟨_, .noValue permitted⟩
        | cons value rest =>
          rcases pairs_or_misread allowed rest with ⟨values, pairs⟩ | ⟨message, misread⟩
          · exact .inl ⟨_, .cons permitted pairs⟩
          · exact .inr ⟨_, .later permitted misread⟩
      · exact .inr ⟨_, .unknown permitted⟩
    · exact .inr ⟨_, .unexpected fun name here => dashed ⟨name, here⟩⟩

/-! ## Values of options -/

theorem last?_eq_some_iff : Options.last? ⟨values⟩ name = some text ↔ Last values name text := by
  rw [Options.last?, List.lookup_eq_some_iff]
  constructor
  · rintro ⟨after, before, reversed, others⟩
    refine ⟨before.reverse, after.reverse, ?_, fun other inside => ?_⟩
    · rw [← List.reverse_inj, reversed]
      simp
    · have apart := others _ (List.mem_reverse.1 inside)
      simp at apart
  · rintro ⟨before, after, rfl, others⟩
    refine ⟨after.reverse, before.reverse, by simp, fun pair inside => ?_⟩
    obtain ⟨name', other⟩ := pair
    simp only [bne_iff_ne, ne_eq]
    rintro rfl
    exact others other (List.mem_reverse.1 inside)

theorem last?_eq_none_iff : Options.last? ⟨values⟩ name = none ↔ ∀ text, (name, text) ∉ values := by
  rw [Options.last?, List.lookup_eq_none_iff]
  constructor
  · intro others text inside
    simpa using others _ (List.mem_reverse.2 inside)
  · rintro absent ⟨name', text⟩ inside
    simp only [bne_iff_ne, ne_eq]
    rintro rfl
    exact absent text (List.mem_reverse.1 inside)

theorem number?_of_chosen (chosen : Chosen values name n?) : Options.number? ⟨values⟩ name = .ok n? := by
  cases chosen with
  | absent absent => rw [Options.number?, last?_eq_none_iff.2 absent]
  | given last numeral fits =>
    rw [Options.number?, last?_eq_some_iff.2 last]
    simp only [Text.numeral?_eq_some_iff.2 ⟨numeral, fits⟩]

theorem number?_of_illegible (illegible : Illegible values name message) :
    ∃ complaint, Options.number? ⟨values⟩ name = .error complaint ∧ complaint.message = message := by
  obtain @⟨text, last, illegible⟩ := illegible
  refine ⟨.notNumber name text, ?_, rfl⟩
  rw [Options.number?, last?_eq_some_iff.2 last]
  simp only [Text.numeral?_eq_none_iff.2 illegible]

theorem chosen_or_illegible (values : List (String × String)) (name : String) :
    (∃ n?, Chosen values name n?) ∨ ∃ message, Illegible values name message := by
  cases given : Options.last? ⟨values⟩ name with
  | none => exact .inl ⟨none, .absent (last?_eq_none_iff.1 given)⟩
  | some text =>
    have last := last?_eq_some_iff.1 given
    by_cases legible : ∃ n < 2 ^ 64, Text.Numeral text n
    · obtain ⟨n, fits, numeral⟩ := legible
      exact .inl ⟨some n, .given last numeral fits⟩
    · exact .inr ⟨_, .intro last legible⟩

theorem size_of_sized (sized : Sized w values size) : w.size ⟨values⟩ = .ok size := by
  cases sized with
  | fixed fixed => rw [Workload.size, fixed]
  | chosen sizable chosen =>
    rw [Workload.size, sizable]
    simp only [number?_of_chosen chosen]
    rfl

theorem sized_or_illegible (w : Workload) (values : List (String × String)) :
    (∃ size, Sized w values size) ∨
      ∃ name otherwise message, w.sizeOption = some (name, otherwise) ∧ Illegible values name message := by
  cases option : w.sizeOption with
  | none => exact .inl ⟨0, .fixed option⟩
  | some named =>
    obtain ⟨name, otherwise⟩ := named
    rcases chosen_or_illegible values name with ⟨n?, chosen⟩ | ⟨message, illegible⟩
    · exact .inl ⟨_, .chosen option chosen⟩
    · exact .inr ⟨name, otherwise, message, rfl, illegible⟩

/-! ## Plans -/

theorem chosenSettings_of_few {s : Settings} (accepted : Settings.ofEnvironment valueOf = .ok s)
    (few : ∀ n ∈ n?, n ≤ 1024) :
    chosenSettings valueOf n? = .ok { s with workers := n?.or s.workers } := by
  obtain ⟨asks, valid⟩ := Settings.ofEnvironment_eq_ok_iff.1 accepted
  simp only [chosenSettings, accepted]
  cases n? with
  | none => exact valid
  | some n =>
    obtain @⟨_, on, _, _, _⟩ := asks
    exact Settings.validate_overridden few on

theorem chosenSettings_of_many {s : Settings} {n : Nat} (accepted : Settings.ofEnvironment valueOf = .ok s)
    (many : 1024 < n) : chosenSettings valueOf (some n) = .error Settings.Flaw.tooManyWorkers.error := by
  have flaw : { s with workers := some n }.flaw? = some .tooManyWorkers := if_pos (decide_eq_true many)
  simp only [chosenSettings, accepted, Settings.validate, flaw]

theorem make_of_accepts (accepts : Accepts w valueOf arguments plan) : Plan.make w valueOf arguments = .ok plan := by
  obtain ⟨pairs, sized, workers, accepted, few⟩ := accepts
  simp only [Plan.make, Options.ofArguments, pairs_of_pairs pairs, Except.map, bind, Except.bind, size_of_sized sized,
    Workload.workersOption, number?_of_chosen workers, chosenSettings_of_few accepted few]
  rfl

theorem make_of_rejects (rejects : Rejects w valueOf arguments message) :
    ∃ complaint, Plan.make w valueOf arguments = .error complaint ∧ complaint.message = message := by
  cases rejects with
  | arguments misread =>
    obtain ⟨complaint, read, worded⟩ := pairs_of_misread misread
    exact ⟨complaint, by simp only [Plan.make, Options.ofArguments, read, Except.map, bind, Except.bind], worded⟩
  | size pairs sizable illegible =>
    obtain ⟨complaint, read, worded⟩ := number?_of_illegible illegible
    refine ⟨complaint, ?_, worded⟩
    simp only [Plan.make, Options.ofArguments, pairs_of_pairs pairs, Except.map, bind, Except.bind, Workload.size,
      sizable, read]
  | workers pairs sized illegible =>
    obtain ⟨complaint, read, worded⟩ := number?_of_illegible illegible
    refine ⟨complaint, ?_, worded⟩
    simp only [Plan.make, Options.ofArguments, pairs_of_pairs pairs, Except.map, bind, Except.bind, size_of_sized sized,
      Workload.workersOption, read]
  | @environment _ _ e _ pairs sized workers refused =>
    refine ⟨.host e, ?_, rfl⟩
    simp only [Plan.make, Options.ofArguments, pairs_of_pairs pairs, Except.map, bind, Except.bind, size_of_sized sized,
      Workload.workersOption, number?_of_chosen workers, chosenSettings, refused]
    rfl
  | tooMany pairs sized workers accepted many =>
    refine ⟨.host Settings.Flaw.tooManyWorkers.error, ?_, by decide⟩
    simp only [Plan.make, Options.ofArguments, pairs_of_pairs pairs, Except.map, bind, Except.bind, size_of_sized sized,
      Workload.workersOption, number?_of_chosen workers, chosenSettings_of_many accepted many]
    rfl

theorem accepts_or_rejects (w : Workload) (valueOf : String → Option String) (arguments : List String) :
    (∃ plan, Accepts w valueOf arguments plan) ∨ ∃ message, Rejects w valueOf arguments message := by
  rcases pairs_or_misread w.options arguments with ⟨values, pairs⟩ | ⟨message, misread⟩
  · rcases sized_or_illegible w values with ⟨size, sized⟩ | ⟨name, otherwise, message, sizable, illegible⟩
    · rcases chosen_or_illegible values "workers" with ⟨n?, workers⟩ | ⟨message, illegible⟩
      · cases accepted : Settings.ofEnvironment valueOf with
        | error e => exact .inr ⟨_, .environment pairs sized workers accepted⟩
        | ok s =>
          by_cases few : ∀ n ∈ n?, n ≤ 1024
          · exact .inl ⟨_, .intro pairs sized workers accepted few⟩
          · simp only [not_forall, not_le] at few
            obtain ⟨n, rfl, many⟩ := few
            exact .inr ⟨_, .tooMany pairs sized workers accepted many⟩
      · exact .inr ⟨_, .workers pairs sized illegible⟩
    · exact .inr ⟨_, .size pairs sizable illegible⟩
  · exact .inr ⟨_, .arguments misread⟩

/-- A scenario that was started never ends with the code for bad input. -/
theorem code_report (d : Display) (parallelism : Nat) (plan : Plan) : (plan.report d parallelism).code ≠ 2 := by
  have scenario : ∀ passed output, (Report.ofScenario passed output).code ≠ 2 := by
    intro passed output
    cases passed <;> simp [Report.ofScenario]
  rw [Plan.report]
  split
  · rw [counterReport]
    split
    · exact scenario _ _
    · exact scenario _ _
  · rw [ringReport]
    split
    · exact scenario _ _
    · exact scenario _ _
  · rw [rallyReport]
    split
    · exact scenario _ _
    · split
      · exact scenario _ _
      · exact scenario _ _

theorem threadObstacle?_overridden (n? : Option Nat) (on : Bool) :
    (Settings.overridden n? on).threadObstacle? 0 = none := by
  have name : (Settings.overridden n? on).nameOfThread 0 = "strand-worker-0" := by
    simp only [Settings.nameOfThread, Settings.overridden, Settings.default]
    decide
  simp only [Settings.threadObstacle?, name, if_neg (by decide : '\x00' ∉ "strand-worker-0".toList)]
  rfl

/-- A scheduler with the settings of a plan can be created, whatever machine it is on. -/
theorem obstacle?_of_accepts (accepts : Accepts w valueOf arguments plan) (parallelism : Nat) :
    plan.settings.obstacle? parallelism = none := by
  obtain @⟨_, n?, _, _, _, _, _, accepted, few⟩ := accepts
  obtain ⟨@⟨n?', on, _, few', _⟩, _⟩ := Settings.ofEnvironment_eq_ok_iff.1 accepted
  have either : ∀ n ∈ n?.or n?', n ≤ 1024 := by
    cases n? with
    | none => exact few'
    | some n => exact few
  change (Settings.overridden (n?.or n?') on).obstacle? parallelism = none
  rw [Settings.obstacle?, Settings.validate_overridden either]
  simp only [threadObstacle?_overridden, ite_self]

theorem command_word (w : Workload) : Command.ofWord w.word = .scenario w := by cases w <;> decide

variable {V C : Type}

/-- Either there is one thing that is complained about first, and then the command line ends with code two, prints nothing
and has one line about it among its errors; or there is one plan, and then the command line ends as its scenario does, which
is not with code two, and for which a scheduler with the plan's settings can be created. -/
theorem starts_exactly (w : Workload) (valueOf : String → Option String) (parallelism : Nat) (arguments : List String) :
    let d := Display.ofEnvironment valueOf
    let report := run valueOf parallelism (w.word :: arguments)
    (∃ message, (∀ other, Rejects w valueOf arguments other ↔ other = message) ∧
      (∀ plan, ¬Accepts w valueOf arguments plan) ∧
      report.code = 2 ∧ report.output = [] ∧ report.errors = d.paint .boldRed "error" ++ ": " ++ message ++ "\n") ∨
    ∃ plan, (∀ other, Accepts w valueOf arguments other ↔ other = plan) ∧
      (∀ message, ¬Rejects w valueOf arguments message) ∧
      report = plan.report d parallelism ∧ report.code ≠ 2 ∧
      ∀ (st : State V C) (g : RegistryId), st.addScheduler plan.settings g =
        let scheduler := Scheduler.new plan.settings g (plan.settings.workers.getD st.parallelism)
        .ok (.ok st.schedulers.next, { st with schedulers := st.schedulers.add scheduler }) := by
  intro d report
  have runs : report = runScenario d valueOf parallelism w arguments := by
    simp only [report, run, command_word]
    rfl
  rw [runs, runScenario]
  rcases accepts_or_rejects w valueOf arguments with ⟨plan, accepts⟩ | ⟨message, rejects⟩
  · right
    have made := make_of_accepts accepts
    refine ⟨plan, fun other => ⟨fun accepts' => ?_, fun same => same ▸ accepts⟩, fun message rejects => ?_, ?_, ?_,
      fun st g => ?_⟩
    · exact Except.ok.inj ((make_of_accepts accepts').symm.trans made)
    · obtain ⟨complaint, refused, _⟩ := make_of_rejects rejects
      exact absurd (made.symm.trans refused) nofun
    · simp only [made]
    · simp only [made]
      exact code_report d parallelism plan
    · rw [State.addScheduler, obstacle?_of_accepts accepts]
      rfl
  · left
    obtain ⟨complaint, made, worded⟩ := make_of_rejects rejects
    refine ⟨message, fun other => ⟨fun rejects' => ?_, fun same => same ▸ rejects⟩, fun plan accepts => ?_, ?_⟩
    · obtain ⟨complaint', made', worded'⟩ := make_of_rejects rejects'
      rw [← worded, ← worded', Except.error.inj (made'.symm.trans made)]
    · exact absurd (made.symm.trans (make_of_accepts accepts)) nofun
    · simp only [made, worded, errorLine, and_self]

end Tasking.Cli
