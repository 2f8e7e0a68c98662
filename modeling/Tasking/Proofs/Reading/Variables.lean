import Tasking.Proofs.Reading.Numerals
import Tasking.Settings

/-! # Settings out of two variables

One variable asks for a number of workers, the other one switches deadlock detection; white space around the value does not
count.  What is not set stays at its default.  `Settings.accepts_exactly` says which values are accepted, what they lead
to, and which complaint is made about values that are not: first about a number that cannot be read, then about a switch,
and only then about a number that is too large.
-/

namespace Tasking.Settings

/-- A number with white space around it. -/
def Number (text : String) (n : Nat) : Prop := ∃ core, Text.Trims text core ∧ Text.Numeral core n

/-- A word that switches something on or off, in any case and with white space around it. -/
def Switch (text : String) (on : Bool) : Prop :=
  ∃ word, Text.Trims text word ∧
    word.toLower ∈ if on then ["1", "true", "on", "yes"] else ["0", "false", "off", "no"]

/-- The number of workers that a variable asks for. -/
inductive AsksWorkers : Option String → Option Nat → Prop where
  | unset : AsksWorkers none default.workers
  | set {text : String} {n : Nat} (number : Number text n) : AsksWorkers (some text) (some n)

/-- What a variable switches deadlock detection to. -/
inductive AsksDetection : Option String → Bool → Prop where
  | unset : AsksDetection none default.deadlockDetection
  | set {text : String} {on : Bool} (switch : Switch text on) : AsksDetection (some text) on

/-- The default settings with another number of workers and another switch. -/
def overridden (workers : Option Nat) (detection : Bool) : Settings :=
  { default with workers := workers, deadlockDetection := detection }

/-- The settings that the variables ask for. -/
inductive Asks (workers detection : Option String) : Settings → Prop where
  | intro {n? : Option Nat} {on : Bool} (number : AsksWorkers workers n?) (few : ∀ n ∈ n?, n ≤ 1024)
      (switch : AsksDetection detection on) : Asks workers detection (overridden n? on)

/-- What is said about variables that are not accepted.  Text is quoted as it is, white space included. -/
inductive Complains (workers detection : Option String) : String → Prop where
  | workers {text : String} (set : workers = some text) (illegible : ¬∃ n < 2 ^ 64, Number text n) :
      Complains workers detection ("STRAND_WORKERS must be a number, got `" ++ text ++ "`")
  | detection {n? : Option Nat} {text : String} (number : AsksWorkers workers n?) (fits : ∀ n ∈ n?, n < 2 ^ 64)
      (set : detection = some text) (illegible : ¬∃ on, Switch text on) :
      Complains workers detection ("STRAND_DEADLOCK_DETECTION must be on/off, got `" ++ text ++ "`")
  | tooMany {n : Nat} {on : Bool} (number : AsksWorkers workers (some n)) (fits : n < 2 ^ 64) (many : 1024 < n)
      (switch : AsksDetection detection on) : Complains workers detection "worker_threads too large (max 1024)"

variable {text : String} {n : Nat} {n? : Option Nat} {on : Bool} {workers detection : Option String} {s : Settings}
  {message : String} {valueOf : String → Option String}

/-! ## What is read off one text -/

theorem numeral?_trim_iff : Text.numeral? (Text.trim text) = some n ↔ Number text n ∧ n < 2 ^ 64 := by
  rw [Text.numeral?_eq_some_iff, Number]
  constructor
  · rintro ⟨numeral, small⟩
    exact ⟨⟨_, Text.trim_eq_iff.1 rfl, numeral⟩, small⟩
  · rintro ⟨⟨core, trims, numeral⟩, small⟩
    exact ⟨Text.trim_eq_iff.2 trims ▸ numeral, small⟩

theorem numeral?_trim_eq_none (illegible : ¬∃ n < 2 ^ 64, Number text n) : Text.numeral? (Text.trim text) = none := by
  rw [Option.eq_none_iff_forall_ne_some]
  intro n read
  obtain ⟨number, small⟩ := numeral?_trim_iff.1 read
  exact illegible ⟨n, small, number⟩

theorem flag?_eq_some_iff : flag? text = some on ↔ Switch text on := by
  have trimmed : Switch text on ↔
      (Text.trim text).toLower ∈ if on then ["1", "true", "on", "yes"] else ["0", "false", "off", "no"] := by
    constructor
    · rintro ⟨word, trims, listed⟩
      rwa [Text.trim_eq_iff.2 trims]
    · exact fun listed => ⟨_, Text.trim_eq_iff.1 rfl, listed⟩
  -- No word switches both on and off.
  have apart : ∀ word ∈ ["0", "false", "off", "no"], word ∉ ["1", "true", "on", "yes"] := by decide
  rw [trimmed, flag?]
  by_cases yes : (Text.trim text).toLower ∈ ["1", "true", "on", "yes"]
  · rw [if_pos yes]
    cases on with
    | true => exact ⟨fun _ => yes, fun _ => rfl⟩
    | false => exact ⟨nofun, fun no => absurd yes (apart _ no)⟩
  · rw [if_neg yes, Option.ite_none_right_eq_some]
    cases on with
    | true => exact ⟨nofun, fun yes' => absurd yes' yes⟩
    | false => exact ⟨And.left, fun no => ⟨no, rfl⟩⟩

theorem flag?_eq_none (illegible : ¬∃ on, Switch text on) : flag? text = none := by
  rw [Option.eq_none_iff_forall_ne_some]
  exact fun on read => illegible ⟨on, flag?_eq_some_iff.1 read⟩

/-! ## What the variables lead to -/

theorem withWorkersText_eq (number : AsksWorkers workers n?) (fits : ∀ n ∈ n?, n < 2 ^ 64) :
    default.withWorkersText workers = .ok (overridden n? default.deadlockDetection) := by
  cases number with
  | unset => rfl
  | set number =>
    rw [withWorkersText, numeral?_trim_iff.2 ⟨number, fits _ rfl⟩]
    rfl

theorem withDetectionText_eq (switch : AsksDetection detection on) (n? : Option Nat) :
    (overridden n? default.deadlockDetection).withDetectionText detection = .ok (overridden n? on) := by
  cases switch with
  | unset => rfl
  | set switch =>
    rw [withDetectionText, flag?_eq_some_iff.2 switch]
    rfl

theorem flaw?_overridden (n? : Option Nat) (on : Bool) :
    (overridden n? on).flaw? = if n?.any (maxWorkers < ·) then some .tooManyWorkers else none := rfl

theorem validate_overridden (few : ∀ n ∈ n?, n ≤ 1024) (on : Bool) :
    (overridden n? on).validate = .ok (overridden n? on) := by
  have fine : ¬ n?.any (maxWorkers < ·) = true := by
    simp only [Option.any_eq_true, decide_eq_true_eq, not_exists, not_and, not_lt]
    exact few
  rw [validate, flaw?_overridden, if_neg fine]

theorem ofEnvironment_of_asks (asks : Asks (valueOf workersVariable) (valueOf detectionVariable) s) :
    ofEnvironment valueOf = .ok s ∧ s.validate = .ok s := by
  obtain @⟨n?, on, number, few, switch⟩ := asks
  have valid := validate_overridden few on
  refine ⟨?_, valid⟩
  rw [ofEnvironment, withWorkersText_eq number fun n asked => lt_of_le_of_lt (few n asked) (by decide)]
  simp only [bind, Except.bind, withDetectionText_eq switch, valid]

theorem ofEnvironment_of_complains (complains : Complains (valueOf workersVariable) (valueOf detectionVariable) message) :
    ofEnvironment valueOf = .error (.settings message) := by
  rw [ofEnvironment]
  cases complains with
  | workers set illegible =>
    rw [set, withWorkersText, numeral?_trim_eq_none illegible]
    rfl
  | detection number fits set illegible =>
    rw [withWorkersText_eq number fits, set]
    simp only [bind, Except.bind, withDetectionText, flag?_eq_none illegible]
    rfl
  | @tooMany n on number fits many switch =>
    have flaw : (overridden (some n) on).flaw? = some .tooManyWorkers := by
      rw [flaw?_overridden]
      exact if_pos (decide_eq_true many)
    rw [withWorkersText_eq number (by simpa using fits)]
    simp only [bind, Except.bind, withDetectionText_eq switch, validate, flaw]
    rfl

/-- Every pair of variables is either accepted or complained about. -/
theorem asks_or_complains (workers detection : Option String) :
    (∃ s, Asks workers detection s) ∨ ∃ message, Complains workers detection message := by
  have legible : (∃ n?, AsksWorkers workers n? ∧ ∀ n ∈ n?, n < 2 ^ 64) ∨
      ∃ text, workers = some text ∧ ¬∃ n < 2 ^ 64, Number text n := by
    cases workers with
    | none => exact .inl ⟨_, .unset, nofun⟩
    | some text =>
      by_cases legible : ∃ n < 2 ^ 64, Number text n
      · obtain ⟨n, small, number⟩ := legible
        exact .inl ⟨_, .set number, by simpa using small⟩
      · exact .inr ⟨text, rfl, legible⟩
  have switches : (∃ on, AsksDetection detection on) ∨ ∃ text, detection = some text ∧ ¬∃ on, Switch text on := by
    cases detection with
    | none => exact .inl ⟨_, .unset⟩
    | some text =>
      by_cases switches : ∃ on, Switch text on
      · obtain ⟨on, switch⟩ := switches
        exact .inl ⟨_, .set switch⟩
      · exact .inr ⟨text, rfl, switches⟩
  rcases legible with ⟨n?, number, fits⟩ | ⟨text, set, illegible⟩
  · rcases switches with ⟨on, switch⟩ | ⟨text, set, illegible⟩
    · by_cases few : ∀ n ∈ n?, n ≤ 1024
      · exact .inl ⟨_, .intro number few switch⟩
      · simp only [not_forall, not_le] at few
        obtain ⟨n, rfl, many⟩ := few
        exact .inr ⟨_, .tooMany number (fits n rfl) many switch⟩
    · exact .inr ⟨_, .detection number fits set illegible⟩
  · exact .inr ⟨_, .workers set illegible⟩

theorem ofEnvironment_eq_ok_iff : ofEnvironment valueOf = .ok s ↔
    Asks (valueOf workersVariable) (valueOf detectionVariable) s ∧ s.validate = .ok s := by
  constructor
  · intro read
    rcases asks_or_complains (valueOf workersVariable) (valueOf detectionVariable) with ⟨s', asks⟩ | ⟨message, complains⟩
    · obtain ⟨read', valid⟩ := ofEnvironment_of_asks asks
      obtain rfl := Except.ok.inj (read.symm.trans read')
      exact ⟨asks, valid⟩
    · exact absurd (read.symm.trans (ofEnvironment_of_complains complains)) nofun
  · exact fun ⟨asks, _⟩ => (ofEnvironment_of_asks asks).1

theorem ofEnvironment_eq_error_iff {e : HostError} : ofEnvironment valueOf = .error e ↔
    ∃ message, Complains (valueOf workersVariable) (valueOf detectionVariable) message ∧ e = .settings message := by
  constructor
  · intro read
    rcases asks_or_complains (valueOf workersVariable) (valueOf detectionVariable) with ⟨s', asks⟩ | ⟨message, complains⟩
    · exact absurd (read.symm.trans (ofEnvironment_of_asks asks).1) nofun
    · exact ⟨message, complains, Except.error.inj (read.symm.trans (ofEnvironment_of_complains complains))⟩
  · rintro ⟨message, complains, rfl⟩
    exact ofEnvironment_of_complains complains

/-- The variables are accepted exactly if they ask for something, and then they lead to the default settings with what they
ask for, which are valid.  Otherwise there is a complaint about the settings: about the number if it cannot be read,
else about the switch if it is none, else about a number that is too large. -/
theorem accepts_exactly (valueOf : String → Option String) :
    (∀ s, ofEnvironment valueOf = .ok s ↔
      Asks (valueOf "STRAND_WORKERS") (valueOf "STRAND_DEADLOCK_DETECTION") s ∧ s.validate = .ok s) ∧
    ∀ e, ofEnvironment valueOf = .error e ↔
      ∃ message, Complains (valueOf "STRAND_WORKERS") (valueOf "STRAND_DEADLOCK_DETECTION") message ∧
        e = .settings message :=
  ⟨fun _ => ofEnvironment_eq_ok_iff, fun _ => ofEnvironment_eq_error_iff⟩

end Tasking.Settings
