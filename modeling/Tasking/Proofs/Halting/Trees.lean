import Tasking.Proofs.Halting.Descent
import Tasking.Proofs.Ledger

/-! # Driving a scheduler comes to an end

A thread drives a scheduler whose tasks run frames from call trees of finite height: a frame that runs creates, calls,
continues in, spawns and has guarded only frames of a lower rank, and once it was called it runs only so often
(`Config.Treelike`).  Then the thread returns, unless a fault stops it (`Config.drive_returns`).

If it did not return then there would be a last event of the highest rank, because these frames are called only
before the drive; after that their code would go on only so long, so they would create and call only so many frames
of the next rank, and so on down to the lowest.  After the last event of all, nobody's code would go on any more, and
the runtime would go on with what it does of its own, which ends.
-/

namespace Tasking

variable {V C : Type}

namespace Config

open State

variable [Inhabited V] {c : Config V C} {d : Drive V C}

/-- The frames at work after so many steps, innermost first. -/
def atWork (c : Config V C) : Nat → List FrameId
  | 0 => []
  | n + 1 => (c.after n).heirs (c.atWork n)

omit [Inhabited V] in
/-- The frames that a step calls: code puts them on a chain or gives them to a new task, or a guard calls its
body. -/
def calls (c : Config V C) : List FrameId :=
  match c.focus with
  | .code (.ask (.attach f _) _) => [f]
  | .code (.ask (.spawn _ entry) _) | .code (.ask (.spawnBound _ entry) _) => [entry]
  | _ => (c.wakes?.bind c.state.awaited?).toList

omit [Inhabited V] in
theorem mem_calls {g : FrameId} (member : g ∈ c.calls) :
    g ∈ c.names ∨ c.wakes?.bind c.state.awaited? = some g := by
  unfold calls at member
  split at member
  · next same => exact .inl (by simpa [names, same, Request.names] using member)
  · next same => exact .inl (by simpa [names, same, Request.names] using member)
  · next same => exact .inl (by simpa [names, same, Request.names] using member)
  · exact .inr (by simpa using member)

omit [Inhabited V] in
theorem mem_of_event {fs : List FrameId} {g : FrameId} (happens : c.event? fs = some g) :
    c.wakes? = some g ∨ g ∈ fs := by
  unfold event? at happens
  split at happens
  · exact .inr (List.mem_of_head? happens)
  · exact .inl (Option.filter_eq_some_iff.1 happens).1

omit [Inhabited V] in
/-- The frame whose own code begins to run, or which calls a native function. -/
def begins? (c : Config V C) (fs : List FrameId) : Option FrameId :=
  match c.focus with
  | .code (.callNative _ _ _ _ _) => fs.head?
  | _ => c.wakes?.filter fun g => (c.state.body? g).isSome

omit [Inhabited V] in
/-- Code that begins to run is that of a frame, or the handler of an actor. -/
theorem begins_or_delivers {fs : List FrameId} {g : FrameId} (happens : c.event? fs = some g) :
    c.begins? fs = some g ∨
      c.wakes? = some g ∧ ∃ a message, c.state.code? g = some (.message a message false) := by
  have woken (filtered : (c.wakes?.filter fun g => c.state.engages g) = some g) :
      (c.wakes?.filter fun g => (c.state.body? g).isSome) = some g ∨
        c.wakes? = some g ∧ ∃ a message, c.state.code? g = some (.message a message false) := by
    obtain ⟨wakes, made⟩ := Option.filter_eq_some_iff.1 filtered
    unfold State.engages at made
    split at made
    · next body code => exact .inl (by simp [wakes, State.body?, code])
    · next a message code => exact .inr ⟨wakes, a, message, code⟩
    · cases made
  obtain ⟨st, focus, stack⟩ := c
  cases focus with
  | code p =>
    cases p with
    | callNative => exact .inl happens
    | _ => exact woken happens
  | _ => exact woken happens

/-- How often a frame's own code begins to run or calls a native function, in so many steps. -/
def events (c : Config V C) (g : FrameId) (start steps : Nat) : Nat :=
  (List.range' start steps).countP fun n => (c.after n).begins? (c.atWork n) = some g

omit [Inhabited V] in
/-- The code in focus waits for other threads. -/
def awaits (c : Config V C) : Bool :=
  match c.focus with
  | .code (.await _ _ _) => true
  | _ => false

/-- The thread has gone on below the drive. -/
def gone (c : Config V C) (n : Nat) : Bool :=
  (c.atWork n).isEmpty &&
    match (c.after n).focus with
    | .code _ => true
    | _ => false

/-- The drive goes on for so many steps. -/
def Going (c : Config V C) (n : Nat) : Prop := ∀ k < n, (c.after k).step.isOk = true ∧ c.gone k = false

/-- The frames that run during a drive come from call trees.  Each has a rank, and the ranks are bounded. -/
structure Treelike (c : Config V C) (rank limit : FrameId → Nat) (height : Nat) : Prop where
  low : ∀ g, rank g < height
  /-- Code names only frames of a lower rank than the frame that runs it. -/
  descends : ∀ n, c.Going n → ∀ f ∈ (c.atWork n).head?, ∀ g ∈ (c.after n).names, rank g < rank f
  /-- Code does not wait for other threads. -/
  present : ∀ n, c.Going n → (c.after n).awaits = false
  /-- As long as a frame is not called again, its code runs only so often. -/
  limited : ∀ g start steps, c.Going (start + steps) →
    (∀ n, start ≤ n → n < start + steps → g ∉ (c.after n).calls) → c.events g start steps ≤ limit g

/-- A drive that never comes to its end. -/
structure Endless (c : Config V C) (d : Drive V C) : Prop where
  step : ∀ n, (c.after n).step = .ok (c.after (n + 1))
  nested : ∀ n, (c.after n).Nested d (c.atWork n)
  acyclic : ∀ n, Acyclic (c.after n).state.caller
  flows : ∀ n, Flows (c.after n) (c.atWork n) (c.after (n + 1)) (c.atWork (n + 1))

theorem Nested.gone {n : Nat} (nested : (c.after n).Nested d (c.atWork n)) : c.gone n = false := by
  have focus := nested.focus
  unfold Config.gone
  cases running : c.atWork n with
  | cons f fs => rfl
  | nil =>
    rw [running] at focus
    split
    · next p code =>
      rw [code] at focus
      exact absurd rfl focus
    · rfl

namespace Endless

variable {among : FrameId → Bool} {start : Nat} (endless : c.Endless d)

include endless

theorem going (n : Nat) : c.Going n := fun k _ => ⟨by rw [endless.step]; rfl, (endless.nested k).gone⟩

/-! ### Debts are settled -/

/-- If no code begins to run for the frames that have to pay, then their code does not go on in the end. -/
theorem still (among : FrameId → Bool) (quiet : ∀ n ≥ start, ∀ g, (c.after n).event? (c.atWork n) = some g → among g = false) :
    ∃ rest ≥ start, ∀ n ≥ rest, (c.after n).Turns → ((c.after n).staying (c.atWork n)).head?.any among = false := by
  obtain ⟨rest, late, same⟩ := settles Multiset.wellFounded_isDershowitzMannaLT
    (fun n => (c.after n).debt among (c.atWork n)) fun n later =>
      ((endless.flows n).paid (endless.nested n) (quiet n later)).1
  refine ⟨rest, late, fun n later turns => ?_⟩
  by_contra pays
  have lower := ((endless.flows n).paid (endless.nested n) (quiet n (late.trans later))).2 turns (by simpa using pays)
  rw [same n later, same (n + 1) (by omega)] at lower
  exact Multiset.wellFounded_isDershowitzMannaLT.irrefl.irrefl _ lower

/-! ### No more frames -/

omit endless in
omit [Inhabited V] in
/-- Only code that goes on names frames. -/
theorem turns_of_names {g : FrameId} (fs : List FrameId) (member : g ∈ c.names) :
    c.Turns ∧ c.staying fs = fs := by
  obtain ⟨st, focus, stack⟩ := c
  cases focus with
  | code p =>
    cases p with
    | answer => simp [names] at member
    | _ => exact ⟨trivial, rfl⟩
  | _ => simp [names] at member

/-- Frames of some rank are not named any more when the code of those of higher ranks does not go on. -/
theorem unnamed {rank limit : FrameId → Nat} {height q : Nat} (tree : c.Treelike rank limit height)
    (still : ∀ n ≥ start, (c.after n).Turns →
      ((c.after n).staying (c.atWork n)).head?.any (fun g => decide (q < rank g)) = false) :
    ∀ n ≥ start, ∀ g ∈ (c.after n).names, decide (rank g = q) = false := by
  intro n later g member
  obtain ⟨turns, stays⟩ := turns_of_names (c.atWork n) member
  have low := still n later turns
  have busy := (endless.flows n).staying_ne_nil (endless.nested n) (endless.nested (n + 1)) turns
  rw [stays] at low busy
  obtain ⟨f, fs, running⟩ := List.exists_cons_of_ne_nil busy
  have less := tree.descends n (endless.going n) f (by simp [running]) g member
  have least : ¬ q < rank f := by simpa [running] using low
  simp only [decide_eq_false_iff_not]
  omega

/-- In the end the frames in question wear out no further. -/
theorem worn (among : FrameId → Bool) (apart : ∀ n ≥ start, ∀ g ∈ (c.after n).names, among g = false) :
    ∃ rest ≥ start, ∀ n ≥ rest, (c.after (n + 1)).state.wear among = (c.after n).state.wear among := by
  obtain ⟨rest, late, same⟩ := settles Nat.lt_wfRel.wf (fun n => (c.after n).state.wear among) fun n later =>
    Nat.eq_or_lt_of_le (wears_of_step (apart n later) (endless.step n)).le
  exact ⟨rest, late, fun n later => (same (n + 1) (by omega)).trans (same n later).symm⟩

/-- Frames that are not named any more and wear out no further are not called. -/
theorem uncalled (apart : ∀ n ≥ start, ∀ g ∈ (c.after n).names, among g = false)
    (worn : ∀ n ≥ start, (c.after (n + 1)).state.wear among = (c.after n).state.wear among) :
    ∀ n ≥ start, ∀ g ∈ (c.after n).calls, among g = false := by
  intro n later g member
  by_contra counts
  have counts : among g = true := by simpa using counts
  have spared : g ∉ (c.after n).names := fun named => by simp [apart n later g named] at counts
  -- Only a guard can have called the frame.
  have guarded := (mem_calls member).resolve_left spared
  obtain ⟨h, wakes, waits⟩ := Option.bind_eq_some_iff.1 guarded
  obtain ⟨resumption, stirs⟩ := (endless.flows n).stirs rfl wakes
  have lower := (wears_of_step (apart n later) (endless.step n)).lt (stirs.lowers_guard waits counts)
  rw [worn n later] at lower
  exact lt_irrefl _ lower

/-! ### No more events -/

/-- When a frame is not called any more, then in the end its code does not run. -/
theorem ceases {rank limit : FrameId → Nat} {height : Nat} {g : FrameId} (tree : c.Treelike rank limit height)
    (uncalled : ∀ n ≥ start, g ∉ (c.after n).calls) :
    ∃ rest ≥ start, ∀ n ≥ rest, (c.after n).begins? (c.atWork n) ≠ some g := by
  have bound (steps : Nat) : c.events g start steps ≤ limit g :=
    tree.limited g start steps (endless.going _) fun n later _ => uncalled n later
  have next (steps : Nat) : c.events g start (steps + 1) = c.events g start steps +
      if (c.after (start + steps)).begins? (c.atWork (start + steps)) = some g then 1 else 0 := by
    rw [events, List.range'_concat, List.countP_append, events]
    simp [List.countP_cons]
  obtain ⟨rest, _, same⟩ := settles Nat.lt_wfRel.wf (fun steps => limit g - c.events g start steps)
    fun steps (_ : steps ≥ 0) => Nat.eq_or_lt_of_le (by have := next steps; omega)
  refine ⟨start + rest, by omega, fun n later happens => ?_⟩
  obtain ⟨steps, rfl⟩ := Nat.exists_eq_add_of_le (show start ≤ n by omega)
  have more := next steps
  rw [if_pos happens] at more
  have now := same steps (by omega)
  have after := same (steps + 1) (by omega)
  have most := bound (steps + 1)
  omega

/-- The same for several frames. -/
theorem all_cease {rank limit : FrameId → Nat} {height : Nat} (tree : c.Treelike rank limit height)
    (uncalled : ∀ n ≥ start, ∀ g ∈ (c.after n).calls, among g = false) (frames : List FrameId) :
    ∃ rest ≥ start, ∀ n ≥ rest, ∀ g ∈ frames, among g = true → (c.after n).begins? (c.atWork n) ≠ some g := by
  induction frames with
  | nil => exact ⟨start, le_rfl, by simp⟩
  | cons g frames inductionHypothesis =>
    obtain ⟨rest, late, others⟩ := inductionHypothesis
    by_cases counts : among g = true
    · have spared : ∀ n ≥ start, g ∉ (c.after n).calls := fun n later called => by
        simp [uncalled n later g called] at counts
      obtain ⟨rest', late', this⟩ := endless.ceases tree spared
      refine ⟨max rest rest', le_trans late (le_max_left _ _), fun n later h member counts => ?_⟩
      rcases List.mem_cons.1 member with rfl | member
      · exact this n (le_trans (le_max_right _ _) later)
      · exact others n (le_trans (le_max_left _ _) later) h member counts
    · refine ⟨rest, late, fun n later h member counts' => ?_⟩
      rcases List.mem_cons.1 member with rfl | member
      · exact absurd counts' counts
      · exact others n later h member counts'

/-- Whatever is at work and is not named any more was known, or was at work. -/
theorem old (apart : ∀ n ≥ start, ∀ g ∈ (c.after n).names, among g = false) {g : FrameId}
    (counts : among g = true) : ∀ n ≥ start,
      (((c.after n).state.code? g).isSome = true → ((c.after start).state.code? g).isSome = true) ∧
      (g ∈ c.atWork n → g ∈ c.atWork start ∨ ((c.after start).state.code? g).isSome = true) := by
  intro n later
  induction n, later using Nat.le_induction with
  | base => exact ⟨id, .inl⟩
  | succ n later inductionHypothesis =>
    obtain ⟨known, working⟩ := inductionHypothesis
    refine ⟨fun now => known ((wears_of_step (apart n later) (endless.step n)).old counts now), fun member => ?_⟩
    have from' : g ∈ (c.after n).heirs (c.atWork n) := member
    rcases List.mem_append.1 from' with woken | stays
    · have wakes : (c.after n).wakes? = some g := by simpa using woken
      obtain ⟨resumption, stirs⟩ := (endless.flows n).stirs rfl wakes
      exact .inr (known stirs.known)
    · refine working ?_
      unfold staying at stays
      split at stays
      · exact List.mem_of_mem_tail stays
      · exact stays

/-- In the end no code runs for frames of the highest rank, and then for those of the next one. -/
theorem falls {rank limit : FrameId → Nat} {height : Nat} (tree : c.Treelike rank limit height) (r : Nat) :
    ∃ start, ∀ n ≥ start, ∀ g, (c.after n).event? (c.atWork n) = some g → rank g + r < height := by
  induction r with
  | zero => exact ⟨0, fun n _ g _ => tree.low g⟩
  | succ r inductionHypothesis =>
    obtain ⟨start, high⟩ := inductionHypothesis
    by_cases more : r < height
    · -- The highest rank for which code still runs.
      obtain ⟨q, rfl⟩ : ∃ q, height = q + r + 1 := ⟨height - r - 1, by omega⟩
      obtain ⟨s₁, late₁, still⟩ := endless.still (fun g => decide (q < rank g)) fun n (later : n ≥ start) g happens => by
        have := high n later g happens
        simp only [decide_eq_false_iff_not]
        omega
      have unnamed := endless.unnamed tree still
      obtain ⟨s₂, late₂, worn⟩ := endless.worn (fun g => decide (rank g = q)) unnamed
      have apart : ∀ n ≥ s₂, ∀ g ∈ (c.after n).names, decide (rank g = q) = false :=
        fun n later => unnamed n (late₂.trans later)
      have uncalled := endless.uncalled apart worn
      obtain ⟨s₃, late₃, ceased⟩ := endless.all_cease tree uncalled (c.atWork s₂ ++ (c.after s₂).state.frames.ids)
      refine ⟨s₃, fun n later g happens => ?_⟩
      have low := high n (by omega) g happens
      by_contra highest
      have counts : decide (rank g = q) = true := by
        simp only [decide_eq_true_eq]
        omega
      obtain ⟨known, working⟩ := endless.old apart counts n (late₃.trans later)
      have listed : g ∈ c.atWork s₂ ∨ ((c.after s₂).state.code? g).isSome = true := by
        rcases mem_of_event happens with wakes | member
        · obtain ⟨resumption, stirs⟩ := (endless.flows n).stirs rfl wakes
          exact .inr (known stirs.known)
        · exact working member
      -- A message that is delivered would wear out.
      have begins : (c.after n).begins? (c.atWork n) = some g := by
        rcases begins_or_delivers happens with begins | ⟨wakes, a, message, waits⟩
        · exact begins
        · obtain ⟨resumption, stirs⟩ := (endless.flows n).stirs rfl wakes
          have lower := (wears_of_step (apart n (late₃.trans later)) (endless.step n)).lt
            (stirs.lowers_message waits counts)
          exact absurd (worn n (late₃.trans later)) lower.ne
      refine ceased n later g (List.mem_append.2 (listed.imp_right fun known => ?_)) counts begins
      obtain ⟨code, here⟩ := Option.isSome_iff_exists.1 known
      obtain ⟨frame, found, _⟩ := Option.map_eq_some_iff.1 here
      exact Table.mem_ids found
    · refine ⟨start, fun n later g happens => ?_⟩
      have := high n later g happens
      omega

/-- A drive of frames that come from call trees comes to an end. -/
theorem false {rank limit : FrameId → Nat} {height : Nat} (tree : c.Treelike rank limit height) : False := by
  obtain ⟨start, none⟩ := endless.falls tree height
  have quiet : ∀ n ≥ start, (c.after n).event? (c.atWork n) = .none := fun n later => by
    by_contra happens
    obtain ⟨g, happens⟩ := Option.ne_none_iff_exists'.1 happens
    have := none n later g happens
    omega
  obtain ⟨s₁, late₁, still⟩ := endless.still (fun _ => true) fun n (later : n ≥ start) g happens => by
    simp [quiet n later] at happens
  have rests : ∀ n ≥ s₁, ¬ (c.after n).Turns := fun n later turns => by
    have busy := (endless.flows n).staying_ne_nil (endless.nested n) (endless.nested (n + 1)) turns
    obtain ⟨f, fs, stays⟩ := List.exists_cons_of_ne_nil busy
    simpa [stays] using still n later turns
  obtain ⟨s₂, late₂, worn⟩ := endless.worn (fun _ => true) fun n later g member =>
    absurd (turns_of_names (c.atWork n) member).1 (rests n later)
  have ages (n : Nat) (later : n ≥ s₁) : Ages (c.after n).state (c.after (n + 1)).state := by
    refine ages_of_step (fun request next asks => rests n later ?_) (endless.step n)
    rw [Turns, asks]
    trivial
  obtain ⟨s₃, late₃, finished⟩ := settles Nat.lt_wfRel.wf (fun n => (c.after n).state.unfinished)
    fun n (later : n ≥ s₂) => Nat.eq_or_lt_of_le (ages n (late₂.trans later)).unfinished_le
  have climbs (n : Nat) (later : n ≥ s₃) : (c.after (n + 1)).climb < (c.after n).climb := by
    have before := late₃.trans later
    rcases (endless.flows n).climbs (endless.nested n) (endless.acyclic n) (ages n (late₂.trans before))
      (quiet n (by omega)) (rests n (late₂.trans before)) with wears | finishes | climbs
    · exact absurd (worn n before) wears.ne
    · exact absurd ((finished (n + 1) (by omega)).trans (finished n later).symm) finishes.ne
    · exact climbs
  obtain ⟨s₄, late₄, same⟩ := settles wellFounded_lt (fun n => (c.after n).climb) fun n later => .inr (climbs n later)
  exact (climbs s₄ late₄).ne (same (s₄ + 1) (by omega))

end Endless

/-! ## The drive returns -/

/-- At no time is a frame below itself. -/
theorem acyclic_after (parallelism : Nat) (p : Program V C) (n : Nat) :
    Acyclic ((Config.start (.initial parallelism) p).after n).state.caller := by
  induction n with
  | zero =>
    intro f cycle
    obtain ⟨g, link, _⟩ := Relation.TransGen.head'_iff.1 cycle
    simp [Config.after, Config.start, State.initial, State.caller] at link
  | succ n inductionHypothesis =>
    rw [Config.after]
    split
    · next config step =>
      have wears : Wears (fun _ => false) _ config.state := wears_of_step (fun _ _ => rfl) step
      exact wears.acyclic inductionHypothesis
    · exact inductionHypothesis

/-- A thread that drives a scheduler whose tasks run frames from call trees returns after so many steps, with no task
ready, unless a fault stops it before. -/
theorem drive_returns {parallelism m height : Nat} {p : Program V C} {s : SchedulerId} {next : Nat → Program V C}
    {rank limit : FrameId → Nat} (begins : (Config.start (.initial parallelism) p).after m = c)
    (drives : c.focus = .drain s 0 next) (tree : c.Treelike rank limit height) :
    ∃ n, (∀ k < n, (c.after k).step.isOk = true) ∧
      ((c.after n).step.isOk = false ∨ (c.after n).Returned ⟨s, next, c.stack⟩) := by
  by_contra endless
  push Not at endless
  have acyclic (n : Nat) : Acyclic (c.after n).state.caller := by
    rw [← begins, ← after_add]
    exact acyclic_after parallelism p (m + n)
  -- Each step leads on, or the thread has returned.
  have onwards (n : Nat) (nested : ∀ k ≤ n, (c.after k).Nested ⟨s, next, c.stack⟩ (c.atWork k))
      (ok : ∀ k ≤ n, (c.after k).step.isOk = true) :
      Flows (c.after n) (c.atWork n) (c.after (n + 1)) (c.atWork (n + 1)) := by
    have present := tree.present n fun k before => ⟨ok k before.le, (nested k before.le).gone⟩
    refine flows_of_step (acyclic n) (nested n le_rfl) (fun condition limit next awaits => ?_) (step_after (ok n le_rfl))
    simp [Config.awaits, awaits] at present
  have all (n : Nat) : ∀ k ≤ n, (c.after k).Nested ⟨s, next, c.stack⟩ (c.atWork k) ∧ (c.after k).step.isOk = true := by
    induction n with
    | zero =>
      intro k first
      obtain rfl : k = 0 := by omega
      refine ⟨⟨?_, .base rfl⟩, by simpa using (endless 0 nofun).1⟩
      rw [show (c.after 0).focus = .drain s 0 next from drives]
      exact ⟨_, _, _, rfl, fun _ => ⟨rfl, rfl⟩⟩
    | succ n inductionHypothesis =>
      intro k before
      rcases Nat.lt_or_eq_of_le before with earlier | rfl
      · exact inductionHypothesis k (by omega)
      · obtain ⟨ok, stays⟩ := endless (n + 1) fun k before => (inductionHypothesis k (by omega)).2
        have flows := onwards n (fun k before => (inductionHypothesis k before).1)
          fun k before => (inductionHypothesis k before).2
        refine ⟨(flows.nested (inductionHypothesis n le_rfl).1).resolve_right fun returned => ?_, by simpa using ok⟩
        exact stays returned.2
  have forever : c.Endless ⟨s, next, c.stack⟩ := {
    step := fun n => step_after (all n n le_rfl).2
    nested := fun n => (all n n le_rfl).1
    acyclic := acyclic
    flows := fun n => onwards n (fun k before => (all n k before).1) fun k before => (all n k before).2 }
  exact forever.false tree

end Config

/-- A task's entry has a frame guarded by the resource.  That frame yields when it runs for the first time. -/
def visit (again : CellId) (r : ResourceId) : Body Bool Bool := fun context back _ =>
  if back then .answer (.done true)
  else
    .newFrame "stay" (fun inner _ _ => .ask (.read again) fun
      | true => .answer (.done true)
      | false => .ask (.write again true) fun _ => .ask (.yield inner.task) fun _ => .answer .suspended) fun stay =>
    .ask (.newGuard r stay) fun guard =>
    .ask (.attach guard (some context.frame)) fun _ =>
    .ask (.pause context.task guard) fun _ => .answer (.jump guard false)

/-- Two tasks go for one resource, and the thread drives their scheduler. -/
def visitors : Program Bool Bool :=
  .ask .newRegistry fun g =>
  .ask (.newScheduler .manual g) fun
    | .error _ => .answer .suspended
    | .ok s =>
      .ask (.newResource none) fun r =>
      .ask (.newCell false) fun again =>
      .newFrame "first" (visit again r) fun first =>
      .newFrame "second" (visit again r) fun second =>
      .ask (.spawn s first) fun
      | .error _ => .answer .suspended
      | .ok t => .ask (.spawn s second) fun
        | .error _ => .answer .suspended
        | .ok u => .ask (.start t) fun _ => .ask (.start u) fun _ => .drive s fun _ => .answer (.done true)

def visitorsDrive : Config Bool Bool := (Config.start (.initial 1) visitors).after 11

/-- The entries are above the frames they create. -/
def visitorsRank (f : FrameId) : Nat := if f.number ≤ 2 then 1 else 0

theorem visitorsDrive_tree : visitorsDrive.Treelike visitorsRank (fun _ => 42) 2 := by
  have within {n : Nat} (going : visitorsDrive.Going n) : n < 43 := by
    by_contra late
    have returned : visitorsDrive.gone 42 = true := by decide +kernel
    rw [(going 42 (by omega)).2] at returned
    cases returned
  have down : ∀ n < 43, ∀ f ∈ ((visitorsDrive.atWork n).head?).toList, ∀ g ∈ (visitorsDrive.after n).names,
      visitorsRank g < visitorsRank f := by decide +kernel
  have here : ∀ n < 43, (visitorsDrive.after n).awaits = false := by decide +kernel
  refine ⟨fun g => ?_, fun n going f first => down n (within going) f (by simpa using first),
    fun n going => here n (within going), fun g start steps going _ => ?_⟩
  · unfold visitorsRank
    split <;> omega
  · have short := within going
    have most := List.countP_le_length (l := List.range' start steps)
      (p := fun n => decide ((visitorsDrive.after n).begins? (visitorsDrive.atWork n) = some g))
    rw [List.length_range'] at most
    unfold Config.events
    omega

theorem visitors_return :
    visitorsDrive.Treelike visitorsRank (fun _ => 42) 2 ∧
      ∃ n, (∀ k < n, (visitorsDrive.after k).step.isOk = true) ∧
        ((visitorsDrive.after n).step.isOk = false ∨
          (visitorsDrive.after n).Returned ⟨⟨1⟩, fun _ => .answer (.done true), []⟩) :=
  ⟨visitorsDrive_tree, Config.drive_returns rfl rfl visitorsDrive_tree⟩

end Tasking
