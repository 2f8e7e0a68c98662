import Tasking.Proofs.Mail.Acting

/-! # What a step does to the chain of a task

Most steps leave the chain of a task alone.  `Picture.Shifts` lists the others: the frame that runs puts another one on
top or gives the frame on top another caller, a guard calls its body, a frame finishes, and a frame jumps.
`Crew.Run.Acts.shifts` says that there are no more.
-/

namespace Tasking

variable {V C : Type}

namespace Picture

/-- Where the part of a task's chain begins that is left when its run has cancelled what it is to cancel. -/
def anchor (p : Picture V) (t : TaskId) : Option FrameId :=
  match p.stage t with
  | some (.unwinding _ target) => some target
  | _ => p.top t

variable {p p' : Picture V} {t : TaskId} {f : FrameId}

theorem anchor_of_plain (plain : Plain (p.stage t)) : p.anchor t = p.top t := by
  unfold anchor
  split
  · next doomed target at' => exact absurd at' (plain doomed target)
  · rfl

theorem anchor_unwinding {doomed : List FrameId} {target : FrameId}
    (at' : p.stage t = some (.unwinding doomed target)) : p.anchor t = some target := by
  rw [anchor, at']

theorem base_unwinding {doomed : List FrameId} {target : FrameId}
    (at' : p.stage t = some (.unwinding doomed target)) : p.base t = (doomed ++ [target]).head? := by
  rw [base, at']

theorem anchor_next (stage : p.stage t = some .next) : p.anchor t = p.top t := anchor_of_plain (by simp [Plain, stage])

theorem plain_none : Plain none := by simp [Plain]

theorem plain_next : Plain (some .next) := by simp [Plain]

theorem plain_inside : Plain (some (.inside f)) := by simp [Plain]

/-- What is left of the chain of a task is as it was: nothing in use gets another caller, and nothing comes into use. -/
structure Stays (p : Picture V) (t : TaskId) (p' : Picture V) : Prop where
  anchor : p'.anchor t = p.anchor t
  uses : ∀ {x}, p'.Uses t x → p.Uses t x
  caller : ∀ {x}, p.Uses t x → p'.caller x = p.caller x
  inside : ∀ {x}, p'.stage t = some (.inside x) → p.stage t = some (.inside x) ∨ p'.top t = some x

/-- What a step of a thread does to the chain of a task. -/
inductive Shifts (p : Picture V) (agent : Agent V C) (t : TaskId) (p' : Picture V) : Prop where
  | stays (stays : p.Stays t p')
  | puts {g f : FrameId} {next : Unit → Program V C} (focus : agent.focus = .code (.ask (.pause t f) next))
      (mine : (t, .inside g) ∈ agent.runs) (inside : p.stage t = some (.inside g)) (stage : p'.stage t = p.stage t)
      (top : p'.top t = some f) (place : f = g ∨ p.caller f = some g ∨ p.caller f = p.caller g)
      (caller : p'.caller = p.caller)
  | relinks {g f : FrameId} {c : Option FrameId} {next : Unit → Program V C}
      (focus : agent.focus = .code (.ask (.attach f c) next)) (mine : (t, .inside g) ∈ agent.runs)
      (inside : p.stage t = some (.inside g)) (stage : p'.stage t = p.stage t) (first : p.top t = some f)
      (top : p'.top t = p.top t) (apart : f ≠ g) (place : c = some g ∨ c = p.caller g)
      (caller : p'.caller = Function.update p.caller f c)
  | calls {h b : FrameId} (mine : (t, .next) ∈ agent.runs) (next : p.stage t = some .next) (first : p.top t = some h)
      (idle : p.Idle b) (inside : p'.stage t = some (.inside h)) (top : p'.top t = some b)
      (caller : p'.caller = Function.update p.caller b (some h))
  | returns {f h : FrameId} {answer : Answer V} {after : Focus V C} {rest : List (Activation V C)}
      (ends : (∃ value, answer = .done value) ∨ ∃ error, answer = .throw error)
      (same : agent = ⟨.code (.answer answer), .frame t f after :: rest⟩) (inside : p.stage t = some (.inside f))
      (first : p.top t = some f) (link : p.caller f = some h) (next : p'.stage t = some .next)
      (top : p'.top t = some h) (caller : p'.caller = p.caller)
  | ends {f : FrameId} {answer : Answer V} {after : Focus V C} {rest : List (Activation V C)}
      (ends : (∃ value, answer = .done value) ∨ ∃ error, answer = .throw error)
      (same : agent = ⟨.code (.answer answer), .frame t f after :: rest⟩) (inside : p.stage t = some (.inside f))
      (first : p.top t = some f) (last : p.caller f = none)
  | jumps {f s target : FrameId} {value : V} {after : Focus V C} {rest : List (Activation V C)}
      (same : agent = ⟨.code (.answer (.jump target value)), .frame t f after :: rest⟩)
      (inside : p.stage t = some (.inside f)) (start : p.top t = some f ∧ p.caller f = some s ∨ p.top t = some s)
      (way : Reaches p.caller s target) (anchor : p'.anchor t = some target)
      (uses : ∀ {x}, p'.Uses t x → p.Uses t x) (unmoved : ∀ {x}, p'.stage t ≠ some (.inside x))
      (caller : p'.caller = p.caller)

/-! ## Chains that stay -/

theorem OnChain.of_anchor (woven : p.Woven) (anchor : p.anchor t = some f) : p.OnChain t f := by
  by_cases unwinds : Plain (p.stage t)
  · exact .of_base ((base_plain unwinds).trans ((anchor_of_plain unwinds).symm.trans anchor))
  · obtain ⟨doomed, target, at'⟩ : ∃ doomed target, p.stage t = some (.unwinding doomed target) := by
      simpa [Plain] using unwinds
    obtain rfl := Option.some.inj ((anchor_unwinding at').symm.trans anchor)
    exact onChain_of_mem_path woven at' (List.mem_append_right _ (List.mem_singleton_self _))

/-- A task uses nothing new if its chain begins on its chain. -/
theorem Uses.of_base {q : Picture V} (base : ∀ {b}, q.base t = some b → p.OnChain t b)
    (caller : ∀ {x}, p.Uses t x → q.caller x = p.caller x)
    (inside : ∀ {x}, q.stage t = some (.inside x) → p.Uses t x) (uses : q.Uses t f) : p.Uses t f := by
  obtain ⟨b, begins, way⟩ | running := uses
  · obtain ⟨b', begins', way'⟩ := base begins
    have same : ∀ x, Reaches p.caller b x → q.caller x = p.caller x := fun x on =>
      caller (.inl ⟨b', begins', way'.trans on⟩)
    exact .inl ⟨b', begins', way'.trans ((Reaches.congr same).1 way)⟩
  · exact inside running

namespace Stays

/-- The run of a task goes to a place on its chain, and what is left of the chain stays. -/
theorem of_base (anchor : p'.anchor t = p.anchor t) (base : ∀ {b}, p'.base t = some b → p.OnChain t b)
    (caller : ∀ {x}, p.Uses t x → p'.caller x = p.caller x)
    (inside : ∀ {x}, p'.stage t = some (.inside x) → p.Uses t x)
    (inside' : ∀ {x}, p'.stage t = some (.inside x) → p.stage t = some (.inside x) ∨ p'.top t = some x) :
    p.Stays t p' :=
  ⟨anchor, Uses.of_base base caller inside, caller, inside'⟩

/-- The run of a task stays where it is. -/
theorem of_stage (stage : p'.stage t = p.stage t) (top : p'.top t = p.top t ∨ ¬ Plain (p.stage t))
    (caller : ∀ {x}, p.Uses t x → p'.caller x = p.caller x) : p.Stays t p' := by
  have first (plain : Plain (p.stage t)) : p'.top t = p.top t := top.resolve_right (not_not_intro plain)
  refine .of_base ?_ (fun {b} begins => .of_base ?_) caller (fun {x} inside => .inr (stage ▸ inside))
    fun {x} inside => .inl (stage ▸ inside)
  · unfold Picture.anchor
    rw [stage]
    split
    · rfl
    · next plain => exact first fun doomed target same => plain doomed target same
  · rw [← begins]
    unfold base
    rw [stage]
    split
    · rfl
    · next plain => exact (first fun doomed target same => plain doomed target same).symm

/-- The run of a task begins, stops, or takes up the top of the chain. -/
theorem of_turn {s s' : Option Stage} (was : p.stage t = s) (now : p'.stage t = s') (plain : Plain s) (plain' : Plain s')
    (top : p'.top t = p.top t) (caller : p'.caller = p.caller)
    (inside : ∀ {x}, p'.stage t = some (.inside x) → p.top t = some x) : p.Stays t p' := by
  have before : Plain (p.stage t) := was ▸ plain
  have after : Plain (p'.stage t) := now ▸ plain'
  refine .of_base ?_ (fun {b} begins => .of_base ?_) (fun _ => congrFun caller _)
    (fun {x} running => .inl (.of_base ((base_plain before).trans (inside running))))
    fun {x} running => .inr (top.trans (inside running))
  · rw [anchor_of_plain before, anchor_of_plain after, top]
  · rw [base_plain before, ← top, ← base_plain after, begins]

/-- The next of the frames that an unwind skips is cancelled. -/
theorem of_cancel (woven : p.Woven) {g target : FrameId} {doomed : List FrameId}
    (before : p.stage t = some (.unwinding (g :: doomed) target)) (after : p'.stage t = some (.unwinding doomed target))
    (caller : p'.caller = p.caller) : p.Stays t p' := by
  refine .of_base ((anchor_unwinding after).trans (anchor_unwinding before).symm) (fun {b} begins => ?_)
    (fun _ => congrFun caller _) (fun {x} running => by simp [after] at running) fun {x} running => by simp [after] at running
  have member : b ∈ doomed ++ [target] := List.mem_of_mem_head? ((base_unwinding after).symm.trans begins)
  exact onChain_of_mem_path woven before (List.mem_cons_of_mem _ member)

/-- An unwind is done, and the task goes on at its target. -/
theorem of_land (woven : p.Woven) {target : FrameId} (before : p.stage t = some (.unwinding [] target))
    (after : p'.stage t = some .next) (top : p'.top t = some target) (caller : p'.caller = p.caller) :
    p.Stays t p' := by
  have anchor : p.anchor t = some target := anchor_unwinding before
  refine .of_base ?_ (fun {b} begins => ?_) (fun _ => congrFun caller _) (fun {x} running => by simp [after] at running)
    fun {x} running => by simp [after] at running
  · rw [anchor, anchor_next after, top]
  · obtain rfl : target = b := by
      rw [base_next after, top] at begins
      exact Option.some.inj begins
    exact .of_anchor woven anchor

end Stays

/-- A frame jumps to another one of its chain. -/
theorem Shifts.of_jump {agent : Agent V C} (woven : p.Woven) {g s target : FrameId} {value : V} {after : Focus V C}
    {rest : List (Activation V C)}
    (same : agent = ⟨.code (.answer (.jump target value)), .frame t g after :: rest⟩)
    (inside : p.stage t = some (.inside g)) (start : p.top t = some g ∧ p.caller g = some s ∨ p.top t = some s)
    (way : Reaches p.caller s target) (anchor : p'.anchor t = some target)
    (base : ∀ {b}, p'.base t = some b → Reaches p.caller s b) (unmoved : ∀ {x}, p'.stage t ≠ some (.inside x))
    (caller : p'.caller = p.caller) : p.Shifts agent t p' := by
  have on : p.OnChain t s := by
    obtain ⟨_, link⟩ | first := start
    · exact woven.onChain_caller inside link
    · exact .of_base ((base_inside inside).trans first)
  refine .jumps same inside start way anchor ?_ unmoved caller
  refine Uses.of_base (fun {b} begins => ?_) (fun _ => congrFun caller _) fun {x} running => absurd running unmoved
  obtain ⟨b', begins', way'⟩ := on
  exact ⟨b', begins', way'.trans (base begins)⟩

/-- A thread that does not run a task leaves its chain as it is. -/
theorem Shifts.stays_of_apart {agent : Agent V C} (shifts : p.Shifts agent t p') (apart : ∀ s, (t, s) ∉ agent.runs) :
    p.Stays t p' := by
  cases shifts with
  | stays stays => exact stays
  | puts _ mine | relinks _ mine | calls mine => exact absurd mine (apart _)
  | returns _ same | ends _ same | jumps same =>
    subst same
    exact absurd (List.mem_append_right _ List.mem_cons_self) (apart _)

end Picture

namespace State

variable {st st' st'' : State V C} {t u : TaskId} {top : Option FrameId}

/-- The chain of a task begins elsewhere, and all else about chains is as it was. -/
structure Redirects (st st' : State V C) (t : TaskId) (top : Option FrameId) : Prop where
  top : st'.top t = top
  others : ∀ {u}, u ≠ t → st'.top u = st.top u
  caller : st'.caller = st.caller

theorem KeepsChains.redirects (keeps : KeepsChains st st') (t : TaskId) : Redirects st st' t (st.top t) :=
  ⟨keeps.top t, fun _ => keeps.top _, keeps.caller⟩

namespace Redirects

theorem modifyTask {task : Task V} (found : st.tasks.get? t = some task) {change : Task V → Task V}
    (sets : (change task).top = top) : Redirects st (st.modifyTask t change) t top := by
  refine ⟨?_, fun {u} other => ?_, rfl⟩
  · simp [State.top, get?_modifyTask, found, sets]
  · rw [State.top, get?_modifyTask, if_neg other, State.top]

theorem trans {top' : Option FrameId} (first : Redirects st st' t top) (second : Redirects st' st'' t top') :
    Redirects st st'' t top' :=
  ⟨second.top, fun other => (second.others other).trans (first.others other), second.caller.trans first.caller⟩

theorem keeps (redirects : Redirects st st' t top) (keeps : KeepsChains st' st'') : Redirects st st'' t top :=
  ⟨(keeps.top t).trans redirects.top, fun other => (keeps.top _).trans (redirects.others other),
    keeps.caller.trans redirects.caller⟩

end Redirects

theorem top_of_new {new : Task V}
    (tasks : ∀ u, st'.tasks.get? u = if u = st.tasks.next then some new else st.tasks.get? u)
    (known : (st.tasks.get? t).isSome = true) : st'.top t = st.top t := by
  have old : t ≠ st.tasks.next := fun same => by simp [same, Table.get?_next] at known
  rw [State.top, tasks, if_neg old, State.top]

variable [Inhabited V]

/-- A request puts a frame on top of a chain or gives one another caller, or all chains stay; new ones may begin. -/
theorem chains_serve {request : Request V C} {reply : request.Reply} (unmoving : st.Unmoving request)
    (known : (st.tasks.get? t).isSome = true) (done : st.serve request = .ok (reply, st')) :
    (∃ u f, request = .pause u f ∧ Redirects st st' u (some f)) ∨
      (∃ f c, request = .attach f c ∧ (∀ u, st'.top u = st.top u) ∧ st'.caller = Function.update st.caller f c) ∨
      st'.top t = st.top t ∧ st'.caller = st.caller := by
  have keeps (keeps : KeepsChains st st') : st'.top t = st.top t ∧ st'.caller = st.caller := ⟨keeps.top t, keeps.caller⟩
  cases request with
  | pause u f =>
    simp only [serve, bind_ok, pure_ok, Prod.mk.injEq] at done
    obtain ⟨_, paused, _, rfl⟩ := done
    obtain ⟨there, rfl⟩ := pause_ok paused
    obtain ⟨task, found⟩ := Option.isSome_iff_exists.1 there
    exact .inl ⟨u, f, rfl, .modifyTask found rfl⟩
  | attach f c =>
    simp only [serve, bind_ok, pure_ok, Prod.mk.injEq] at done
    obtain ⟨_, attached, _, rfl⟩ := done
    obtain ⟨there, _, rfl⟩ := attach_ok attached
    exact .inr (.inl ⟨f, c, rfl, fun _ => rfl, caller_attach there c⟩)
  | move => exact absurd rfl (unmoving _ _)
  | newGuard r body =>
    obtain rfl : _ = st' := congrArg Prod.snd (pure_ok.1 done)
    exact .inr (.inr (keeps (.addFrame rfl)))
  | newJoin child =>
    obtain rfl : _ = st' := congrArg Prod.snd (pure_ok.1 done)
    exact .inr (.inr (keeps (.addFrame rfl)))
  | newMessage a message =>
    simp only [serve, addMessage, bind_ok, pure_ok] at done
    obtain ⟨actor, _, exclusive, _, made⟩ := done
    obtain rfl : _ = st' := congrArg Prod.snd made
    exact .inr (.inr (keeps (.trans (.addFrame rfl) (.addFrame rfl))))
  | spawn s entry =>
    refine .inr (.inr ⟨?_, caller_of_frames (frames_serve done rfl)⟩)
    simp only [serve, State.spawn, bind_ok] at done
    obtain ⟨scheduler, _, done⟩ := done
    split at done
    · obtain rfl : st = st' := congrArg Prod.snd (pure_ok.1 done)
      rfl
    · obtain rfl : _ = st' := congrArg Prod.snd (pure_ok.1 done)
      exact top_of_new (get?_spawned s entry none) known
  | spawnBound s entry =>
    refine .inr (.inr ⟨?_, caller_of_frames (frames_serve done rfl)⟩)
    simp only [serve, State.spawnBound, bind_ok] at done
    obtain ⟨scheduler, _, done⟩ := done
    split at done
    · obtain rfl : st = st' := congrArg Prod.snd (pure_ok.1 done)
      rfl
    · split at done
      · obtain rfl : _ = st' := congrArg Prod.snd (pure_ok.1 done)
        exact top_of_new (fun u => st.tasks.get?_add_eq _ u) known
      · simp at done
      · simp only [bind_ok, State.startBound] at done
        obtain ⟨st₁, started, done⟩ := done
        obtain rfl : st₁ = st' := congrArg Prod.snd (pure_ok.1 done)
        rw [top_of_steady (steady_start started)]
        exact top_of_new (get?_spawned s entry (some scheduler.nextThread)) known
  | _ => exact .inr (.inr (keeps (.of_steady (steady_serve trivial done) (frames_serve done rfl))))

end State

/-- A guard that calls its body at once found its resource free. -/
theorem Effect.free {p p' : Picture V} {runner : Option TaskId} {t : TaskId} {g body : FrameId} {r : ResourceId}
    (effect : Effect p runner (some (t, g)) p') (known : p.known g) (start : p.guard g = some (r, .start body))
    (held : p'.guard g = some (r, .held)) : p.owner r = none := by
  cases effect with
  | @resumed _ _ top stage q _ mine on before front absent guarding after =>
    have guard := (after.guard (guarding.known ▸ known)).symm.trans held
    cases guarding with
    | take code nobody =>
      obtain rfl := congrArg Prod.fst (Option.some.inj ((show p.guard g = _ from code).symm.trans start))
      exact nobody
    | plain code | enter code | letGo code =>
      have code' : p.guard g = _ := code
      simp [start] at code'
    | settle | wait => simp at guard

namespace Crew

open State

variable {c c' : Crew V C} {agent : Agent V C} {t u : TaskId}

/-- What happens to another task. -/
theorem stays_of_other {new : Option Stage} (stage : c'.stage = Function.update c.stage u new) (other : t ≠ u)
    (top : c'.state.top t = c.state.top t) (caller : ∀ {x}, c.picture.Uses t x → c'.state.caller x = c.state.caller x) :
    c.picture.Stays t c'.picture := by
  refine .of_stage ?_ (.inl top) caller
  exact (congrFun stage t).trans (Function.update_of_ne other ..)

/-- One chain may begin elsewhere, and all others stay. -/
theorem shifts_of_redirects {new : Option Stage} {top : Option FrameId}
    (stage : c'.stage = Function.update c.stage u new) (redirects : Redirects c.state c'.state u top)
    (mine : t = u → c.picture.Shifts agent t c'.picture) : c.picture.Shifts agent t c'.picture := by
  by_cases same : t = u
  · exact mine same
  · exact .stays (stays_of_other stage same (redirects.others same) fun _ => congrFun redirects.caller _)

/-- Where a jump begins to unwind. -/
theorem start_of_jump {st : State V C} {f g target : FrameId} (start : Agent.topAfterJump st t f target = some g) :
    st.top t = some f ∧ st.caller f = some g ∨ st.top t = some g := by
  unfold Agent.topAfterJump at start
  split at start
  · next first => exact .inl ⟨first.1, start⟩
  · exact .inr start

variable [Inhabited V] {st st' : State V C} {before behind : List (Agent V C)} {config : Config V C}

/-- A guard calls its body only if no task uses the body. -/
theorem Sound.idle_of_calls (sound : (⟨st, before ++ agent :: behind⟩ : Crew V C).Sound)
    (guarded : (⟨st, before ++ agent :: behind⟩ : Crew V C).Guarded agent)
    (step : (agent.config st).step = .ok config) {after : Focus V C} (focus : agent.focus = .trampoline t after)
    {task : Task V} {f b : FrameId} (found : st.tasks.get? t = some task) (top : task.top = some f)
    (well : task.error = none) (calls : State.Calls st t f b config.state) :
    (⟨st, before ++ agent :: behind⟩ : Crew V C).picture.Idle b := by
  obtain ⟨r, phase, code, held⟩ := calls.guard
  have guard := guard?_of_code? code
  have permits := guarded
  unfold Guarded at permits
  rw [focus] at permits
  refine permits task f r b found top well ?_
  have awaited := calls.awaited
  rw [awaited?, code] at awaited
  cases phase with
  | held | released => cases awaited
  | waiting b' v =>
    obtain rfl := Option.some.inj awaited
    exact .inr ⟨v, guard⟩
  | start b' =>
    obtain rfl := Option.some.inj awaited
    obtain ⟨_, runner, effect, _⟩ := sound.goes (sound.goes_of_step (by simp) guarded step)
    have label : agent.resumed? st = some (t, f) := by
      unfold Agent.resumed?
      rw [focus]
      simp [top_of_get? found, top]
    rw [label] at effect
    exact .inl ⟨guard, effect.free (isSome_of_guard? guard) guard (guard?_of_code? held)⟩

namespace Run

variable {run : Run V C Guarded} {k : Nat}

/-- What a step of a thread does to a chain of the crew. -/
abbrev Shifts (t : TaskId) (st : State V C) (before : List (Agent V C)) (agent : Agent V C)
    (behind : List (Agent V C)) (config : Config V C) : Prop :=
  (⟨st, before ++ agent :: behind⟩ : Crew V C).picture.Shifts agent t
    (⟨config.state, before ++ config.agent :: behind⟩ : Crew V C).picture

omit [Inhabited V] in
theorem stage_same (runs : config.agent.runs = agent.runs) :
    (⟨config.state, before ++ config.agent :: behind⟩ : Crew V C).stage =
      (⟨st, before ++ agent :: behind⟩ : Crew V C).stage := by
  funext t
  simp only [Crew.stage, Crew.runs, List.flatMap_append, List.flatMap_cons, runs]

omit [Inhabited V] in
/-- A step that is not about any chain. -/
theorem shifts_of_runs (runs : config.agent.runs = agent.runs) (top : config.state.top t = st.top t)
    (caller : config.state.caller = st.caller) : Shifts t st before agent behind config :=
  .stays (.of_stage (congrFun (stage_same runs) t) (.inl top) fun _ => congrFun caller _)

omit [Inhabited V] in
/-- The run of a thread that runs code is inside a frame, or unwinds. -/
theorem not_next {p : Program V C} {stack : List (Activation V C)} {s : Stage}
    (head : (Agent.runs ⟨.code p, stack⟩).head? = some (u, s)) : s ≠ .next := by
  rintro rfl
  obtain ⟨y, _, run⟩ := List.mem_filterMap.1
    (show (u, Stage.next) ∈ stack.filterMap Activation.run? from List.mem_of_mem_head? head)
  cases y <;> simp [Activation.run?] at run

omit [Inhabited V] in
theorem run?_opened_toList (opened : Option ExclusiveId) :
    (opened.map Activation.opened).toList.filterMap (Activation.run? (V := V) (C := C)) = [] := by
  cases opened <;> rfl

theorem Acts.stage_turned (acts : run.Acts k st before agent behind config) (old new : Option Stage)
    {others : List (TaskId × Stage)} (mine : agent.runs = entry u old ++ others)
    (next : config.agent.runs = entry u new ++ others)
    (fresh : old = none → (⟨st, before ++ agent :: behind⟩ : Crew V C).stage u = none) :
    (⟨config.state, before ++ config.agent :: behind⟩ : Crew V C).stage =
      Function.update (⟨st, before ++ agent :: behind⟩ : Crew V C).stage u new :=
  (runs_replaced acts.sound.distinct mine next fresh).2

theorem Acts.stage_of_run (acts : run.Acts k st before agent behind config) {s : Stage} (mine : (u, s) ∈ agent.runs) :
    (⟨st, before ++ agent :: behind⟩ : Crew V C).picture.stage u = some s :=
  acts.sound.stage_of_run (by simp) mine

theorem Acts.shifts_serve {request : Request V C} {reply : request.Reply} {next : request.Reply → Program V C}
    {stack : List (Activation V C)}
    (acts : run.Acts k st before ⟨.code (.ask request next), stack⟩ behind ⟨st', .code (next reply), stack⟩)
    (known : (st.tasks.get? t).isSome = true) (served : st.serve request = .ok (reply, st')) :
    Shifts t st before ⟨.code (.ask request next), stack⟩ behind ⟨st', .code (next reply), stack⟩ := by
  have sound := acts.sound
  have permits : (⟨st, before ++ ⟨.code (.ask request next), stack⟩ :: behind⟩ : Crew V C).picture.Permits
    (Agent.runs ⟨.code (.ask request next), stack⟩).head? request := acts.permitted
  have stage : (⟨st', before ++ ⟨.code (next reply), stack⟩ :: behind⟩ : Crew V C).stage =
      (⟨st, before ++ ⟨.code (.ask request next), stack⟩ :: behind⟩ : Crew V C).stage :=
    @stage_same _ _ _ _ _ _ ⟨st', .code (next reply), stack⟩ rfl
  obtain ⟨u, f, rfl, redirects⟩ | ⟨f, c, rfl, tops, caller⟩ | ⟨top, caller⟩ :=
    chains_serve (acts.permitted.unmoving request next rfl) known served
  · -- A frame is put on top.
    obtain ⟨s, head, _, place⟩ := permits
    have mine := List.mem_of_mem_head? head
    have at' := acts.stage_of_run mine
    by_cases same : t = u
    · subst same
      cases s with
      | next => exact absurd rfl (not_next head)
      | inside g => exact .puts rfl mine at' (congrFun stage t) redirects.top (place g rfl) redirects.caller
      | unwinding doomed target =>
        refine .stays (.of_stage (congrFun stage t) (.inr fun plain => ?_) fun _ => congrFun redirects.caller _)
        exact plain doomed target at'
    · exact .stays (.of_stage (congrFun stage t) (.inl (redirects.others same)) fun _ => congrFun redirects.caller _)
  · -- A frame is given another caller.
    have stays (unused : ¬ (⟨st, before ++ ⟨.code (.ask (.attach f c) next), stack⟩ :: behind⟩ :
        Crew V C).picture.Uses t f) :
        Shifts t st before ⟨.code (.ask (.attach f c) next), stack⟩ behind ⟨st', .code (next reply), stack⟩ := by
      refine .stays (.of_stage (congrFun stage t) (.inl (tops t)) fun {x} uses => ?_)
      refine (congrFun caller x).trans (Function.update_of_ne ?_ ..)
      rintro rfl
      exact unused uses
    obtain same | ⟨_, idle | ⟨u, g, head, first, apart, place⟩⟩ := permits
    · refine .stays (.of_stage (congrFun stage t) (.inl (tops t)) fun {x} _ => ?_)
      have kept : Function.update st.caller f c = st.caller := by
        rw [← show st.caller f = c from same, Function.update_eq_self]
      exact congrFun (caller.trans kept) x
    · exact stays (idle.unused t)
    · have mine := List.mem_of_mem_head? head
      have at' := acts.stage_of_run mine
      by_cases same : t = u
      · subst same
        exact .relinks rfl mine at' (congrFun stage t) first (tops t) apart place caller
      · refine stays fun uses => same (sound.warded.apart uses (.inl (.of_base ?_)))
        exact (Picture.base_inside at').trans first
  · exact .stays (.of_stage (congrFun stage t) (.inl top) fun _ => congrFun caller _)

/-- A ready task is taken up. -/
theorem Acts.shifts_begins {st₁ st₂ : State V C} {focus after : Focus V C} {w : Worker} {stack : List (Activation V C)}
    (acts : run.Acts k st before ⟨focus, stack⟩ behind ⟨st₂, .trampoline u after, stack⟩) (detours : focus.Detours)
    (taken : (∃ s, st.takeReady s = .ok (some u, st₁)) ∨ (∃ index, focus = .own u index) ∧ st₁ = st)
    (begun : st₁.beginRun u w = .ok st₂) :
    Shifts t st before ⟨focus, stack⟩ behind ⟨st₂, .trampoline u after, stack⟩ := by
  obtain ⟨quiet₂, ready, _⟩ := Quiet.beginRun begun
  obtain ⟨quiet, keeps⟩ : Quiet st st₁ ∧ KeepsChains st st₂ := by
    obtain ⟨s, taken⟩ | ⟨_, rfl⟩ := taken
    · have quiet := Quiet.takeReady taken
      exact ⟨quiet, .of_steady ((steady_takeReady taken).trans (steady_beginRun begun))
        (quiet₂.frames.trans quiet.frames)⟩
    · exact ⟨.refl st₁, .of_steady (steady_beginRun begun) quiet₂.frames⟩
  have idle : (⟨st, before ++ ⟨focus, stack⟩ :: behind⟩ : Crew V C).stage u = none :=
    acts.sound.stage_of_life fun live => by simp [quiet.running live] at ready
  have stage := acts.stage_turned (u := u) none (some .next)
    (by simp [Agent.runs, detours.1]; rfl) rfl fun _ => idle
  refine shifts_of_redirects stage (keeps.redirects u) ?_
  rintro rfl
  have was : (⟨st, before ++ ⟨focus, stack⟩ :: behind⟩ : Crew V C).picture.stage t = none := idle
  have now := (congrFun stage t).trans (Function.update_self ..)
  exact .stays (.of_turn was now Picture.plain_none Picture.plain_next (keeps.top t) keeps.caller
    fun {x} running => absurd (now.symm.trans running) (by simp))

/-- The top of a chain is resumed. -/
theorem Acts.shifts_resumes {f : FrameId} {task : Task V} {after : Focus V C} {resumption : Resumption V C}
    {stack : List (Activation V C)}
    (acts : run.Acts k st before ⟨.trampoline u after, stack⟩ behind
      ⟨st', .code resumption.program, (resumption.opened.map .opened).toList ++ .frame u f after :: stack⟩)
    (found : st.tasks.get? u = some task) (top : task.top = some f)
    (resumed : (st.unloaded u).resume u f task.value task.error = .ok (resumption, st')) :
    Shifts t st before ⟨.trampoline u after, stack⟩ behind
      ⟨st', .code resumption.program, (resumption.opened.map .opened).toList ++ .frame u f after :: stack⟩ := by
  have mine : (u, .next) ∈ (⟨.trampoline u after, stack⟩ : Agent V C).runs := by simp [Agent.runs, Focus.run?]
  have was := acts.stage_of_run mine
  have stage := acts.stage_turned (u := u) (some .next) (some (.inside f)) rfl
    (by simp [Agent.runs, Config.agent, run?_opened_toList]; rfl) (by simp)
  have first : st.top u = some f := (top_of_get? found).trans top
  have cleared : KeepsChains st (st.unloaded u) := ⟨top_modifyTask fun _ => rfl, rfl⟩
  obtain stays | ⟨well, body, value, rfl, calls⟩ := chains_resume resumed
  · have keeps := cleared.trans stays
    refine shifts_of_redirects stage (keeps.redirects u) ?_
    rintro rfl
    have now := (congrFun stage t).trans (Function.update_self ..)
    refine .stays (.of_turn was now Picture.plain_next Picture.plain_inside (keeps.top t) keeps.caller ?_)
    intro x running
    obtain rfl : f = x := by simpa using now.symm.trans running
    exact first
  · have calls : State.Calls st u f body st' := calls.before cleared rfl
    have idle := acts.sound.idle_of_calls acts.permitted acts.step rfl found top well calls
    by_cases same : t = u
    · subst same
      refine .calls mine was first idle ((congrFun stage t).trans (Function.update_self ..))
        ((calls.top t).trans (if_pos rfl)) (funext fun x => ?_)
      exact (calls.caller x).trans (by rw [Function.update_apply]; rfl)
    · refine .stays (stays_of_other stage same ((calls.top t).trans (if_neg same)) fun {x} uses => ?_)
      refine (calls.caller x).trans (if_neg ?_)
      rintro rfl
      exact idle.unused t uses

/-- The run of a task stops. -/
theorem Acts.shifts_suspends {f : FrameId} {after : Focus V C} {rest : List (Activation V C)}
    (acts : run.Acts k st before ⟨.code (.answer .suspended), .frame u f after :: rest⟩ behind ⟨st', after, rest⟩)
    (parked : (st.endRun u).park u = .ok st') :
    Shifts t st before ⟨.code (.answer .suspended), .frame u f after :: rest⟩ behind ⟨st', after, rest⟩ := by
  have settled : after.run? = none :=
    (acts.sound.steady ⟨.code (.answer .suspended), .frame u f after :: rest⟩ (by simp)).stack _ List.mem_cons_self
  have was := acts.stage_of_run (u := u) (s := .inside f) (by simp [Agent.runs, Activation.run?])
  have stage := acts.stage_turned (u := u) (some (.inside f)) none rfl
    (by simp [Agent.runs, Config.agent, settled]; rfl) (by simp)
  have left : KeepsChains st (st.endRun u) := ⟨top_modifyTask fun _ => rfl, rfl⟩
  have keeps := left.trans (.of_stops (Stops.park parked).1)
  refine shifts_of_redirects stage (keeps.redirects u) ?_
  rintro rfl
  have now := (congrFun stage t).trans (Function.update_self ..)
  exact .stays (.of_turn was now Picture.plain_inside Picture.plain_none (keeps.top t) keeps.caller
    fun {x} running => absurd (now.symm.trans running) (by simp))

/-- A frame finishes, and its caller is next. -/
theorem Acts.shifts_returns {f caller : FrameId} {answer : Answer V} {result : Except (Error V) V} {task : Task V}
    {after : Focus V C} {rest : List (Activation V C)}
    (acts : run.Acts k st before ⟨.code (.answer answer), .frame u f after :: rest⟩ behind
      ⟨st.modifyTask u fun task => Config.returnTo task caller result, .trampoline u after, rest⟩)
    (ends : (∃ value, answer = .done value) ∨ ∃ error, answer = .throw error)
    (found : st.tasks.get? u = some task) (top : task.top = some f) (link : st.caller f = some caller) :
    Shifts t st before ⟨.code (.answer answer), .frame u f after :: rest⟩ behind
      ⟨st.modifyTask u fun task => Config.returnTo task caller result, .trampoline u after, rest⟩ := by
  have was := acts.stage_of_run (u := u) (s := .inside f) (by simp [Agent.runs, Activation.run?])
  have stage := acts.stage_turned (u := u) (some (.inside f)) (some .next) rfl rfl (by simp)
  have redirects : Redirects st (st.modifyTask u fun task => Config.returnTo task caller result) u (some caller) :=
    .modifyTask found (by cases result <;> rfl)
  refine shifts_of_redirects stage redirects ?_
  rintro rfl
  exact .returns ends rfl was ((top_of_get? found).trans top) link
    ((congrFun stage t).trans (Function.update_self ..)) redirects.top redirects.caller

/-- The last frame of a task finishes. -/
theorem Acts.shifts_finishes {f : FrameId} {answer : Answer V} {result : Except (Error V) V} {task : Task V}
    {after : Focus V C} {rest : List (Activation V C)}
    (acts : run.Acts k st before ⟨.code (.answer answer), .frame u f after :: rest⟩ behind ⟨st', after, rest⟩)
    (ends : (∃ value, answer = .done value) ∨ ∃ error, answer = .throw error)
    (found : st.tasks.get? u = some task) (top : task.top = some f) (link : st.caller f = none)
    (finished : ((st.modifyTask u fun task => { task with top := none }).endRun u).finish u result = .ok st') :
    Shifts t st before ⟨.code (.answer answer), .frame u f after :: rest⟩ behind ⟨st', after, rest⟩ := by
  have settled : after.run? = none :=
    (acts.sound.steady ⟨.code (.answer answer), .frame u f after :: rest⟩ (by simp)).stack _ List.mem_cons_self
  have was := acts.stage_of_run (u := u) (s := .inside f) (by simp [Agent.runs, Activation.run?])
  have stage := acts.stage_turned (u := u) (some (.inside f)) none rfl
    (by simp [Agent.runs, Config.agent, settled]; rfl) (by simp)
  have emptied : Redirects st (st.modifyTask u fun task => { task with top := none }) u none := .modifyTask found rfl
  have left : KeepsChains (st.modifyTask u fun task => { task with top := none })
      ((st.modifyTask u fun task => { task with top := none }).endRun u) := ⟨top_modifyTask fun _ => rfl, rfl⟩
  have stops := Stops.finish ((left.top u).trans emptied.top) finished
  refine shifts_of_redirects stage (emptied.keeps (left.trans (.of_stops stops))) ?_
  rintro rfl
  exact .ends ends rfl was ((top_of_get? found).trans top) link

/-- A frame jumps to where its chain begins now. -/
theorem Acts.shifts_lands {f target : FrameId} {value : V} {task : Task V} {after : Focus V C}
    {rest : List (Activation V C)}
    (acts : run.Acts k st before ⟨.code (.answer (.jump target value)), .frame u f after :: rest⟩ behind
      ⟨Config.landAt (st.modifyTask u fun task => { task with top := some target }) u target value,
        .trampoline u after, rest⟩)
    (found : st.tasks.get? u = some task) (top : Agent.topAfterJump st u f target = some target) :
    Shifts t st before ⟨.code (.answer (.jump target value)), .frame u f after :: rest⟩ behind
      ⟨Config.landAt (st.modifyTask u fun task => { task with top := some target }) u target value,
        .trampoline u after, rest⟩ := by
  have stage := acts.stage_turned (u := u) (some (.inside f)) (some .next) rfl rfl (by simp)
  have was := acts.stage_of_run (u := u) (s := .inside f) (by simp [Agent.runs, Activation.run?])
  have moved : Redirects st (st.modifyTask u fun task => { task with top := some target }) u (some target) :=
    .modifyTask found rfl
  have landed : Redirects st (Config.landAt (st.modifyTask u fun task => { task with top := some target }) u target
      value) u (some target) := by
    have now : (st.modifyTask u fun task => { task with top := some target }).tasks.get? u =
        some { task with top := some target } := by simp [get?_modifyTask, found]
    exact moved.trans (.modifyTask now rfl)
  refine shifts_of_redirects stage landed ?_
  rintro rfl
  have now := (congrFun stage t).trans (Function.update_self ..)
  refine .of_jump acts.sound.warded.toWoven rfl was (start_of_jump top) .refl ?_ ?_ ?_ landed.caller
  · exact (Picture.anchor_next now).trans landed.top
  · intro b begins
    obtain rfl : target = b := Option.some.inj (landed.top.symm.trans ((Picture.base_next now).symm.trans begins))
    exact .refl
  · intro x running
    exact absurd (now.symm.trans running) (by simp)

/-- A frame jumps further down. -/
theorem Acts.shifts_leaps {f g target : FrameId} {value : V} {task : Task V} {doomed : List FrameId}
    {after : Focus V C} {resumption : Resumption V C} {rest : List (Activation V C)}
    (acts : run.Acts k st before ⟨.code (.answer (.jump target value)), .frame u f after :: rest⟩ behind
      ⟨st', .code resumption.program, (resumption.opened.map .opened).toList ++
        .cancel u doomed target value (.trampoline u after) :: rest⟩)
    (found : st.tasks.get? u = some task) (top : Agent.topAfterJump st u f target = some g)
    (path : (g :: doomed ++ [target]).IsChain fun f g => st.caller f = some g)
    (resumed : (st.modifyTask u fun task => { task with top := some g }).resume u g default (some .cancelled) =
      .ok (resumption, st')) :
    Shifts t st before ⟨.code (.answer (.jump target value)), .frame u f after :: rest⟩ behind
      ⟨st', .code resumption.program, (resumption.opened.map .opened).toList ++
        .cancel u doomed target value (.trampoline u after) :: rest⟩ := by
  have stage := acts.stage_turned (u := u) (some (.inside f)) (some (.unwinding doomed target)) rfl
    (by simp [Agent.runs, Config.agent, run?_opened_toList]; rfl) (by simp)
  have was := acts.stage_of_run (u := u) (s := .inside f) (by simp [Agent.runs, Activation.run?])
  have moved : Redirects st (st.modifyTask u fun task => { task with top := some g }) u (some g) :=
    .modifyTask found rfl
  have redirects := moved.keeps ((chains_resume resumed).resolve_right (by simp))
  refine shifts_of_redirects stage redirects ?_
  rintro rfl
  have now := (congrFun stage t).trans (Function.update_self ..)
  refine .of_jump acts.sound.warded.toWoven rfl was (start_of_jump top)
    (Picture.reaches_of_mem_path path rfl (by simp)) ?_ ?_ ?_ redirects.caller
  · exact Picture.anchor_unwinding now
  · intro b begins
    have member := List.mem_of_mem_head? ((Picture.base_unwinding now).symm.trans begins)
    exact Picture.reaches_of_mem_path path rfl (List.mem_cons_of_mem g member)
  · intro x running
    exact absurd (now.symm.trans running) (by simp)

/-- The next of the frames that a jump skips is cancelled. -/
theorem Acts.shifts_cancels {g target : FrameId} {answer : Answer V} {value : V} {doomed : List FrameId}
    {after : Focus V C} {resumption : Resumption V C} {rest : List (Activation V C)}
    (acts : run.Acts k st before ⟨.code (.answer answer), .cancel u (g :: doomed) target value after :: rest⟩ behind
      ⟨st', .code resumption.program, (resumption.opened.map .opened).toList ++
        .cancel u doomed target value after :: rest⟩)
    (resumed : st.resume u g default (some .cancelled) = .ok (resumption, st')) :
    Shifts t st before ⟨.code (.answer answer), .cancel u (g :: doomed) target value after :: rest⟩ behind
      ⟨st', .code resumption.program, (resumption.opened.map .opened).toList ++
        .cancel u doomed target value after :: rest⟩ := by
  have stage := acts.stage_turned (u := u) (some (.unwinding (g :: doomed) target))
    (some (.unwinding doomed target)) rfl (by simp [Agent.runs, Config.agent, run?_opened_toList]; rfl) (by simp)
  have was := acts.stage_of_run (u := u) (s := .unwinding (g :: doomed) target) (by simp [Agent.runs, Activation.run?])
  have keeps := (chains_resume resumed).resolve_right (by simp)
  refine shifts_of_redirects stage (keeps.redirects u) ?_
  rintro rfl
  exact .stays (.of_cancel acts.sound.warded.toWoven was ((congrFun stage t).trans (Function.update_self ..)) keeps.caller)

/-- The last of the frames that a jump skips answered. -/
theorem Acts.shifts_unwinds {target : FrameId} {answer : Answer V} {value : V} {after : Focus V C}
    {rest : List (Activation V C)}
    (acts : run.Acts k st before ⟨.code (.answer answer), .cancel u [] target value after :: rest⟩ behind
      ⟨Config.landAt st u target value, after, rest⟩) :
    Shifts t st before ⟨.code (.answer answer), .cancel u [] target value after :: rest⟩ behind
      ⟨Config.landAt st u target value, after, rest⟩ := by
  have sound := acts.sound
  obtain ⟨next, rfl, settled⟩ : ∃ next, after = .trampoline u next ∧ next.run? = none :=
    (sound.steady ⟨.code (.answer answer), .cancel u [] target value after :: rest⟩ (by simp)).stack _
      List.mem_cons_self
  have stage := acts.stage_turned (u := u) (some (.unwinding [] target)) (some .next) rfl rfl (by simp)
  have was := acts.stage_of_run (u := u) (s := .unwinding [] target) (by simp [Agent.runs, Activation.run?])
  obtain ⟨task, found, _⟩ : ∃ task, st.tasks.get? u = some task ∧ task.life = .running :=
    Option.map_eq_some_iff.1 (sound.life_of_stage was)
  have redirects : Redirects st (Config.landAt st u target value) u (some target) := .modifyTask found rfl
  refine shifts_of_redirects stage redirects ?_
  rintro rfl
  exact .stays (.of_land sound.warded.toWoven was ((congrFun stage t).trans (Function.update_self ..)) redirects.top
    redirects.caller)

/-- What a step of a thread does to the chain of a task. -/
theorem Acts.shifts (acts : run.Acts k st before agent behind config) (known : (st.tasks.get? t).isSome = true) :
    Shifts t st before agent behind config := by
  obtain ⟨focus, stack⟩ := agent
  have does : Config.Does ⟨st, focus, stack⟩ config := acts.does
  cases does with
  | serves served => exact acts.shifts_serve known served
  | @newFrame _ label body =>
    have keeps : KeepsChains st (st.addFrame ⟨label, none, .host body⟩).2 := .addFrame rfl
    exact shifts_of_runs rfl (keeps.top t) keeps.caller
  | newActor | registers | rests | hands | opens | closes => exact shifts_of_runs rfl rfl rfl
  | @passes _ _ next _ extra detours idle calls =>
    have none' : extra.filterMap Activation.run? = [] := List.filterMap_eq_nil_iff.2 fun x member => by
      have call := calls x member
      cases x with
      | call => rfl
      | _ => exact call.elim
    exact shifts_of_runs (by simp [Agent.runs, Config.agent, idle, detours.1, none']) rfl rfl
  | begins detours busy settled taken begun => exact acts.shifts_begins detours taken begun
  | resumes found top resumed => exact acts.shifts_resumes found top resumed
  | suspends parked => exact acts.shifts_suspends parked
  | returns ends found top link => exact acts.shifts_returns ends found top link
  | finishes ends found top link finished => exact acts.shifts_finishes ends found top link finished
  | lands found top => exact acts.shifts_lands found top
  | leaps found top path resumed => exact acts.shifts_leaps found top path resumed
  | cancels resumed => exact acts.shifts_cancels resumed
  | unwinds => exact acts.shifts_unwinds

/-- A task that another thread runs keeps its chain. -/
theorem Acts.stays (acts : run.Acts k st before agent behind config) {other : Agent V C} {s : Stage}
    (member : other ∈ before ++ behind) (mine : (t, s) ∈ other.runs) :
    (⟨st, before ++ agent :: behind⟩ : Crew V C).picture.Stays t
      (⟨config.state, before ++ config.agent :: behind⟩ : Crew V C).picture := by
  have sound := acts.sound
  obtain ⟨task, found, _⟩ := Option.map_eq_some_iff.1
    (sound.life_of_stage (sound.stage_of_run (mem_original member) mine))
  refine (acts.shifts (by rw [found]; rfl)).stays_of_apart fun s' mine' => ?_
  exact sound.foreign member mine s' mine'

end Run

end Crew

end Tasking
