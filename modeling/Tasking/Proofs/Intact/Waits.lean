import Tasking.Proofs.Intact.Ripe

/-! # What parked frames wait for

A join that parked is on top of a task that waits for the one it joins, or that has an outcome by now
(`Crew.Patient`).  So when the run of a task goes on at a frame that had parked, there is what the frame
waited for: the joined task has an outcome, or the task owns the resource.
-/

namespace Tasking

open Picture

variable {V C : Type}

namespace State

variable {st st' : State V C} {t child : TaskId} {f : FrameId}

/-- Only a join that suspends becomes one that parked, and it is not resumed with an error. -/
theorem parks_of_resume {value : V} {error : Option (Error V)} {resumption : Resumption V C}
    (done : st.resume t f value error = .ok (resumption, st')) (before : st.code? f ≠ some (.join child true))
    (now : st'.code? f = some (.join child true)) : error = none ∧ resumption = ⟨.answer .suspended, none⟩ ∧
      st.resumeJoin t f child false error = .ok (.suspended, st') := by
  have became {code : Frame.Code V (Body V C)} (codes : st'.code? = Function.update st.code? f (some code)) :
      code = .join child true := by
    rw [codes, Function.update_self] at now
    exact Option.some.inj now
  cases stirs_of_resume done with
  | runs _ frames | passes _ _ frames => exact absurd ((code?_of_frames frames f).symm.trans now) before
  | delivers code frames | frees code _ frames => cases became (Stirs.codes_of_setCode code frames)
  | turns code _ codes => cases became codes
  | @parks child' _ code frames =>
    obtain rfl : child' = child := by simpa using became (Stirs.codes_of_setCode code frames)
    simp only [State.resume, bind_ok, frame_ok] at done
    obtain ⟨frame, known, done⟩ := done
    obtain same : frame.code = .join child' false := by simpa [code?, known] using code
    simp only [same, bind_ok, pure_ok, Prod.mk.injEq] at done
    obtain ⟨⟨answer, st₁⟩, resumed, answers, rfl⟩ := done
    obtain rfl : answer = .suspended := Program.answer.inj (congrArg Resumption.program answers)
    refine ⟨?_, rfl, resumed⟩
    cases error with
    | none => rfl
    | some error => cases congrArg Prod.fst (pure_ok.1 resumed)

end State

namespace Crew

open State

variable {c c' : Crew V C} {a : Agent V C} {config : Config V C} {t child : TaskId} {f : FrameId}

/-- A join that parked is at the top of a task that waits for the joined one, unless that has an outcome. -/
def Patient (c : Crew V C) : Prop := ∀ {f child}, c.state.code? f = some (.join child true) →
  c.state.Settled child ∨ ∃ t task, c.state.top t = some f ∧ c.state.tasks.get? t = some task ∧
    task.waiting = some (.task child) ∧ (c.stage t = none ∨ c.stage t = some (.inside f))

theorem Lulls.patient (lulls : c.Lulls c') (patient : c.Patient) : c'.Patient := by
  obtain ⟨thread, state⟩ := lulls.state
  unfold Patient
  rw [state, lulls.stage]
  exact patient

theorem patient_initial (parallelism : Nat) : (initial parallelism : Crew V C).Patient := by
  intro f child code
  simp [initial, State.initial, State.code?] at code

/-! ## Where a run goes on -/

/-- When the run of a task goes on at a join that parked, the joined task has an outcome. -/
theorem Patient.settled (patient : c.Patient) (sound : c.Sound) (next : c.stage t = some .next)
    (top : c.state.top t = some f) (code : c.state.code? f = some (.join child true)) : c.state.Settled child := by
  refine (patient code).resolve_right ?_
  rintro ⟨u, task, top', _, _, rests⟩
  have on : c.picture.OnChain t f := .of_base ((base_next next).trans top)
  obtain idle | inside := rests
  · obtain rfl := sound.warded.apart (.inl on) (.inl (.of_base ((base_idle idle).trans top')))
    cases next.symm.trans idle
  · obtain rfl := sound.warded.apart (.inl on) (.inr inside)
    cases next.symm.trans inside

/-- When the run of a task goes on at a guard that parked, the task owns the resource. -/
theorem Orderly.owner_of_woken (orderly : c.Orderly) (sound : c.Sound)
    {after : Focus V C} {stack : List (Activation V C)} (member : ⟨.trampoline t after, stack⟩ ∈ c.agents) (top : c.state.top t = some f) {r : ResourceId}
    {body : FrameId} {value : V} (code : c.state.code? f = some (.guard r (.waiting body value))) :
    c.state.owner r = some t := by
  have run := Agent.next_mem_runs t after stack
  have on : c.picture.OnChain t f := .of_base ((base_next (sound.stage_of_run member run)).trans top)
  obtain ⟨u, top', rests, lined | owns⟩ := sound.warded.parked (guard?_of_code? code)
  · -- A task in line has arranged to be woken, so it is about to suspend.
    obtain rfl := sound.warded.apart (.inl on) (.inl (.of_base ((base_rests rests).trans top')))
    obtain ⟨task, found, waits⟩ := orderly.balanced.waits_of_line lined
    obtain ⟨_, program, focus, _⟩ := orderly.calm member run found (by simp [Task.arranged, waits])
    cases focus
  · obtain rfl := sound.warded.apart (.inl on) (.inl (.of_base ((base_rests rests).trans top')))
    exact owns

/-! ## Steps -/

variable [Inhabited V]

namespace Stepped

/-- A task goes on waiting for another one until that has an outcome. -/
theorem attends (turn : c.Stepped a config c') : State.Attends c.state config.state := by
  obtain follows | ⟨u, g, caller, answer, result, after, rest, task, rfl, found, link, rfl⟩ := turn.follows
  · exact follows.toAttends
  · refine .of_becomes found (becomes_modifyTask found _) (fun c waits => ?_) fun outcome => ?_
    · cases result <;> exact waits
    · cases result <;> exact outcome

/-- A join that the step parks. -/
theorem patient_parks (turn : c.Stepped a config c') (label : a.resumed? c.state = some (t, f))
    (before : c.state.code? f ≠ some (.join child true)) (now : config.state.code? f = some (.join child true)) :
    ∃ task, config.state.top t = some f ∧ config.state.tasks.get? t = some task ∧
      task.waiting = some (.task child) ∧ c'.stage t = some (.inside f) := by
  obtain ⟨value, error, st, resumption, x, rest, given, resumed, same⟩ :=
    Config.given_of_does (c := a.config c.state) turn.sound.warded.acyclic turn.does label
  obtain ⟨calm, rfl, joins⟩ := parks_of_resume resumed (by rwa [code?_of_frames given.frames]) now
  cases given with
  | @top task after focus found first =>
    have unloaded := becomes_modifyTask found fun task => { task with value := default, error := none }
    obtain ⟨task', found', waits⟩ := waits_resumeJoin unloaded.self joins
    refine ⟨task', ?_, found', waits, turn.now (same ▸ Agent.resumed_mem_runs (x := .frame t f after) rfl ..)⟩
    have keeps := (chains_resume resumed).resolve_right (by simp)
    exact (keeps.top t).trans ((keepsChains_unloaded c.state t).top t |>.trans ((top_of_get? found).trans first))
  | cancelled => cases calm

/-- A step that concerns a task at a parked join lets the task rest there. -/
theorem patient_rests (turn : c.Stepped a config c') (prompt : c.Prompt)
    (mine : (a.config c.state).concern config = some t) (top : c.state.top t = some f) {task : Task V}
    (found : c.state.tasks.get? t = some task) (waits : task.waiting = some (.task child))
    (code : c.state.code? f = some (.join child true)) (rests : c.stage t = none ∨ c.stage t = some (.inside f)) :
    config.state.top t = some f ∧ c'.stage t = none := by
  obtain idle | inside := rests
  · -- A task that is taken up is ready, and waits for nothing.
    obtain ⟨s, others, line⟩ | ⟨focus, w, st₁, st₂, taken, begun⟩ := concern_cases turn.does mine
    · exact absurd (idle.symm.trans (turn.was (line ▸ List.mem_cons_self))) (by simp)
    · obtain ⟨_, found', ready, _⟩ := turn.orderly.ready_of_begins taken begun
      obtain rfl := Option.some.inj (found.symm.trans found')
      obtain live | parked := (turn.orderly.balanced.sane found).waits (by simp [waits])
      · cases ready.symm.trans live
      · cases ready.symm.trans parked
  · obtain ⟨answer, after, rest, rfl⟩ := turn.answering prompt mine inside ⟨_, code, rfl⟩
    have parks := turn.orderly.calm turn.member (t := t) (s := .inside f) List.mem_cons_self found
      (by simp [Task.arranged, waits])
    have suspends := Agent.heads_frame.1 parks.2
    obtain rfl : answer = .suspended := suspends
    have does : Config.Does ⟨c.state, .code (.answer .suspended), .frame t f after :: rest⟩ config := turn.does
    cases does with
    | passes detours => exact absurd rfl ((detours.2 _ rfl).1 _)
    | begins _ busy => exact absurd rfl (busy _)
    | returns ends | finishes ends => obtain ⟨_, same⟩ | ⟨_, same⟩ := ends <;> cases same
    | suspends parked =>
      refine ⟨?_, turn.gone mine (turn.ended rfl rfl (turn.settled List.mem_cons_self))⟩
      exact (Stops.park parked).1.top t |>.trans ((Quiet.endRun c.state t).top t |>.trans top)

theorem patient (turn : c.Stepped a config c') (prompt : c.Prompt) (patient : c.Patient) : c'.Patient := by
  intro f child code
  rw [turn.state] at code ⊢
  by_cases before : c.state.code? f = some (.join child true)
  · obtain settled | ⟨t, task, top, found, waits, rests⟩ := patient before
    · exact .inl (turn.attends.settled settled)
    · refine (turn.attends.waits found waits).symm.imp_right fun ⟨task', found', waits'⟩ => ⟨t, task', ?_⟩
      by_cases mine : (a.config c.state).concern config = some t
      · obtain ⟨top', idle⟩ := turn.patient_rests prompt mine top found waits before rests
        exact ⟨top', found', waits', .inl idle⟩
      · rw [turn.top_other (Ne.symm mine) (by simp [found]), turn.stage (Ne.symm mine)]
        exact ⟨top, found', waits', rests⟩
  · -- The join is not new, as new ones have not parked.
    cases Config.code?_of_does (c := a.config c.state) turn.sound.warded.acyclic turn.does f with
    | same kept => exact absurd (kept ▸ code) before
    | resumed label =>
      obtain ⟨task, top, found, waits, inside⟩ := turn.patient_parks label before code
      exact .inr ⟨_, task, top, found, waits, .inr inside⟩
    | made unused new makes => cases makes <;> simp [new] at code

end Stepped

end Crew

end Tasking
