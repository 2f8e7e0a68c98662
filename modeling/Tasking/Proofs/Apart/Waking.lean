import Tasking.Proofs.Apart.Mirrors
import Tasking.Proofs.Lives

/-! # Tasks that live alike

Tasks of two runs are started, woken, parked and ended alike.  All that this does to a scheduler is to put its
own tasks in line.
-/

namespace Tasking.Likeness

variable {V C : Type} [Inhabited V] {L : Likeness V C} {st st' st₁ st₁' : State V C} {t t' : TaskId}
  {s s' : SchedulerId} {task task' : Task V}

open State

/-! ## Tasks -/

namespace Tasks

theorem setLife (alike : L.Tasks task task') (life : Life) :
    L.Tasks { task with life := life, notified := false } { task' with life := life, notified := false } :=
  { alike with life := rfl, notified := rfl }

theorem settle (alike : L.Tasks task task') :
    L.Tasks { task with waiting := none, external := false }
      { task' with waiting := none, external := false } :=
  { alike with waiting := .none, external := rfl }

theorem unlink (alike : L.Tasks task task') :
    L.Tasks { task with linked := false } { task' with linked := false } := { alike with linked := rfl }

theorem link (alike : L.Tasks task task') :
    L.Tasks { task with linked := true } { task' with linked := true } := { alike with linked := rfl }

end Tasks

/-! ## Schedulers -/

theorem settings_withCount (scheduler : Scheduler) (c : Counter) (n : Int) :
    (scheduler.withCount c n).settings = scheduler.settings := by
  cases c <;> rfl

theorem isShutDown_withCount (scheduler : Scheduler) (c : Counter) (n : Int) :
    (scheduler.withCount c n).isShutDown = scheduler.isShutDown := by
  cases c <;> rfl

namespace Mirrors

variable (mirrors : L.Mirrors st st')
include mirrors

theorem adjust {c c' : Counter} {change change' : Int} (same : L.id s s') (done : st.adjust s c change = .ok st₁)
    (done' : st'.adjust s' c' change' = .ok st₁') : L.Moves st st' st₁ st₁' := by
  obtain ⟨scheduler, _, _, rfl⟩ := adjust_ok.1 done
  obtain ⟨scheduler', _, _, rfl⟩ := adjust_ok.1 done'
  apply mirrors.modifyScheduler same
  · intro a a' alike
    constructor
    · rw [settings_withCount, settings_withCount, alike.settings]
    · rw [isShutDown_withCount, isShutDown_withCount, alike.isShutDown]
    · rw [ready_withCount, ready_withCount]
      exact alike.ready
  · intro a
    exact ⟨settings_withCount .., isShutDown_withCount .., [], by rw [ready_withCount, List.append_nil], by simp⟩

theorem enqueued (same : L.id t t') (home : L.id s s') :
    L.Moves st st' (st.enqueued t s) (st'.enqueued t' s') := by
  have linked := mirrors.modifyTask same fun _ _ => Tasks.link
  apply linked.trans
  apply linked.mirrors.modifyScheduler home
  · intro a a' alike
    refine ⟨alike.settings, alike.isShutDown, ?_⟩
    rw [Line.toList_push, Line.toList_push]
    exact L.push alike.ready same
  · intro a
    refine ⟨rfl, rfl, [t], by rw [Line.toList_push], ?_⟩
    intro u member
    rw [List.mem_singleton.1 member]
    exact not_spared (L.held same nofun nofun)

theorem schedule (same : L.id t t') (done : st.schedule t = .ok st₁) (done' : st'.schedule t' = .ok st₁') :
    L.Moves st st' st₁ st₁' := by
  obtain ⟨task, found, lined⟩ := schedule_ok done
  obtain ⟨task', found', lined'⟩ := schedule_ok done'
  have alike := mirrors.tasks.get same found found'
  cases lined with
  | inl bound =>
    obtain ⟨bound, rfl⟩ := bound
    cases lined' with
    | inl bound' =>
      obtain ⟨_, rfl⟩ := bound'
      exact mirrors.moves
    | inr free' => simp [← alike.bound, bound] at free'
  | inr free =>
    obtain ⟨unbound, _, rfl⟩ := free
    cases lined' with
    | inl bound' => simp [← alike.bound, unbound] at bound'
    | inr free' =>
      obtain ⟨_, _, rfl⟩ := free'
      exact mirrors.enqueued same alike.scheduler

theorem dropLink (same : L.id t t') : L.Moves st st' (st.dropLink t) (st'.dropLink t') :=
  mirrors.modifyTask same fun _ _ => Tasks.unlink

theorem setLife (same : L.id t t') (life : Life) : L.Moves st st' (st.setLife t life) (st'.setLife t' life) :=
  mirrors.modifyTask same fun _ _ alike => alike.setLife life

theorem finishWait (same : L.id t t') (done : st.finishWait t = .ok st₁)
    (done' : st'.finishWait t' = .ok st₁') : L.Moves st st' st₁ st₁' := by
  obtain ⟨task, found, done⟩ := finishWait_ok done
  obtain ⟨task', found', done'⟩ := finishWait_ok done'
  have alike := mirrors.tasks.get same found found'
  have settled := mirrors.modifyTask same fun _ _ => Tasks.settle
  rw [← alike.external] at done'
  split at done
  · next outside =>
    rw [if_pos outside] at done'
    exact settled.trans (settled.mirrors.adjust alike.scheduler done done')
  · next inside =>
    rw [if_neg inside] at done'
    exact done ▸ done' ▸ settled

theorem move (same : L.id t t') {life : Life} {reply reply' : Except IllegalMove Life}
    (done : st.move t life = .ok (reply, st₁)) (done' : st'.move t' life = .ok (reply', st₁')) :
    reply = reply' ∧ L.Moves st st' st₁ st₁' := by
  simp only [State.move, bind_ok, task_ok] at done done'
  obtain ⟨task, found, done⟩ := done
  obtain ⟨task', found', done'⟩ := done'
  have alike := mirrors.tasks.get same found found'
  rw [← alike.life] at done'
  split at done
  · next may =>
    rw [if_pos may] at done'
    simp only [pure_ok, Prod.mk.injEq] at done done'
    obtain ⟨rfl, rfl⟩ := done
    obtain ⟨rfl, rfl⟩ := done'
    exact ⟨rfl, mirrors.setLife same life⟩
  · next mayNot =>
    rw [if_neg mayNot] at done'
    simp only [pure_ok, Prod.mk.injEq] at done done'
    obtain ⟨rfl, rfl⟩ := done
    obtain ⟨rfl, rfl⟩ := done'
    exact ⟨rfl, mirrors.moves⟩

theorem start (same : L.id t t') (done : st.start t = .ok st₁) (done' : st'.start t' = .ok st₁') :
    L.Moves st st' st₁ st₁' := by
  obtain ⟨task, found⟩ := exists_of_task done
  obtain ⟨task', found'⟩ := exists_of_task done'
  have alike := mirrors.tasks.get same found found'
  obtain ⟨_, st₂, counts, scheduled⟩ := start_ok found done
  obtain ⟨_, st₂', counts', scheduled'⟩ := start_ok found' done'
  have first := mirrors.setLife same .ready
  have second := first.trans (first.mirrors.adjust alike.scheduler counts counts')
  exact second.trans (second.mirrors.schedule same scheduled scheduled')

theorem ready (same : L.id t t') (done : st.ready t = .ok st₁) (done' : st'.ready t' = .ok st₁') :
    L.Moves st st' st₁ st₁' := by
  obtain ⟨task, found⟩ := exists_of_task done
  obtain ⟨task', found'⟩ := exists_of_task done'
  have alike := mirrors.tasks.get same found found'
  cases ready_ok found done with
  | inl parked =>
    obtain ⟨parked, st₂, st₃, counts, settled, scheduled⟩ := parked
    cases ready_ok found' done' with
    | inl parked' =>
      obtain ⟨_, st₂', st₃', counts', settled', scheduled'⟩ := parked'
      have first := mirrors.setLife same .ready
      have second := first.trans (first.mirrors.adjust alike.scheduler counts counts')
      have third := second.trans (second.mirrors.finishWait same settled settled')
      exact third.trans (third.mirrors.schedule same scheduled scheduled')
    | inr live' => simp [← alike.life, parked] at live'
  | inr live =>
    obtain ⟨live, settled⟩ := live
    cases ready_ok found' done' with
    | inl parked' => simp [← alike.life, live] at parked'
    | inr live' =>
      obtain ⟨_, settled'⟩ := live'
      have first := mirrors.modifyTask same (f := fun task => { task with notified := true })
        (g := fun task => { task with notified := true }) fun _ _ alike => { alike with notified := rfl }
      exact first.trans (first.mirrors.finishWait same settled settled')

omit mirrors in
theorem readyAll {ts ts' : List TaskId} (mirrors : L.Mirrors st st') (same : List.Forall₂ L.id ts ts')
    (done : st.readyAll ts = .ok st₁) (done' : st'.readyAll ts' = .ok st₁') : L.Moves st st' st₁ st₁' := by
  induction same generalizing st st' with
  | nil => exact pure_ok.1 done ▸ pure_ok.1 done' ▸ mirrors.moves
  | cons first _ inductionHypothesis =>
    simp only [State.readyAll, bind_ok] at done done'
    obtain ⟨st₂, woken, rest⟩ := done
    obtain ⟨st₂', woken', rest'⟩ := done'
    have moves := mirrors.ready first woken woken'
    exact moves.trans (inductionHypothesis moves.mirrors rest rest')

theorem waitExternal (same : L.id t t') (done : st.waitExternal t = .ok st₁)
    (done' : st'.waitExternal t' = .ok st₁') : L.Moves st st' st₁ st₁' := by
  obtain ⟨task, found⟩ := exists_of_task done
  obtain ⟨task', found'⟩ := exists_of_task done'
  have alike := mirrors.tasks.get same found found'
  obtain ⟨_, done⟩ := waitExternal_ok found done
  obtain ⟨_, done'⟩ := waitExternal_ok found' done'
  have announced := mirrors.modifyTask same
    (f := fun task => { task with waiting := some .external, external := true })
    (g := fun task => { task with waiting := some .external, external := true })
    fun _ _ alike => { alike with waiting := .some .external, external := rfl }
  rw [← alike.external] at done'
  split at done
  · next outside =>
    rw [if_pos outside] at done'
    exact done ▸ done' ▸ announced
  · next inside =>
    rw [if_neg inside] at done'
    exact announced.trans (announced.mirrors.adjust alike.scheduler done done')

theorem yield (same : L.id t t') (done : st.yield t = .ok st₁) (done' : st'.yield t' = .ok st₁') :
    L.Moves st st' st₁ st₁' := by
  simp only [State.yield, bind_ok, check_ok, pure_ok] at done done'
  obtain ⟨_, _, _, rfl⟩ := done
  obtain ⟨_, _, _, rfl⟩ := done'
  exact mirrors.modifyTask same fun _ _ alike => { alike with notified := rfl }

theorem beginRun (same : L.id t t') {w : Worker} (done : st.beginRun t w = .ok st₁)
    (done' : st'.beginRun t' w = .ok st₁') : L.Moves st st' st₁ st₁' := by
  simp only [State.beginRun, State.advance, bind_ok, check_ok, pure_ok] at done done'
  obtain ⟨_, ⟨_, _, _, rfl⟩, rfl⟩ := done
  obtain ⟨_, ⟨_, _, _, rfl⟩, rfl⟩ := done'
  have first := mirrors.setLife same .running
  exact first.trans (first.mirrors.modifyTask same fun _ _ alike => { alike with worker := rfl })

theorem endRun (same : L.id t t') : L.Moves st st' (st.endRun t) (st'.endRun t') :=
  mirrors.modifyTask same fun _ _ alike => { alike with worker := rfl }

theorem park (same : L.id t t') (done : st.park t = .ok st₁) (done' : st'.park t' = .ok st₁') :
    L.Moves st st' st₁ st₁' := by
  obtain ⟨task, found⟩ := exists_of_task done
  obtain ⟨task', found'⟩ := exists_of_task done'
  have alike := mirrors.tasks.get same found found'
  obtain ⟨_, parked⟩ := park_ok found done
  obtain ⟨_, parked'⟩ := park_ok found' done'
  cases parked with
  | inl noticed =>
    obtain ⟨notified, scheduled⟩ := noticed
    cases parked' with
    | inl noticed' =>
      have first := mirrors.setLife same .ready
      exact first.trans (first.mirrors.schedule same scheduled noticed'.2)
    | inr unnoticed' => simp [← alike.notified, notified] at unnoticed'
  | inr unnoticed =>
    obtain ⟨notified, _, counts⟩ := unnoticed
    cases parked' with
    | inl noticed' => simp [← alike.notified, notified] at noticed'
    | inr unnoticed' =>
      have first := mirrors.setLife same .waiting
      exact first.trans (first.mirrors.adjust alike.scheduler counts unnoticed'.2.2)

theorem retire (same : L.id t t') (done : st.retire t = .ok st₁) (done' : st'.retire t' = .ok st₁') :
    L.Moves st st' st₁ st₁' := by
  simp only [State.retire, bind_ok, task_ok] at done done'
  obtain ⟨task, found, st₂, tasks, runnable⟩ := done
  obtain ⟨task', found', st₂', tasks', runnable'⟩ := done'
  have alike := mirrors.tasks.get same found found'
  have first := mirrors.modifyTask same (f := fun task => { task with listed := false })
    (g := fun task => { task with listed := false }) fun _ _ alike => { alike with listed := rfl }
  have second := first.trans (first.mirrors.adjust alike.scheduler tasks tasks')
  exact second.trans (second.mirrors.adjust alike.scheduler runnable runnable')

omit mirrors in
theorem outcomeOf {result result' : Except (Error V) V} (same : L.id t t')
    (alike : Replies L.Errors L.value result result') :
    L.Outcomes (State.outcomeOf t result) (State.outcomeOf t' result') := by
  cases alike with
  | error error => exact .failed same error
  | ok value => exact .done value

omit mirrors in
theorem finalLife {result result' : Except (Error V) V} (alike : Replies L.Errors L.value result result') :
    State.finalLife result = State.finalLife result' := by
  cases alike <;> rfl

theorem finish (same : L.id t t') {result result' : Except (Error V) V}
    (results : Replies L.Errors L.value result result') (done : st.finish t result = .ok st₁)
    (done' : st'.finish t' result' = .ok st₁') : L.Moves st st' st₁ st₁' := by
  obtain ⟨task, found⟩ := exists_of_task done
  obtain ⟨task', found'⟩ := exists_of_task done'
  have alike := mirrors.tasks.get same found found'
  obtain ⟨_, st₂, woken, retired⟩ := finish_ok found done
  obtain ⟨_, st₂', woken', retired'⟩ := finish_ok found' done'
  have closed : L.Moves st st' (st.closed t result) (st'.closed t' result') := by
    unfold State.closed
    rw [← finalLife results]
    have ended := mirrors.setLife same (State.finalLife result)
    apply ended.trans
    apply ended.mirrors.modifyTask same
    intro task task' alike
    exact { alike with top := .none, value := L.default, error := .none,
                       outcome := .some (outcomeOf same results), joiners := .empty }
  have told := closed.trans (closed.mirrors.readyAll alike.joiners.toList woken woken')
  exact told.trans (told.mirrors.retire same retired retired')

/-! ## New tasks -/

theorem spawn {entry entry' : FrameId} {reply reply' : Except HostError TaskId} (home : L.id s s')
    (same : L.id entry entry')
    (fresh : ∀ n, st.size .task < n → n ≤ st₁.size .task → L.holds .task n)
    (done : st.spawn s entry = .ok (reply, st₁)) (done' : st'.spawn s' entry' = .ok (reply', st₁')) :
    Replies Eq L.id reply reply' ∧ L.Moves st st' st₁ st₁' := by
  simp only [State.spawn, bind_ok, scheduler_ok] at done done'
  obtain ⟨scheduler, found, done⟩ := done
  obtain ⟨scheduler', found', done'⟩ := done'
  have alike := mirrors.schedulers.get home found found'
  rw [← alike.isShutDown] at done'
  split at done
  · next down =>
    rw [if_pos down] at done'
    simp only [pure_ok, Prod.mk.injEq] at done done'
    obtain ⟨rfl, rfl⟩ := done
    obtain ⟨rfl, rfl⟩ := done'
    exact ⟨.error rfl, mirrors.moves⟩
  · next up =>
    rw [if_neg up] at done'
    simp only [pure_ok, Prod.mk.injEq] at done done'
    obtain ⟨rfl, rfl⟩ := done
    obtain ⟨rfl, rfl⟩ := done'
    have mine : L.holds .task (st.tasks.size + 1) := by
      apply fresh
      · exact Nat.lt_succ_self _
      · simp [State.size, State.addTask, State.enlist, State.modifyTask, State.modifyScheduler]
    have new : L.id st.tasks.next st'.tasks.next := mirrors.next mine
    have added := mirrors.addTask mine (a := .new s entry none) (b := .new s' entry' none)
      ⟨home, rfl, rfl, .some same, L.default, .none, rfl, .none, rfl, rfl, .none, .empty, rfl, rfl⟩
    refine ⟨.ok new, added.trans ?_⟩
    have listed := added.mirrors.modifyTask new (f := fun task => { task with listed := true })
      (g := fun task => { task with listed := true }) fun _ _ alike => { alike with listed := rfl }
    apply listed.trans
    apply listed.mirrors.modifyScheduler home
    · exact fun _ _ alike => ⟨alike.settings, alike.isShutDown, alike.ready⟩
    · exact fun _ => ⟨rfl, rfl, [], by simp, by simp⟩

end Mirrors

end Tasking.Likeness
