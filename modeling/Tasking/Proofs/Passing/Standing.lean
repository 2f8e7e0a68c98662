import Tasking.Proofs.Passing.Shifting

/-! # The frames above a frame

While a task runs above one of its frames, the chain changes in three ways only as far as that frame is concerned: a
frame that returns to it puts another one in its own place, a frame that returns to it finishes, and a frame jumps to
it or past it (`Picture.Covers.shifts`).
-/

namespace Tasking

variable {V C : Type}

theorem Above.of_link {caller : FrameId → Option FrameId} {f g h : FrameId} (link : caller f = some h)
    (above : Above caller f g) : h = g ∨ Above caller h g := by
  obtain ⟨h', link', way⟩ := Relation.TransGen.head'_iff.1 above
  obtain rfl := Option.some.inj (link.symm.trans link')
  obtain rfl | ⟨c, onwards, rest⟩ := Reaches.cases_caller way
  · exact .inl rfl
  · exact .inr (.head' onwards rest)

namespace Picture

/-- What is left of the chain of a task is above a frame, and of all that the task uses, only certain frames return to
it. -/
structure Covers (p : Picture V) (t : TaskId) (g : FrameId) (stands : FrameId → Prop) : Prop where
  above : ∃ y, p.anchor t = some y ∧ Above p.caller y g
  outside : p.stage t ≠ some (.inside g)
  only : ∀ {x}, p.Uses t x → p.caller x = some g → stands x

/-- A frame that runs, and returns to another one, puts a third one in its place. -/
structure Replaces (p : Picture V) (agent : Agent V C) (t : TaskId) (g x f : FrameId) (p' : Picture V) : Prop where
  asks : ∃ next, agent.focus = .code (.ask (.pause t f) next) ∨ agent.focus = .code (.ask (.attach f (some g)) next)
  inside : p.stage t = some (.inside x)
  link : p.caller x = some g
  top : p'.top t = some f
  place : p'.caller f = some g

variable {p p' : Picture V} {agent : Agent V C} {t : TaskId} {f g h b : FrameId} {stands : FrameId → Prop}

/-- The frame that runs is above the frame, too. -/
theorem Covers.above_inside (covers : p.Covers t g stands) (woven : p.Woven) (inside : p.stage t = some (.inside h)) :
    Above p.caller h g := by
  have apart : h ≠ g := fun same => covers.outside (same ▸ inside)
  obtain ⟨y, anchor, above⟩ := covers.above
  obtain ⟨_, y', top, place⟩ := woven.inside inside
  obtain rfl : y' = y := Option.some.inj
    (top.symm.trans ((anchor_of_plain (by simp [Plain, inside])).symm.trans anchor))
  obtain rfl | called | beside := place
  · exact above
  · exact (above.of_link called).resolve_left apart
  · obtain ⟨c, link, way⟩ := Relation.TransGen.head'_iff.1 above
    exact .head' (beside.symm.trans link) way

theorem Covers.uses (covers : p.Covers t g stands) (woven : p.Woven) : p.Uses t g := by
  obtain ⟨y, anchor, above⟩ := covers.above
  obtain ⟨b', base, way⟩ := OnChain.of_anchor woven anchor
  exact .inl ⟨b', base, way.trans above.to_reflTransGen⟩

/-- A frame is next that returns to the frame. -/
theorem Covers.of_top (woven : p.Woven) (next : p.stage t = some .next) (top : p.top t = some b)
    (link : p.caller b = some g) (stood : stands b) : p.Covers t g stands := by
  refine ⟨⟨b, (anchor_next next).trans top, .single link⟩, by simp [next], fun {x} uses link' => ?_⟩
  obtain ⟨b', base, way⟩ | running := uses
  · obtain rfl : b = b' := Option.some.inj (top.symm.trans ((base_next next).symm.trans base))
    obtain rfl | ⟨c, link'', rest⟩ := way.cases_caller
    · exact stood
    · obtain rfl := Option.some.inj (link.symm.trans link'')
      exact absurd rest (woven.acyclic.not_caller_reaches link')
  · exact absurd (next.symm.trans running) (by simp)

theorem Stays.covers (stays : p.Stays t p') (woven : p.Woven) (woven' : p'.Woven) (covers : p.Covers t g stands) :
    p'.Covers t g stands := by
  obtain ⟨y, anchor, above⟩ := covers.above
  have uses : p.Uses t y := .inl (.of_anchor woven anchor)
  have above' : Above p'.caller y g := by
    obtain ⟨h, link, way⟩ := Relation.TransGen.head'_iff.1 above
    refine .head' ((stays.caller uses).trans link) ((Reaches.congr fun x on => ?_).2 way)
    obtain ⟨b, base, before⟩ := woven.uses_caller uses link
    exact stays.caller (.inl ⟨b, base, before.trans on⟩)
  refine ⟨⟨y, stays.anchor.trans anchor, above'⟩, fun inside => ?_, fun uses' link => ?_⟩
  · obtain same | top := stays.inside inside
    · exact covers.outside same
    · have anchor' : p'.anchor t = some g := (anchor_of_plain (by simp [Plain, inside])).trans top
      obtain rfl : g = y := Option.some.inj (anchor'.symm.trans (stays.anchor.trans anchor))
      exact woven'.acyclic g above'
  · exact covers.only (stays.uses uses') ((stays.caller (stays.uses uses')).symm.trans link)

namespace Covers

variable (covers : p.Covers t g stands) (woven : p.Woven)

include covers woven

/-- The frame that runs puts another one on top. -/
theorem puts {next : Unit → Program V C} (focus : agent.focus = .code (.ask (.pause t f) next))
    (inside : p.stage t = some (.inside h)) (stage : p'.stage t = p.stage t) (top : p'.top t = some f)
    (place : f = h ∨ p.caller f = some h ∨ p.caller f = p.caller h) (caller : p'.caller = p.caller) :
    p'.Covers t g fun x => stands x ∨ ∃ y, stands y ∧ p.Replaces agent t g y x p' := by
  have inside' : p'.stage t = some (.inside h) := stage.trans inside
  have above := covers.above_inside woven inside
  have first : p'.anchor t = some f := (anchor_of_plain (by simp [Plain, inside'])).trans top
  have uses : p.Uses t h := .inr inside
  -- Below the new top there is nothing new.
  have below {x : FrameId} (way : Reaches p.caller h x) : p.Uses t x := by
    obtain rfl | ⟨c, link, rest⟩ := way.cases_caller
    · exact uses
    · obtain ⟨b, base, before⟩ := woven.uses_caller uses link
      exact .inl ⟨b, base, before.trans rest⟩
  have old {x : FrameId} (on : p'.Uses t x) : x = f ∨ p.Uses t x := by
    obtain ⟨b, base, way⟩ | running := on
    · obtain rfl : f = b := Option.some.inj (top.symm.trans ((base_inside inside').symm.trans base))
      rw [caller] at way
      obtain rfl | ⟨c, link, rest⟩ := way.cases_caller
      · exact .inl rfl
      · obtain rfl | called | beside := place
        · exact .inr (below (.head link rest))
        · obtain rfl := Option.some.inj (called.symm.trans link)
          exact .inr (below rest)
        · exact .inr (below (.head (beside.symm.trans link) rest))
    · obtain rfl : h = x := by simpa using inside'.symm.trans running
      exact .inr uses
  refine ⟨⟨f, first, caller ▸ ?_⟩, fun running => covers.outside (stage ▸ running), fun {x} on link => ?_⟩
  · obtain rfl | called | beside := place
    · exact above
    · exact .head called above
    · obtain ⟨c, link, way⟩ := Relation.TransGen.head'_iff.1 above
      exact .head' (beside.trans link) way
  · have link' : p.caller x = some g := caller ▸ link
    obtain rfl | before := old on
    · obtain rfl | called | beside := place
      · exact .inl (covers.only uses link')
      · obtain rfl := Option.some.inj (called.symm.trans link')
        exact absurd inside covers.outside
      · have mine : p.caller h = some g := beside.symm.trans link'
        exact .inr ⟨h, covers.only uses mine, ⟨next, .inl focus⟩, inside, mine, top, link⟩
    · exact .inl (covers.only before link')

/-- The frame that runs gives the frame on top another caller. -/
theorem relinks {c : Option FrameId} {next : Unit → Program V C}
    (focus : agent.focus = .code (.ask (.attach f c) next)) (inside : p.stage t = some (.inside h))
    (stage : p'.stage t = p.stage t) (first : p.top t = some f) (top : p'.top t = p.top t) (apart : f ≠ h)
    (place : c = some h ∨ c = p.caller h) (caller : p'.caller = Function.update p.caller f c) :
    p'.Covers t g fun x => stands x ∨ ∃ y, stands y ∧ p.Replaces agent t g y x p' := by
  have inside' : p'.stage t = some (.inside h) := stage.trans inside
  have above := covers.above_inside woven inside
  have top' : p'.top t = some f := top.trans first
  have uses : p.Uses t h := .inr inside
  have onTop : p.Uses t f := .inl (.of_base ((base_inside inside).trans first))
  -- The frame on top is not below the one that runs.
  have missed : ¬ Reaches p.caller h f := by
    intro way
    obtain ⟨_, y, top, place⟩ := woven.inside inside
    obtain rfl : f = y := Option.some.inj (first.symm.trans top)
    obtain same | called | beside := place
    · exact apart same
    · exact woven.acyclic.not_caller_reaches called way
    · obtain same | ⟨c, link, rest⟩ := way.cases_caller
      · exact apart same.symm
      · exact woven.acyclic.not_caller_reaches (beside.trans link) rest
  have kept {x : FrameId} : Reaches p'.caller h x ↔ Reaches p.caller h x := caller ▸ Reaches.update missed
  have same : p'.caller f = c := by rw [caller, Function.update_self]
  have other {x : FrameId} (different : x ≠ f) : p'.caller x = p.caller x := by
    rw [caller, Function.update_of_ne different]
  have above' : Above p'.caller h g := by
    obtain ⟨d, link, way⟩ := Relation.TransGen.head'_iff.1 above
    have link' : p'.caller h = some d := (other (Ne.symm apart)).trans link
    refine .head' link' ?_
    obtain same | ⟨d', link'', rest⟩ := (kept.2 (.head link way)).cases_caller
    · exact absurd (same ▸ above) (woven.acyclic g)
    · obtain rfl := Option.some.inj (link'.symm.trans link'')
      exact rest
  have below {x : FrameId} (way : Reaches p'.caller h x) : p.Uses t x := by
    obtain rfl | ⟨d, link, rest⟩ := (kept.1 way).cases_caller
    · exact uses
    · obtain ⟨b, base, before⟩ := woven.uses_caller uses link
      exact .inl ⟨b, base, before.trans rest⟩
  have old {x : FrameId} (on : p'.Uses t x) : p.Uses t x := by
    obtain ⟨b, base, way⟩ | running := on
    · obtain rfl : f = b := Option.some.inj (top'.symm.trans ((base_inside inside').symm.trans base))
      obtain rfl | ⟨d, link, rest⟩ := way.cases_caller
      · exact onTop
      · obtain rfl | rfl := place
        · obtain rfl := Option.some.inj (same.symm.trans link)
          exact below rest
        · exact below (.head ((other (Ne.symm apart)).trans (same.symm.trans link)) rest)
    · obtain rfl : h = x := by simpa using inside'.symm.trans running
      exact uses
  refine ⟨⟨f, (anchor_of_plain (by simp [Plain, inside'])).trans top', ?_⟩,
    fun running => covers.outside (stage ▸ running), fun {x} on link => ?_⟩
  · obtain rfl | rfl := place
    · exact .head same above'
    · obtain ⟨d, link, way⟩ := Relation.TransGen.head'_iff.1 above'
      exact .head' (same.trans ((other (Ne.symm apart)).symm.trans link)) way
  · by_cases new : x = f
    · subst new
      obtain rfl : c = some g := same.symm.trans link
      obtain rfl | mine := place.imp_left Option.some.inj
      · exact absurd inside covers.outside
      · exact .inr ⟨h, covers.only uses mine.symm, ⟨next, .inr focus⟩, inside, mine.symm, top', link⟩
    · exact .inl (covers.only (old on) ((other new).symm.trans link))

/-- A guard calls its body. -/
theorem calls (next : p.stage t = some .next) (first : p.top t = some h) (idle : p.Idle b)
    (inside : p'.stage t = some (.inside h)) (top : p'.top t = some b)
    (caller : p'.caller = Function.update p.caller b (some h)) : p'.Covers t g stands := by
  obtain ⟨y, anchor, above⟩ := covers.above
  obtain rfl : h = y := Option.some.inj (first.symm.trans ((anchor_next next).symm.trans anchor))
  have on : p.OnChain t h := .of_base ((base_next next).trans first)
  have missed : ¬ Reaches p.caller h b := by
    intro way
    obtain ⟨b', base, before⟩ := on
    exact idle.unused t (.inl ⟨b', base, before.trans way⟩)
  have kept {x : FrameId} : Reaches p'.caller h x ↔ Reaches p.caller h x := caller ▸ Reaches.update missed
  have apart : h ≠ g := by
    rintro rfl
    exact woven.acyclic h above
  have above' : Above p'.caller h g := (kept.2 above.to_reflTransGen).above apart
  have link' : p'.caller b = some h := by rw [caller, Function.update_self]
  have first' : p'.anchor t = some b := (anchor_of_plain (by simp [Plain, inside])).trans top
  refine ⟨⟨b, first', .head link' above'⟩, fun running => apart (by simpa using inside.symm.trans running), ?_⟩
  intro x uses link
  have way : x = b ∨ Reaches p.caller h x := by
    obtain ⟨b', base, way⟩ | running := uses
    · obtain rfl : b = b' := Option.some.inj (top.symm.trans ((base_inside inside).symm.trans base))
      obtain rfl | ⟨d, link'', rest⟩ := way.cases_caller
      · exact .inl rfl
      · obtain rfl := Option.some.inj (link'.symm.trans link'')
        exact .inr (kept.1 rest)
    · obtain rfl : h = x := by simpa using inside.symm.trans running
      exact .inr .refl
  obtain rfl | way := way
  · exact absurd (Option.some.inj (link'.symm.trans link)) apart
  · have different : x ≠ b := fun same => missed (same ▸ way)
    obtain ⟨b', base, before⟩ := on
    refine covers.only (.inl ⟨b', base, before.trans way⟩) ?_
    rwa [caller, Function.update_of_ne different] at link

/-- A frame finishes, and its caller is next. -/
theorem returns (inside : p.stage t = some (.inside f)) (first : p.top t = some f) (link : p.caller f = some h)
    (next : p'.stage t = some .next) (top : p'.top t = some h) (caller : p'.caller = p.caller) :
    p'.Covers t g stands ∨ h = g ∧ stands f := by
  have above := covers.above_inside woven inside
  have on : p.OnChain t f := .of_base ((base_inside inside).trans first)
  obtain rfl | above' := above.of_link link
  · exact .inr ⟨rfl, covers.only (.inl on) link⟩
  · refine .inl ⟨⟨h, (anchor_next next).trans top, caller ▸ above'⟩, by simp [next], fun {x} uses link' => ?_⟩
    obtain ⟨b, base, way⟩ | running := uses
    · obtain rfl : h = b := Option.some.inj (top.symm.trans ((base_next next).symm.trans base))
      obtain ⟨b', base', before⟩ := on.caller link
      exact covers.only (.inl ⟨b', base', before.trans (caller ▸ way)⟩) (caller ▸ link')
    · exact absurd (next.symm.trans running) (by simp)

omit woven in
/-- A frame jumps. -/
theorem jumps {s target : FrameId} (inside : p.stage t = some (.inside f))
    (start : p.top t = some f ∧ p.caller f = some s ∨ p.top t = some s) (way : Reaches p.caller s target)
    (anchor : p'.anchor t = some target) (uses : ∀ {x}, p'.Uses t x → p.Uses t x)
    (unmoved : ∀ {x}, p'.stage t ≠ some (.inside x)) (caller : p'.caller = p.caller) :
    p'.Covers t g stands ∨ Reaches p.caller g target := by
  obtain ⟨y, first, above⟩ := covers.above
  have top : p.top t = some y := (anchor_of_plain (by simp [Plain, inside])).symm.trans first
  have down : Reaches p.caller s g := by
    obtain ⟨top', link⟩ | top' := start
    · obtain rfl : f = y := Option.some.inj (top'.symm.trans top)
      obtain rfl | above' := above.of_link link
      · exact .refl
      · exact above'.to_reflTransGen
    · obtain rfl : s = y := Option.some.inj (top'.symm.trans top)
      exact above.to_reflTransGen
  by_cases past : Reaches p.caller g target
  · exact .inr past
  · have short : Reaches p.caller target g :=
      (Relation.ReflTransGen.total_of_right_unique (fun _ _ _ one two => Option.some.inj (one.symm.trans two)) down
        way).resolve_left past
    have apart : target ≠ g := by
      rintro rfl
      exact past .refl
    exact .inl ⟨⟨target, anchor, caller ▸ short.above apart⟩, unmoved, fun on link => covers.only (uses on) (caller ▸ link)⟩

/-- A step that leaves a task above a frame puts a frame in the place of one that returns there, or no other one does;
otherwise a frame that returns there finished, or a frame jumped there or past it. -/
theorem shifts (woven' : p'.Woven) (shifts : p.Shifts agent t p') :
    p'.Covers t g (fun x => stands x ∨ ∃ y, stands y ∧ p.Replaces agent t g y x p') ∨
      (∃ f answer after rest, stands f ∧ ((∃ value, answer = .done value) ∨ ∃ error, answer = .throw error) ∧
        agent = ⟨.code (.answer answer), .frame t f after :: rest⟩ ∧ p.caller f = some g) ∨
      ∃ f target value after rest, agent = ⟨.code (.answer (.jump target value)), .frame t f after :: rest⟩ ∧
        Reaches p.caller g target := by
  have more (kept : p'.Covers t g stands) :
      p'.Covers t g fun x => stands x ∨ ∃ y, stands y ∧ p.Replaces agent t g y x p' :=
    ⟨kept.above, kept.outside, fun on link => .inl (kept.only on link)⟩
  cases shifts with
  | stays stays => exact .inl (more (stays.covers woven woven' covers))
  | puts focus _ inside stage top place caller => exact .inl (covers.puts woven focus inside stage top place caller)
  | relinks focus _ inside stage first top apart place caller =>
    exact .inl (covers.relinks woven focus inside stage first top apart place caller)
  | calls _ next first idle inside top caller => exact .inl (more (covers.calls woven next first idle inside top caller))
  | returns ends same inside first link next top caller =>
    obtain kept | ⟨rfl, stood⟩ := covers.returns woven inside first link next top caller
    · exact .inl (more kept)
    · exact .inr (.inl ⟨_, _, _, _, stood, ends, same, link⟩)
  | ends _ _ inside first last =>
    obtain ⟨c, link, _⟩ := Relation.TransGen.head'_iff.1 (covers.above_inside woven inside)
    exact absurd (last.symm.trans link) (by simp)
  | jumps same inside start way anchor uses unmoved caller =>
    obtain kept | past := covers.jumps inside start way anchor uses unmoved caller
    · exact .inl (more kept)
    · exact .inr (.inr ⟨_, _, _, _, _, same, past⟩)

end Covers

end Picture

namespace Crew

open State Picture

namespace Run

variable [Inhabited V]

section

variable {allowed : Crew V C → Agent V C → Prop}

/-- At this step, a frame that runs and returns to `g` puts another one in its place. -/
def Replaces (run : Run V C allowed) (l : Nat) (t : TaskId) (g x f : FrameId) : Prop :=
  ∃ st before agent behind config, run.Acts l st before agent behind config ∧
    (run.crew l).picture.Replaces agent t g x f (run.crew (l + 1)).picture

/-- What stands in for a frame above `g` by this step: the frame itself, or what was put in the place of something that
stood in for it. -/
inductive StandsIn (run : Run V C allowed) (j : Nat) (t : TaskId) (g b : FrameId) : Nat → FrameId → Prop where
  | body {k : Nat} : StandsIn run j t g b k b
  | replaces {k l : Nat} {x f : FrameId} (stands : StandsIn run j t g b l x) (replaces : run.Replaces l t g x f)
      (since : j ≤ l) (earlier : l < k) : StandsIn run j t g b k f

theorem StandsIn.mono {run : Run V C allowed} {j k k' : Nat} {t : TaskId} {g b f : FrameId}
    (stands : run.StandsIn j t g b k f) (later : k ≤ k') : run.StandsIn j t g b k' f := by
  cases stands with
  | body => exact .body
  | replaces stands replaces since earlier => exact .replaces stands replaces since (by omega)

/-- At this step, a frame that runs for a task finishes with a result, and returns to `g`. -/
def FinishesTo (run : Run V C allowed) (m : Nat) (t : TaskId) (g f : FrameId) (result : Except (Error V) V) : Prop :=
  ∃ st before after rest behind config,
    run.Acts m st before ⟨.code (.answer (.ofResult result)), .frame t f after :: rest⟩ behind config ∧
      (run.crew m).state.caller f = some g

/-- At this step, a frame of a task jumps to `g` or to something below it. -/
def Leaps (run : Run V C allowed) (l : Nat) (t : TaskId) (g : FrameId) : Prop :=
  ∃ st before f target value after rest behind config,
    run.Acts l st before ⟨.code (.answer (.jump target value)), .frame t f after :: rest⟩ behind config ∧
      Reaches (run.crew l).state.caller g target

end

variable {run : Run V C Guarded} {j k : Nat} {st : State V C} {before behind : List (Agent V C)} {agent : Agent V C}
  {config : Config V C} {t u : TaskId} {f g b : FrameId}

theorem Acts.sound_next (acts : run.Acts k st before agent behind config) :
    (⟨config.state, before ++ config.agent :: behind⟩ : Crew V C).Sound := acts.next ▸ run.sound (k + 1) acts.bound

/-- A task has a chain only if it exists. -/
theorem Acts.known_of_anchor (acts : run.Acts k st before agent behind config) {y : FrameId}
    (anchor : (⟨st, before ++ agent :: behind⟩ : Crew V C).picture.anchor t = some y) :
    (st.tasks.get? t).isSome = true := by
  by_cases plain : Plain ((⟨st, before ++ agent :: behind⟩ : Crew V C).picture.stage t)
  · exact isSome_of_top ((anchor_of_plain plain).symm.trans anchor)
  · obtain ⟨doomed, target, stage⟩ : ∃ doomed target,
        (⟨st, before ++ agent :: behind⟩ : Crew V C).picture.stage t = some (.unwinding doomed target) := by
      simpa [Plain] using plain
    obtain ⟨task, found, _⟩ := Option.map_eq_some_iff.1 (acts.sound.life_of_stage stage)
    rw [found]
    rfl

/-- A step that leaves a task above a frame leaves there what stands in for a body, unless that finishes, or a frame
jumps to the frame or past it. -/
theorem Acts.covers (acts : run.Acts k st before agent behind config) (since : j ≤ k)
    (covers : (⟨st, before ++ agent :: behind⟩ : Crew V C).picture.Covers t g (run.StandsIn j t g b k)) :
    (⟨config.state, before ++ config.agent :: behind⟩ : Crew V C).picture.Covers t g (run.StandsIn j t g b (k + 1)) ∨
      (∃ f result after rest, run.StandsIn j t g b k f ∧
        agent = ⟨.code (.answer (.ofResult result)), .frame t f after :: rest⟩ ∧ st.caller f = some g) ∨
      ∃ f target value after rest, agent = ⟨.code (.answer (.jump target value)), .frame t f after :: rest⟩ ∧
        Reaches st.caller g target := by
  obtain ⟨y, anchor, _⟩ := covers.above
  obtain kept | ⟨f, answer, after, rest, stands, ends, same, link⟩ | ⟨f, target, value, after, rest, same, past⟩ :=
    covers.shifts acts.sound.warded.toWoven acts.sound_next.warded.toWoven
      (acts.shifts (acts.known_of_anchor anchor))
  · refine .inl ⟨kept.above, kept.outside, fun {x} uses link => ?_⟩
    obtain old | ⟨x', stands, replaces⟩ := kept.only uses link
    · exact old.mono (Nat.le_succ k)
    · refine .replaces stands ⟨st, before, agent, behind, config, acts, ?_⟩ since (Nat.lt_succ_self k)
      rw [acts.crew, acts.next]
      exact replaces
  · obtain ⟨value, rfl⟩ | ⟨error, rfl⟩ := ends
    · exact .inr (.inl ⟨f, .ok value, after, rest, stands, same, link⟩)
    · exact .inr (.inl ⟨f, .error error, after, rest, stands, same, link⟩)
  · exact .inr (.inr ⟨f, target, value, after, rest, same, past⟩)

theorem Acts.leaps {f target : FrameId} {value : V} {after : Focus V C} {rest : List (Activation V C)}
    (acts : run.Acts k st before ⟨.code (.answer (.jump target value)), .frame t f after :: rest⟩ behind config)
    (past : Reaches st.caller g target) : run.Leaps k t g := by
  refine ⟨st, before, f, target, value, after, rest, behind, config, acts, ?_⟩
  rw [acts.crew]
  exact past

/-! ### What is resumed -/

/-- A frame is resumed only for the task that uses it. -/
theorem Acts.uses_of_resumed (acts : run.Acts k st before agent behind config)
    (label : agent.resumed? st = some (u, f)) :
    (⟨st, before ++ agent :: behind⟩ : Crew V C).picture.Uses u f := by
  obtain ⟨runner, effect⟩ := run.effect acts.bound
  rw [acts.label, label, acts.crew] at effect
  cases effect with
  | resumed _ on => exact .inl on

theorem Acts.task_of_resumed (acts : run.Acts k st before agent behind config)
    (label : agent.resumed? st = some (u, f)) (uses : (⟨st, before ++ agent :: behind⟩ : Crew V C).picture.Uses t f) :
    u = t := acts.sound.warded.apart (acts.uses_of_resumed label) uses

/-- A frame that is covered is resumed only as the next one that a jump past it cancels. -/
theorem Acts.jumps_of_covered {stands : FrameId → Prop} (acts : run.Acts k st before agent behind config)
    (covers : (⟨st, before ++ agent :: behind⟩ : Crew V C).picture.Covers t g stands)
    (label : agent.resumed? st = some (u, g)) : ∃ f target value after rest,
      agent = ⟨.code (.answer (.jump target value)), .frame t f after :: rest⟩ ∧ Reaches st.caller g target := by
  have sound := acts.sound
  obtain rfl := acts.task_of_resumed label (covers.uses sound.warded.toWoven)
  obtain ⟨y, anchor, above⟩ := covers.above
  obtain ⟨focus, stack⟩ := agent
  obtain ⟨value, error, st₁, resumption, x, rest, given, _⟩ := Config.given_of_does acts.acyclic acts.does label
  cases given with
  | @top task after focus found first =>
    obtain rfl : _ = Focus.trampoline u after := focus
    have stage := acts.stage_of_run (u := u) (s := .next) (by simp [Agent.runs, Focus.run?])
    obtain rfl : g = y := by
      have top := (top_of_get? found).trans first
      exact Option.some.inj (top.symm.trans ((anchor_next stage).symm.trans anchor))
    exact absurd above (sound.warded.acyclic g)
  | @cancelled _ answer doomed target value after _ focus _ cause =>
    obtain rfl : _ = Focus.code (.answer answer) := focus
    obtain rfl | ⟨h, onwards, rfl, rfl, path⟩ := cause
    · have stage := acts.stage_of_run (u := u) (s := .unwinding (g :: doomed) target)
        (by simp [Agent.runs, Activation.run?])
      obtain rfl : target = y := Option.some.inj ((anchor_unwinding stage).symm.trans anchor)
      have way := reaches_of_mem_path (sound.warded.path stage).1 rfl (x := target) (by simp)
      exact absurd (Relation.TransGen.trans_left above way) (sound.warded.acyclic target)
    · exact ⟨h, target, value, onwards, rest, rfl, reaches_of_mem_path path rfl (by simp)⟩

end Run

end Crew

end Tasking
