import Mathlib.Data.List.Chain
import Tasking.Proofs.Moves

/-! # Chains that grow

Frames come on a chain in three ways: a frame that no task uses is given a caller and put on top
of a running frame, and a new task begins at such a frame.  None of it touches a chain in use,
so `Picture.Warded` stays.
-/

namespace Tasking.Picture

variable {V : Type} {p : Picture V} {t : TaskId} {f g : FrameId} {c : Option FrameId}

/-- The picture after a frame was given a caller. -/
def attach (p : Picture V) (f : FrameId) (c : Option FrameId) : Picture V :=
  { p with caller := Function.update p.caller f c }

/-- A caller that may be given to a frame: it exists, the frame is not below it, and if it is a
    guard, it has called its body. -/
structure MayCall (p : Picture V) (c : Option FrameId) (f : FrameId) : Prop where
  known : ∀ {k}, c = some k → p.known k
  apart : ∀ {k}, c = some k → ¬ Reaches p.caller k f
  called : ∀ {k r phase}, c = some k → p.guard k = some (r, phase) →
    phase = .held ∨ phase = .released

theorem onChain_attach (idle : p.Idle f) {u : TaskId} {x : FrameId} :
    (p.attach f c).OnChain u x ↔ p.OnChain u x := by
  refine exists_congr fun b => and_congr_right fun (base : p.base u = some b) => ?_
  exact Reaches.update fun way => idle.unused u (.inl ⟨b, base, way⟩)

theorem uses_attach (idle : p.Idle f) {u : TaskId} {x : FrameId} :
    (p.attach f c).Uses u x ↔ p.Uses u x := or_congr (onChain_attach idle) Iff.rfl

theorem caller_attach_ne {x : FrameId} (other : x ≠ f) : (p.attach f c).caller x = p.caller x := by
  simp [attach, other]

/-- Members of a path are behind its first frame. -/
theorem reaches_of_mem_path {caller : FrameId → Option FrameId} {b : FrameId} {path : List FrameId}
    (chain : path.IsChain fun f g => caller f = some g) (first : path.head? = some b) {x : FrameId}
    (member : x ∈ path) : Reaches caller b x := by
  induction path generalizing b with
  | nil => simp at member
  | cons a rest inductionHypothesis =>
    obtain rfl : a = b := by simpa using first
    rcases List.mem_cons.1 member with rfl | later
    · exact .refl
    · cases rest with
      | nil => simp at later
      | cons a' rest =>
        obtain ⟨link, chain⟩ := List.isChain_cons_cons.1 chain
        exact .head link (inductionHypothesis chain rfl later)

theorem onChain_of_mem_path (woven : p.Woven) {doomed : List FrameId} {target x : FrameId}
    (at' : p.stage t = some (.unwinding doomed target)) (member : x ∈ doomed ++ [target]) :
    p.OnChain t x := by
  obtain ⟨b, first⟩ : ∃ b, (doomed ++ [target]).head? = some b := by cases doomed <;> simp
  exact (onChain_unwinding at').2 ⟨b, first, reaches_of_mem_path (woven.path at').1 first member⟩

theorem Woven.attach (woven : p.Woven) (idle : p.Idle f) (may : p.MayCall c f) :
    (p.attach f c).Woven where
  acyclic := woven.acyclic.update fun k same => may.apart same
  caller_known {x k} link := by
    by_cases same : x = f
    · subst same
      exact may.known (by simpa [Picture.attach] using link)
    · exact woven.caller_known ((caller_attach_ne same).symm.trans link)
  top_known := woven.top_known
  apart first second := woven.apart ((uses_attach idle).1 first) ((uses_attach idle).1 second)
  inside {u x} at' := by
    obtain ⟨known, h, top, place⟩ := woven.inside at'
    have plain : Plain (p.stage u) := by simp [Plain, show p.stage u = _ from at']
    have top_ne : h ≠ f := by
      rintro rfl
      exact idle.unused u (.inl (.of_base ((base_plain plain).trans top)))
    have running_ne : x ≠ f := by
      rintro rfl
      exact idle.unused u (.inr at')
    refine ⟨known, h, top, ?_⟩
    rwa [caller_attach_ne top_ne, caller_attach_ne running_ne]
  path {u doomed target} at' := by
    obtain ⟨path, known⟩ := woven.path at'
    refine ⟨?_, known⟩
    have members : ∀ x ∈ doomed ++ [target], x ≠ f := by
      rintro x member rfl
      exact idle.unused u (.inl (onChain_of_mem_path woven at' member))
    exact path.imp_of_mem_imp fun x _ member _ link =>
      (caller_attach_ne (members x member)).trans link

/-- A frame that no task uses may be given a caller. -/
theorem Warded.attach (warded : p.Warded) (idle : p.Idle f) (may : p.MayCall c f) :
    (p.attach f c).Warded where
  toWoven := warded.toWoven.attach idle may
  held holding := by
    obtain ⟨u, on, owns⟩ := warded.held holding
    exact ⟨u, (onChain_attach idle).2 on, owns⟩
  beneath {u h k r phase} uses link guard := by
    have old := (uses_attach idle).1 uses
    have other : h ≠ f := by
      rintro rfl
      exact idle.unused u old
    exact warded.beneath old ((caller_attach_ne other).symm.trans link) guard
  called {h k r phase} link guard := by
    by_cases same : h = f
    · subst same
      exact may.called (by simpa [Picture.attach] using link) guard
    · exact warded.called ((caller_attach_ne same).symm.trans link) guard
  owned owns := by
    obtain ⟨g, on, having⟩ := warded.owned owns
    exact ⟨g, (onChain_attach idle).2 on, having⟩
  alone first second :=
    warded.alone ⟨(onChain_attach idle).1 first.1, first.2⟩
      ⟨(onChain_attach idle).1 second.1, second.2⟩
  parked := warded.parked
  queued := warded.queued
  free := warded.free
  nodup := warded.nodup
  pushed := warded.pushed

/-- A running frame may choose another place for the frame that it has put on top. -/
theorem Warded.attach_top (warded : p.Warded) (at' : p.stage t = some (.inside g))
    (found : p.top t = some f) (different : f ≠ g) (plain : p.guard g = none)
    (may : p.MayCall c f) (place : c = some g ∨ c = p.caller g) :
    (p.attach f c).Warded := by
  -- The frame is taken off, given its caller, and put on again.
  have off : (p.move t (some g) (p.stage t)).Warded :=
    warded.push at' (.inr rfl) (.inl rfl) (by simp [plain])
  have mine : p.OnChain t f := .of_base ((base_inside at').trans found)
  have above : p.caller f = some g ∨ p.caller f = p.caller g := by
    obtain ⟨_, h, found', place'⟩ := warded.inside at'
    obtain rfl : f = h := Option.some.inj (found.symm.trans found')
    exact place'.resolve_left different
  have missed : ¬ Reaches p.caller g f := by
    intro way
    rcases above with onTop | beside
    · exact warded.acyclic.not_caller_reaches onTop way
    · rcases way.cases_caller with same | ⟨k, link, rest⟩
      · exact different same.symm
      · exact warded.acyclic.not_caller_reaches (beside.trans link) rest
  have idle : (p.move t (some g) (p.stage t)).Idle f := by
    refine ⟨warded.top_known found, fun u uses => ?_, fun guard => ?_⟩
    · by_cases same : u = t
      · subst same
        rcases uses with on | inside
        · rw [onChain_move_plain (by simp [Plain, at'])] at on
          obtain ⟨b, ⟨⟩, way⟩ := on
          exact missed way
        · rw [stage_move_self, at'] at inside
          exact different (by simpa using inside.symm)
      · exact same (warded.apart ((uses_move_ne same _ _ f).1 uses) (.inl mine))
    · exact warded.pushed at' found different guard
  have attached := off.attach (c := c) idle ⟨may.known, may.apart, may.called⟩
  have idle' : ((p.move t (some g) (p.stage t)).attach f c).Idle f :=
    ⟨idle.known, fun u uses => idle.unused u ((uses_attach idle).1 uses), idle.unresumed⟩
  have at'' : ((p.move t (some g) (p.stage t)).attach f c).stage t = some (.inside g) := by
    simpa [Picture.attach, Picture.move] using at'
  have caller : ((p.move t (some g) (p.stage t)).attach f c).caller f = some g ∨
      ((p.move t (some g) (p.stage t)).attach f c).caller f =
        ((p.move t (some g) (p.stage t)).attach f c).caller g := by
    rw [caller_attach_ne (Ne.symm different)]
    simpa [Picture.attach, Picture.move] using place
  have on := attached.push at'' (.inl idle') (.inr caller) fun r phase guard => by
    simp [Picture.attach, Picture.move, plain] at guard
  have same : ((p.move t (some g) (p.stage t)).attach f c).move t (some f)
      (((p.move t (some g) (p.stage t)).attach f c).stage t) = p.attach f c := by
    simp [Picture.move, Picture.attach, ← found]
  rwa [same] at on

/-! ## New frames and new tasks -/

/-- The picture after a frame was created. -/
def addFrame (p : Picture V) (f : FrameId) (code : Option (ResourceId × Phase V)) : Picture V :=
  { p with
    known := fun g => p.known g ∨ g = f
    guard := Function.update p.guard f code }

/-- A new frame, which may be a guard, is on no chain. -/
theorem Warded.addFrame (warded : p.Warded) {code : Option (ResourceId × Phase V)}
    (fresh : ¬ p.known f) (plain : p.guard f = none)
    (start : ∀ r phase, code = some (r, phase) → ∃ body, phase = .start body) :
    (p.addFrame f code).Warded := by
  have guard : ∀ {g r phase}, phase.engaged = true →
      ((p.addFrame f code).guard g = some (r, phase) ↔ p.guard g = some (r, phase)) := by
    intro g r phase engaged
    by_cases same : g = f
    · subst same
      simp only [Picture.addFrame, Function.update_self, plain, reduceCtorEq, iff_false]
      intro new
      obtain ⟨body, rfl⟩ := start r phase new
      simp [Phase.engaged] at engaged
    · simp [Picture.addFrame, same]
  have guard_ne : ∀ {g}, g ≠ f → (p.addFrame f code).guard g = p.guard g := fun other => by
    simp [Picture.addFrame, other]
  have holds : ∀ {u g r}, (p.addFrame f code).Holds u g r ↔ p.Holds u g r := by
    intro u g r
    refine and_congr Iff.rfl (or_congr (guard rfl) (and_congr_left fun _ => ?_))
    exact exists_congr fun body => exists_congr fun value => guard rfl
  refine ⟨⟨warded.acyclic, fun link => .inl (warded.caller_known link),
    fun found => .inl (warded.top_known found), warded.apart,
    fun at' => (warded.inside at').imp .inl id, fun at' => (warded.path at').imp id .inl⟩,
    ?_, ?_, ?_, ?_, ?_, ?_, ?_, warded.free, warded.nodup, ?_⟩
  · intro g r held
    exact warded.held ((guard rfl).1 held)
  · intro u h g r phase uses link found
    rw [guard_ne fun same => fresh (same ▸ warded.caller_known link)] at found
    exact warded.beneath uses link found
  · intro h g r phase link found
    rw [guard_ne fun same => fresh (same ▸ warded.caller_known link)] at found
    exact warded.called link found
  · intro u r owns
    obtain ⟨g, having⟩ := warded.owned owns
    exact ⟨g, holds.2 having⟩
  · intro u v g h r first second
    exact warded.alone (holds.1 first) (holds.1 second)
  · intro g r body value waiting
    exact warded.parked ((guard rfl).1 waiting)
  · intro u r member
    obtain ⟨g, body, value, found, waiting, place⟩ := warded.queued member
    exact ⟨g, body, value, found, (guard rfl).2 waiting, place⟩
  · intro u g h r phase at' found different new
    rw [guard_ne fun same => fresh (same ▸ warded.top_known found)] at new
    exact warded.pushed at' found different new

/-- A new task begins at a frame whose chain no task uses. -/
theorem Warded.addTask (warded : p.Warded) {entry : FrameId} (fresh : p.top t = none)
    (quiet : p.stage t = none) (idle : ∀ f, Reaches p.caller entry f → p.Idle f) :
    (p.move t (some entry) none).Warded := by
  have nothing : ∀ f, ¬ p.OnChain t f := by
    rintro f ⟨b, base, _⟩
    rw [base_idle quiet, fresh] at base
    simp at base
  have chain : ∀ f, (p.move t (some entry) none).OnChain t f → p.Idle f := fun f on => by
    obtain ⟨b, ⟨⟩, way⟩ := (onChain_move_plain (by simp [Plain])).1 on
    exact idle f way
  have uses : ∀ f, (p.move t (some entry) none).Uses t f → p.Idle f := by
    rintro f (on | inside)
    · exact chain f on
    · simp [stage_move_self] at inside
  refine warded.move (fun f use => .inr (uses f use)) (fun f on => .inr (chain f on).slack) ?_ (by simp)
    (by simp) ?_ (fun f r phase on => absurd on (nothing f)) (by simp [fresh]) ?_ (by simp)
  · rintro f ⟨⟩
    exact (idle entry .refl).known
  · intro h f r phase _ use link guard
    have below : (p.move t (some entry) none).OnChain t f := by
      rcases use with on | inside
      · exact on.caller link
      · simp [stage_move_self] at inside
    obtain ⟨body, rfl⟩ := (chain f below).unresumed guard
    simpa using warded.called link guard
  · intro r member
    obtain ⟨f, _, _, found, _⟩ := warded.queued member
    simp [fresh] at found

end Tasking.Picture
