import Mathlib.Data.List.Nodup
import Mathlib.Data.List.Perm.Subperm
import Tasking.Proofs.Lookup

/-! # The caller relation

`Reaches caller f g` says that `g` is met on the way from `f` through its callers to the root.
Nothing below a frame is above it again: `Acyclic caller`.  Walks along callers are bounded by
the number of frames, and under this invariant the bound never cuts one short
(`mem_chain_iff`).  So attaching a frame keeps the invariant, and the frames that an unwind
cancels are exactly those on the way to its target.
-/

namespace Tasking

variable {V C : Type}

/-- Different numbers in use are no more than there are things. -/
theorem Table.length_le_size {kind : Kind} {α : Type} (table : Table kind α)
    {ids : List (Id kind)} (distinct : ids.Nodup)
    (used : ∀ i ∈ ids, (table.get? i).isSome = true) : ids.length ≤ table.size := by
  have subset : ids.map Id.number ⊆ List.range' 1 table.size := by
    intro n member
    obtain ⟨i, inside, rfl⟩ := List.mem_map.1 member
    have bounds := (table.isSome_get?_iff i).1 (used i inside)
    rw [List.mem_range'_1]
    omega
  have injective : Function.Injective (Id.number : Id kind → Nat) := by
    rintro ⟨m⟩ ⟨n⟩ rfl
    rfl
  simpa using (List.subperm_of_subset (distinct.map injective) subset).length_le

/-- The second frame is met on the way from the first through its callers to the root. -/
def Reaches (caller : FrameId → Option FrameId) : FrameId → FrameId → Prop :=
  Relation.ReflTransGen fun f g => caller f = some g

/-- The second frame is met below the first. -/
def Above (caller : FrameId → Option FrameId) : FrameId → FrameId → Prop :=
  Relation.TransGen fun f g => caller f = some g

/-- No frame is below itself. -/
def Acyclic (caller : FrameId → Option FrameId) : Prop := ∀ f, ¬ Above caller f f

namespace Reaches

variable {caller caller' : FrameId → Option FrameId} {b f g h p : FrameId}

@[refl] theorem refl : Reaches caller f f := Relation.ReflTransGen.refl

theorem head (link : caller f = some p) (rest : Reaches caller p g) : Reaches caller f g :=
  Relation.ReflTransGen.head link rest

theorem tail (before : Reaches caller f g) (link : caller g = some p) : Reaches caller f p :=
  Relation.ReflTransGen.tail before link

theorem single (link : caller f = some g) : Reaches caller f g := head link refl

theorem trans (first : Reaches caller f g) (second : Reaches caller g h) : Reaches caller f h :=
  Relation.ReflTransGen.trans first second

/-- A way leads nowhere, or first to the caller. -/
theorem cases_caller (way : Reaches caller f g) :
    f = g ∨ ∃ p, caller f = some p ∧ Reaches caller p g := by
  rcases Relation.ReflTransGen.cases_head way with same | ⟨p, link, rest⟩
  · exact .inl same
  · exact .inr ⟨p, link, rest⟩

/-- A way to another frame comes to it from a frame that it returns from. -/
theorem cases_last (way : Reaches caller f g) :
    f = g ∨ ∃ h, Reaches caller f h ∧ caller h = some g := by
  rcases Relation.ReflTransGen.cases_tail way with same | ⟨h, before, link⟩
  · exact .inl same.symm
  · exact .inr ⟨h, before, link⟩

theorem above (way : Reaches caller f g) (different : f ≠ g) : Above caller f g := by
  rcases Relation.reflTransGen_iff_eq_or_transGen.1 way with same | above
  · exact absurd same.symm different
  · exact above

/-- Ways from a frame stay when the callers along them do. -/
theorem congr (same : ∀ g, Reaches caller b g → caller' g = caller g) :
    Reaches caller' b f ↔ Reaches caller b f := by
  constructor <;> intro way
  · induction way with
    | refl => exact .refl
    | tail _ link inductionHypothesis =>
      exact .tail inductionHypothesis (by rw [← same _ inductionHypothesis]; exact link)
  · induction way with
    | refl => exact .refl
    | tail before link inductionHypothesis =>
      exact .tail inductionHypothesis (by rw [same _ before]; exact link)

/-- Ways from a frame stay when a caller changes that they do not come by. -/
theorem update (missed : ¬ Reaches caller b g) {p : Option FrameId} :
    Reaches (Function.update caller g p) b f ↔ Reaches caller b f := by
  refine congr fun h way => ?_
  rw [Function.update_of_ne]
  rintro rfl
  exact missed way

/-- Whatever is met from a frame on a cycle is on the cycle too. -/
theorem back (cycle : Above caller f f) (way : Reaches caller f g) : Reaches caller g f := by
  induction way with
  | refl => exact .refl
  | @tail h p _ link inductionHypothesis =>
    rcases inductionHypothesis.cases_caller with rfl | ⟨p', link', rest⟩
    · obtain ⟨p', link', rest⟩ := Relation.TransGen.head'_iff.1 cycle
      exact Option.some.inj (link'.symm.trans link) ▸ rest
    · exact Option.some.inj (link'.symm.trans link) ▸ rest

end Reaches

namespace Acyclic

variable {caller : FrameId → Option FrameId} {f g p : FrameId}

theorem antisymm (acyclic : Acyclic caller) (down : Reaches caller f g) (up : Reaches caller g f) :
    f = g := by
  by_contra different
  exact acyclic f (Relation.TransGen.trans_left (down.above different) up)

theorem not_caller_reaches (acyclic : Acyclic caller) (link : caller f = some p) :
    ¬ Reaches caller p f := fun way => acyclic f (Relation.TransGen.head' link way)

theorem ne_caller (acyclic : Acyclic caller) (link : caller f = some p) : f ≠ p :=
  fun same => acyclic.not_caller_reaches link (same ▸ .refl)

/-- A new caller from which the frame is not met closes no cycle. -/
theorem update (acyclic : Acyclic caller) {p : Option FrameId}
    (missed : ∀ c, p = some c → ¬ Reaches caller c g) :
    Acyclic (Function.update caller g p) := by
  have avoid : ∀ c, p = some c → ¬ Reaches (Function.update caller g p) c g :=
    fun c new way => missed c new ((Reaches.update (missed c new)).1 way)
  intro f cycle
  obtain ⟨c, link, rest⟩ := Relation.TransGen.head'_iff.1 cycle
  -- A cycle that comes by `g` would lead from its new caller back to `g`; any other was there before.
  by_cases through : Reaches (Function.update caller g p) f g
  · rcases (through.back cycle).cases_caller with rfl | ⟨c', link', onwards⟩
    · rw [Function.update_self] at link
      exact avoid c link rest
    · rw [Function.update_self] at link'
      exact avoid c' link' (Reaches.trans onwards through)
  · have missing : ∀ {h}, Reaches (Function.update caller g p) f h → h ≠ g := by
      rintro h way rfl
      exact through way
    have old : Reaches caller c f := by
      refine (Reaches.congr fun h way => ?_).2 rest
      exact (Function.update_of_ne (missing (Reaches.head link way)) ..).symm
    rw [Function.update_of_ne (missing .refl)] at link
    exact acyclic f (Relation.TransGen.head' link old)

/-- A path of callers does not come back to where it began. -/
theorem ne_of_path (acyclic : Acyclic caller) {target : FrameId} {rest : List FrameId}
    (path : (f :: rest ++ [target]).IsChain fun f g => caller f = some g) : f ≠ target := by
  rintro rfl
  have above : (f :: rest ++ [f]).IsChain (Relation.TransGen fun f g => caller f = some g) :=
    path.imp fun _ _ => Relation.TransGen.single
  exact acyclic f (List.rel_of_pairwise_cons (List.isChain_iff_pairwise.1 above) (by simp))

end Acyclic

namespace State

theorem exists_of_caller {st : State V C} {f g : FrameId} (link : st.caller f = some g) :
    (st.frames.get? f).isSome = true := by
  unfold caller at link
  cases found : st.frames.get? f <;> simp_all

/-! ## Walks with a bound -/

theorem chainUpTo_succ (st : State V C) (bound : Nat) (f : FrameId) :
    st.chainUpTo (bound + 1) f = f :: (st.caller f).elim [] (st.chainUpTo bound) := by
  rw [chainUpTo, caller]
  cases (st.frames.get? f).bind Frame.caller <;> rfl

theorem reaches_of_mem_chainUpTo {st : State V C} {bound : Nat} {f g : FrameId}
    (member : g ∈ st.chainUpTo bound f) : Reaches st.caller f g := by
  induction bound generalizing f with
  | zero => simp [chainUpTo] at member
  | succ bound inductionHypothesis =>
    rw [chainUpTo_succ] at member
    rcases List.mem_cons.1 member with rfl | rest
    · exact .refl
    · cases link : st.caller f with
      | none => simp [link] at rest
      | some p =>
        rw [link] at rest
        exact .head link (inductionHypothesis rest)

/-- A frame that a bounded walk does not meet is behind as many frames as the bound. -/
theorem mem_chainUpTo_or {st : State V C} {f g : FrameId} (way : Reaches st.caller f g) (bound : Nat) :
    g ∈ st.chainUpTo bound f ∨ ((st.chainUpTo bound f).length = bound ∧
      ∀ h ∈ st.chainUpTo bound f, (st.frames.get? h).isSome = true) := by
  induction bound generalizing f with
  | zero => exact .inr ⟨rfl, by simp [chainUpTo]⟩
  | succ bound inductionHypothesis =>
    rw [chainUpTo_succ]
    rcases way.cases_caller with rfl | ⟨p, link, rest⟩
    · exact .inl List.mem_cons_self
    · rw [link]
      refine (inductionHypothesis rest).imp (List.mem_cons_of_mem f) ?_
      rintro ⟨length, used⟩
      refine ⟨congrArg Nat.succ length, fun h member => ?_⟩
      rcases List.mem_cons.1 member with rfl | later
      · exact exists_of_caller link
      · exact used h later

theorem chainUpTo_nodup {st : State V C} (acyclic : Acyclic st.caller) (bound : Nat) (f : FrameId) :
    (st.chainUpTo bound f).Nodup := by
  induction bound generalizing f with
  | zero => exact List.nodup_nil
  | succ bound inductionHypothesis =>
    rw [chainUpTo_succ]
    cases link : st.caller f with
    | none => simp
    | some p =>
      exact List.nodup_cons.2 ⟨fun member =>
        acyclic.not_caller_reaches link (reaches_of_mem_chainUpTo member), inductionHypothesis p⟩

/-- Walking as far as there are frames meets every frame on the way. -/
theorem mem_chain_iff {st : State V C} (acyclic : Acyclic st.caller) {f g : FrameId}
    (used : (st.frames.get? g).isSome = true) : g ∈ st.chain f ↔ Reaches st.caller f g := by
  refine ⟨reaches_of_mem_chainUpTo, fun way => ?_⟩
  rcases mem_chainUpTo_or way st.frames.size with member | ⟨length, allUsed⟩
  · exact member
  · by_contra missed
    have tooMany := st.frames.length_le_size
      (List.nodup_cons.2 ⟨missed, chainUpTo_nodup acyclic st.frames.size f⟩)
      (List.forall_mem_cons.2 ⟨used, allUsed⟩)
    rw [List.length_cons, chain, length] at tooMany
    omega

/-- The frames of a bounded walk that come before one of them lead to it one after the other. -/
theorem chainUpTo_takeWhile {st : State V C} {bound : Nat} {f target : FrameId}
    (member : target ∈ st.chainUpTo bound f) :
    ((st.chainUpTo bound f).takeWhile (· ≠ target) ++ [target]).head? = some f ∧
      ((st.chainUpTo bound f).takeWhile (· ≠ target) ++ [target]).IsChain
        fun g h => st.caller g = some h := by
  induction bound generalizing f with
  | zero => simp [chainUpTo] at member
  | succ bound inductionHypothesis =>
    rw [chainUpTo_succ] at member ⊢
    by_cases same : f = target
    · simp [same]
    · have later := (List.mem_cons.1 member).resolve_left (Ne.symm same)
      rw [List.takeWhile_cons_of_pos (by simpa using same), List.cons_append]
      refine ⟨rfl, ?_⟩
      cases link : st.caller f with
      | none => simp [link] at later
      | some p =>
        simp only [link, Option.elim_some] at later
        obtain ⟨first, path⟩ := inductionHypothesis later
        obtain ⟨rest, line⟩ := List.head?_eq_some_iff.1 first
        rw [line] at path
        simp only [Option.elim_some, line]
        exact List.isChain_cons_cons.2 ⟨link, path⟩

/-- The frames above a target lead from the top of the chain to it. -/
theorem framesAbove_some {st : State V C} {top : Option FrameId} {target : FrameId}
    {doomed : List FrameId} (found : st.framesAbove top target = some doomed) :
    (doomed ++ [target]).head? = top ∧
      (doomed ++ [target]).IsChain fun f g => st.caller f = some g := by
  simp only [framesAbove, Option.ite_none_right_eq_some, Option.some.injEq] at found
  obtain ⟨member, rfl⟩ := found
  cases top with
  | none => simp [chainOf] at member
  | some f => exact chainUpTo_takeWhile member

end State

end Tasking
