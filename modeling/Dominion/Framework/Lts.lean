import Mathlib.Logic.Function.Basic
import Mathlib.Data.List.Basic
import Mathlib.Logic.Relation

/-! # Labelled transition systems

Every concurrent component of the development is a set of initial states with a partial,
deterministic step function: all nondeterminism is carried by the labels.  A run may be
restricted to steps that meet a condition, so that a property can be proved of exactly the runs
that satisfy it. -/
namespace Dominion.Framework

universe u v w

/-- A guarded step of a transition function. -/
theorem of_guard {α : Type u} {c : Prop} [Decidable c] {x y : α}
    (h : (if c then some x else none) = some y) : c ∧ x = y := by
  split at h
  · rename_i hc
    exact ⟨hc,Option.some.inj h⟩
  · cases h

structure Lts (σ : Type u) (ℓ : Type v) where
  init : σ → Prop
  step : σ → ℓ → Option σ

namespace Lts

variable {σ : Type u} {ℓ : Type v}

/-- The states of the runs of `M` all of whose steps meet `C`. -/
inductive ReachUnder (M : Lts σ ℓ) (C : σ → ℓ → Prop) : σ → Prop
  | init {s : σ} : M.init s → ReachUnder M C s
  | step {s s' : σ} {l : ℓ} : ReachUnder M C s → C s l → M.step s l = some s' → ReachUnder M C s'

/-- The states of all runs. -/
def Reach (M : Lts σ ℓ) : σ → Prop :=
  ReachUnder M fun _ _ => True

variable {M : Lts σ ℓ} {C D : σ → ℓ → Prop}

private theorem ReachUnder.mono (hCD : ∀ s l, C s l → D s l) {s : σ} (h : ReachUnder M C s) :
    ReachUnder M D s := by
  induction h with
  | init hs => exact .init hs
  | step _ hC hstep ih => exact .step ih (hCD _ _ hC) hstep

theorem ReachUnder.reach {s : σ} (h : ReachUnder M C s) : Reach M s :=
  h.mono fun _ _ _ => trivial

/-- A step that meets `C`. -/
def StepUnder (M : Lts σ ℓ) (C : σ → ℓ → Prop) (s s' : σ) : Prop :=
  ∃ l, C s l ∧ M.step s l = some s'

theorem ReachUnder.trans {s s' : σ} (h : ReachUnder M C s)
    (hpath : Relation.ReflTransGen (StepUnder M C) s s') : ReachUnder M C s' := by
  induction hpath with
  | refl => exact h
  | tail _ hstep ih =>
    obtain ⟨l,hC,hl⟩ := hstep
    exact .step ih hC hl

/-- `I` holds initially and is preserved by the steps that meet `C`. -/
structure Inductive (M : Lts σ ℓ) (C : σ → ℓ → Prop) (I : σ → Prop) : Prop where
  init : ∀ s, M.init s → I s
  step : ∀ s l s', I s → C s l → M.step s l = some s' → I s'

theorem Inductive.of_reachUnder {I : σ → Prop} (hI : Inductive M C I) {s : σ}
    (h : ReachUnder M C s) : I s := by
  induction h with
  | init hs => exact hI.init _ hs
  | step _ hC hstep ih => exact hI.step _ _ _ ih hC hstep

theorem Inductive.weaken {I : σ → Prop} (hI : Inductive M D I) (hCD : ∀ s l, C s l → D s l) :
    Inductive M C I where
  init := hI.init
  step s l s' h hC := hI.step s l s' h (hCD s l hC)

/-- The run along a list of labels. -/
def run (M : Lts σ ℓ) (s : σ) : List ℓ → Option σ
  | [] => some s
  | l :: ls => (M.step s l).bind fun s' => run M s' ls

theorem reach_of_run {s s' : σ} (ls : List ℓ) (hs : Reach M s) (h : M.run s ls = some s') :
    Reach M s' := by
  induction ls generalizing s with
  | nil =>
    have he : s = s' := by simpa [run] using h
    exact he ▸ hs
  | cons l ls ih =>
    obtain ⟨t,ht,hrun⟩ := Option.bind_eq_some_iff.mp h
    exact ih (.step hs trivial ht) hrun

theorem run_append (s : σ) (ls ls' : List ℓ) :
    M.run s (ls ++ ls') = (M.run s ls).bind fun t => M.run t ls' := by
  induction ls generalizing s with
  | nil => rfl
  | cons l ls ih =>
    cases hstep : M.step s l with
    | none => simp [run,hstep]
    | some t => simpa [run,hstep] using ih t

/-- A check computed at the end of a run holds of a state of the system. -/
theorem reach_of_run_any {s : σ} {p : σ → Bool} (ls : List ℓ) (hs : Reach M s)
    (h : (M.run s ls).any p = true) : ∃ s', Reach M s' ∧ p s' = true := by
  obtain ⟨s',hrun,hp⟩ := Option.any_eq_true _ _ |>.mp h
  exact ⟨s',reach_of_run ls hs hrun,hp⟩

/-- A run along labels that meet a decidable condition stays within it. -/
def runUnder (M : Lts σ ℓ) (c : σ → ℓ → Bool) (s : σ) : List ℓ → Option σ
  | [] => some s
  | l :: ls => if c s l then (M.step s l).bind fun s' => runUnder M c s' ls else none

theorem path_of_runUnder {c : σ → ℓ → Bool} (hc : ∀ s l, c s l = true → C s l)
    {s s' : σ} (ls : List ℓ) (h : M.runUnder c s ls = some s') :
    Relation.ReflTransGen (StepUnder M C) s s' := by
  induction ls generalizing s with
  | nil =>
    have he : s = s' := by simpa [runUnder] using h
    exact he ▸ .refl
  | cons l ls ih =>
    rw [runUnder] at h
    split at h
    · rename_i hcs
      obtain ⟨t,ht,hrun⟩ := Option.bind_eq_some_iff.mp h
      exact .head ⟨l,hc s l hcs,ht⟩ (ih hrun)
    · cases h

/-- A check computed at the end of such a run holds of a state within the condition. -/
theorem reachUnder_of_runUnder_any {c : σ → ℓ → Bool} (hc : ∀ s l, c s l = true → C s l)
    {s : σ} {p : σ → Bool} (ls : List ℓ) (hs : ReachUnder M C s)
    (h : (M.runUnder c s ls).any p = true) : ∃ s', ReachUnder M C s' ∧ p s' = true := by
  obtain ⟨s',hrun,hp⟩ := Option.any_eq_true _ _ |>.mp h
  exact ⟨s',hs.trans (path_of_runUnder hc ls hrun),hp⟩

/-- `M` beside a journal of its steps. -/
def journaled {J : Type w} (M : Lts σ ℓ) (observe : σ → ℓ → σ → J → J) (j : J) : Lts (σ × J) ℓ where
  init x := M.init x.1 ∧ x.2 = j
  step x l := (M.step x.1 l).map fun s => (s,observe x.1 l s x.2)

theorem journaled_step {J : Type w} {observe : σ → ℓ → σ → J → J} {j : J} {x y : σ × J} {l : ℓ} :
    (M.journaled observe j).step x l = some y ↔
      M.step x.1 l = some y.1 ∧ y.2 = observe x.1 l y.1 x.2 := by
  obtain ⟨s,k⟩ := y
  show (M.step x.1 l).map (fun s => (s,observe x.1 l s x.2)) = some (s,k) ↔ _
  rw [Option.map_eq_some_iff]
  constructor
  · rintro ⟨s',hs',he⟩
    cases he
    exact ⟨hs',rfl⟩
  · rintro ⟨hs,hk⟩
    exact ⟨s,hs,by rw [← hk]⟩

/-- The journal restricts no run. -/
theorem ReachUnder.journaled {J : Type w} (observe : σ → ℓ → σ → J → J) (j : J) {s : σ}
    (h : ReachUnder M C s) :
    ∃ k, ReachUnder (M.journaled observe j) (fun x l => C x.1 l) (s,k) := by
  induction h with
  | init hs => exact ⟨j,.init ⟨hs,rfl⟩⟩
  | @step s s' l _ hC hstep ih =>
    obtain ⟨k,hk⟩ := ih
    have hstep' : (M.journaled observe j).step (s,k) l = some (s',observe s l s' k) :=
      journaled_step.mpr ⟨hstep,rfl⟩
    exact ⟨_,.step hk hC hstep'⟩

end Lts

end Dominion.Framework
