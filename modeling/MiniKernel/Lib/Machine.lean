-- Machines that step: where they start, what a step does, which states a run
-- reaches. An invariant is proved once for the start and once for a step, and
-- then holds in every state of every run.
import Mathlib

open Option

namespace mini_kernel.lib

universe u v

/-- A machine: the states it may start in, and the steps it may take. A step
carries a label that says who takes it. -/
structure Machine (σ : Type u) (ℓ : Type v) where
  init : σ → Prop
  step : σ → ℓ → σ → Prop

namespace Machine

variable {σ : Type u} {ℓ : Type v} {M : Machine σ ℓ} {G : σ → ℓ → Prop} {P : σ → Prop}

/-- The states reached by a run in which every step meets the guard `G`. -/
inductive ReachedBy (M : Machine σ ℓ) (G : σ → ℓ → Prop) : σ → Prop
  | start {s : σ} : M.init s → ReachedBy M G s
  | next {s s' : σ} {l : ℓ} : ReachedBy M G s → G s l → M.step s l s' → ReachedBy M G s'

/-- The states reached by any run. -/
def Reachable (M : Machine σ ℓ) : σ → Prop := ReachedBy M fun _ _ => True

variable {s s' : σ}

/-- The induction of a run: what holds at the start, and what a step that meets
the guard keeps, holds in every state reached. -/
theorem ReachedBy.inv (h : ReachedBy M G s) (hinit : ∀ s, M.init s → P s)
    (hstep : ∀ s l s', P s → G s l → M.step s l s' → P s') : P s := by
  induction h with
  | start hs => exact hinit _ hs
  | next _ hg hst ih => exact hstep _ _ _ ih hg hst

/-- A run meets every guard that its steps meet. -/
theorem ReachedBy.imp {G' : σ → ℓ → Prop} (h : ReachedBy M G s) (himp : ∀ s l, G s l → G' s l) :
    ReachedBy M G' s := by
  induction h with
  | start hs => exact .start hs
  | next _ hg hst ih => exact .next ih (himp _ _ hg) hst

theorem Reachable.inv (h : M.Reachable s) (hinit : ∀ s, M.init s → P s)
    (hstep : ∀ s l s', P s → M.step s l s' → P s') : P s :=
  ReachedBy.inv h hinit fun s l s' hp _ hst => hstep s l s' hp hst

theorem Reachable.step {l : ℓ} (h : M.Reachable s) (hst : M.step s l s') :
    M.Reachable s' := ReachedBy.next h trivial hst

theorem Reachable.of_init (h : M.init s) : M.Reachable s := ReachedBy.start h

/-- A machine whose step is a function: no result means that the step is not
enabled. -/
def ofFun (init : σ → Prop) (f : σ → ℓ → Option σ) : Machine σ ℓ where
  init := init
  step s l s' := f s l = some s'

/-- The state after a list of steps, if each of them is enabled. -/
def run (f : σ → ℓ → Option σ) : σ → List ℓ → Option σ
  | s, [] => some s
  | s, l :: ls => (f s l).bind fun s' => run f s' ls

variable {f : σ → ℓ → Option σ}

/-- What a listed run computes is reachable. -/
theorem reachable_run {init : σ → Prop} {ls : List ℓ}
    (h : (ofFun init f).Reachable s) (hr : run f s ls = some s') : (ofFun init f).Reachable s' := by
  induction ls generalizing s with
  | nil =>
    simp only [run, some.injEq] at hr
    exact hr ▸ h
  | cons l ls ih =>
    simp only [run, bind_eq_some_iff] at hr
    obtain ⟨t, ht, hrest⟩ := hr
    exact ih (h.step ht) hrest

/-- A listed run shows that a state with a property is reached. -/
theorem exists_reachable {init : σ → Prop} {Q : σ → Prop} [DecidablePred Q] (h : (ofFun init f).Reachable s)
    (ls : List ℓ) (hrun : (run f s ls).map (fun s => decide (Q s)) = some true) :
    ∃ s', (ofFun init f).Reachable s' ∧ Q s' := by
  obtain ⟨s', hs', hq⟩ := map_eq_some_iff.mp hrun
  exact ⟨s', reachable_run h hs', of_decide_eq_true hq⟩

/-- The state after a list of steps, if each of them is enabled and meets the
guard. -/
def runIf (f : σ → ℓ → Option σ) (g : σ → ℓ → Bool) : σ → List ℓ → Option σ
  | s, [] => some s
  | s, l :: ls => if g s l then (f s l).bind fun s' => runIf f g s' ls else none

theorem reachedBy_runIf {init : σ → Prop} {g : σ → ℓ → Bool}
    {ls : List ℓ} (h : (ofFun init f).ReachedBy (fun s l => g s l = true) s)
    (hr : runIf f g s ls = some s') : (ofFun init f).ReachedBy (fun s l => g s l = true) s' := by
  induction ls generalizing s with
  | nil =>
    simp only [runIf, some.injEq] at hr
    exact hr ▸ h
  | cons l ls ih =>
    simp only [runIf] at hr
    split at hr
    · rename_i hg
      obtain ⟨t, ht, hrest⟩ := bind_eq_some_iff.mp hr
      exact ih (.next h hg ht) hrest
    · cases hr

theorem exists_reachedBy {init : σ → Prop} {g : σ → ℓ → Bool} {Q : σ → Prop} [DecidablePred Q]
    (h : (ofFun init f).ReachedBy (fun s l => g s l = true) s) (ls : List ℓ)
    (hrun : (runIf f g s ls).map (fun s => decide (Q s)) = some true) :
    ∃ s', (ofFun init f).ReachedBy (fun s l => g s l = true) s' ∧ Q s' := by
  obtain ⟨s', hs', hq⟩ := map_eq_some_iff.mp hrun
  exact ⟨s', reachedBy_runIf h hs', of_decide_eq_true hq⟩

end Machine

end mini_kernel.lib
