import Mathlib.Logic.Function.Basic
import Mathlib.Logic.Relation
import Mathlib.Order.RelClasses

/-!
# Runs of a transition system

A system is a set of starting states and a step relation. Everything proved
about it is proved once for a step and then carried along a finite run; the
rules below are the only inductions over runs that the other modules use.
-/
namespace Transition

structure System (σ : Type*) where
  init : σ → Prop
  step : σ → σ → Prop

variable {σ : Type*} (S : System σ)

/-- A finite, possibly empty run. -/
abbrev System.Run : σ → σ → Prop := Relation.ReflTransGen S.step

def System.Reachable (s : σ) : Prop := ∃ s₀, S.init s₀ ∧ S.Run s₀ s

variable {S}

theorem System.Reachable.start {s : σ} (h : S.init s) : S.Reachable s := ⟨s, h, .refl⟩

theorem System.Reachable.next {s t : σ} (h : S.Reachable s) (hst : S.step s t) :
    S.Reachable t := by
  obtain ⟨s₀, h₀, hr⟩ := h
  exact ⟨s₀, h₀, hr.tail hst⟩

theorem System.Reachable.run {s t : σ} (h : S.Reachable s) (hst : S.Run s t) :
    S.Reachable t := by
  obtain ⟨s₀, h₀, hr⟩ := h
  exact ⟨s₀, h₀, hr.trans hst⟩

/-- What holds at the start and survives every step holds along every run. -/
theorem System.invariant {P : σ → Prop} (start : ∀ s, S.init s → P s)
    (step : ∀ s t, P s → S.step s t → P t) {s : σ} (h : S.Reachable s) : P s := by
  obtain ⟨s₀, h₀, hr⟩ := h
  induction hr with
  | refl => exact start s₀ h₀
  | tail _ hst ih => exact step _ _ ih hst

/-- A property that survives every step survives every run from a state that has it. -/
theorem System.preserved {P : σ → Prop} (step : ∀ s t, P s → S.step s t → P t)
    {s t : σ} (hs : P s) (h : S.Run s t) : P t := by
  induction h with
  | refl => exact hs
  | tail _ hst ih => exact step _ _ ih hst

/-- A reflexive, transitive relation that contains every step from a state with
the invariant contains every run from one. -/
theorem System.run_related {P : σ → Prop} {R : σ → σ → Prop}
    (inv : ∀ s t, P s → S.step s t → P t) (refl : ∀ s, R s s)
    (trans : ∀ s t u, R s t → R t u → R s u)
    (step : ∀ s t, P s → S.step s t → R s t) {s t : σ} (hs : P s) (h : S.Run s t) : R s t := by
  induction h with
  | refl => exact refl s
  | tail hr hst ih => exact trans _ _ _ ih (step _ _ (System.preserved inv hs hr) hst)

/-! ## Families of parties, one of which moves -/

section Family

variable {ι α : Type*} [DecidableEq ι] {f g : ι → Option α} {i : ι} {a : α}

/-- What holds of the party that moved, and of the others as they were, holds of all. -/
theorem forall_moved {P : ι → α → Prop} (hg : g = Function.update f i (some a)) (hnew : P i a)
    (hold : ∀ j b, j ≠ i → f j = some b → P j b) : ∀ j b, g j = some b → P j b := by
  subst hg
  refine (Function.forall_update_iff f (fun j x => ∀ b, x = some b → P j b)).mpr ⟨?_, ?_⟩
  · intro b hb
    cases hb
    exact hnew
  · intro j hj b hb
    exact hold j b hj hb

/-- So does a relation between different parties. -/
theorem pairwise_moved {R : α → α → Prop} (hg : g = Function.update f i (some a))
    (hsymm : ∀ x y, R x y → R y x) (hnew : ∀ j b, j ≠ i → f j = some b → R a b)
    (hold : ∀ j k x y, f j = some x → f k = some y → j ≠ k → R x y) :
    ∀ j k x y, g j = some x → g k = some y → j ≠ k → R x y := by
  intro j k x y hx hy
  revert k y
  refine forall_moved (P := fun j x => ∀ k y, g k = some y → j ≠ k → R x y) hg ?_ ?_ j x hx
  · refine forall_moved hg (absurd rfl) ?_
    intro k y hk hy _
    exact hnew k y hk hy
  · intro j x hj hx
    refine forall_moved hg ?_ ?_
    · intro _
      exact hsymm a x (hnew j x hj hx)
    · intro k y _ hy hjk
      exact hold j k x y hx hy hjk

end Family

/-! ## Infinite executions -/

variable (S) in
/-- An infinite execution, in which a state may also be repeated. -/
def System.Execution (f : Nat → σ) : Prop := ∀ n, f (n + 1) = f n ∨ S.step (f n) (f (n + 1))

/-- Weak fairness: again and again `R` is taken or cannot be taken. -/
def Fair (R : σ → σ → Prop) (f : Nat → σ) : Prop :=
  ∀ n, ∃ m, n ≤ m ∧ (R (f m) (f (m + 1)) ∨ ∀ t, ¬ R (f m) t)

theorem System.Execution.always {P : σ → Prop} {f : Nat → σ} (hf : S.Execution f)
    (step : ∀ s t, P s → S.step s t → P t) (start : P (f 0)) (n : Nat) : P (f n) := by
  induction n with
  | zero => exact start
  | succ n ih =>
    obtain heq | hst := hf n
    · rw [heq]
      exact ih
    · exact step _ _ ih hst

/-- While the goal is not reached, `R` can be taken and brings it nearer, and no
other step moves it away. -/
theorem System.Execution.eventually {α : Type*} [Preorder α] [WellFoundedLT α] {R : σ → σ → Prop}
    {P goal : σ → Prop} (μ : σ → α) {f : Nat → σ} (hf : S.Execution f) (hfair : Fair R f)
    (inv : ∀ s t, P s → S.step s t → P t)
    (enabled : ∀ s, P s → ¬ goal s → ∃ t, R s t)
    (keep : ∀ s t, P s → ¬ goal s → S.step s t → μ t ≤ μ s)
    (closer : ∀ s t, P s → ¬ goal s → R s t → μ t < μ s)
    (start : P (f 0)) : ∃ n, goal (f n) := by
  refine Classical.byContradiction fun hnever => ?_
  have hgoal : ∀ n, ¬ goal (f n) := fun n hn => hnever ⟨n, hn⟩
  have hP : ∀ n, P (f n) := hf.always inv start
  have hkeep : ∀ n k, μ (f (n + k)) ≤ μ (f n) := by
    intro n k
    induction k with
    | zero => exact le_refl _
    | succ k ih =>
      obtain heq | hst := hf (n + k)
      · show μ (f (n + k + 1)) ≤ _
        rw [heq]
        exact ih
      · exact le_trans (keep _ _ (hP _) (hgoal _) hst) ih
  have hfalls : ∀ a n, μ (f n) ≠ a := by
    intro a
    induction a using WellFoundedLT.induction with
    | ind a ih =>
      rintro n rfl
      obtain ⟨m, hm, hR | hstuck⟩ := hfair n
      · obtain ⟨d, rfl⟩ := Nat.exists_eq_add_of_le hm
        have hstep := closer _ _ (hP _) (hgoal _) hR
        exact ih _ (lt_of_lt_of_le hstep (hkeep n d)) _ rfl
      · obtain ⟨t, ht⟩ := enabled _ (hP m) (hgoal m)
        exact absurd ht (hstuck t)
  exact hfalls _ 0 rfl

end Transition
