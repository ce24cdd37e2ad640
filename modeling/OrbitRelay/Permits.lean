import Mathlib.Algebra.Order.Ring.Int
import Mathlib.Data.List.Count

/-!
# Owned permits

A semaphore hands each permit to a task, which gives it back when it is done with it,
however it ends. So the permits are with their owners or available, and no more tasks
own one than there are.
-/
namespace Permits

variable {τ : Type*} {owns : τ → Bool} {capacity available : Nat} {tasks before after : List τ} {a b : τ}

def Balanced (owns : τ → Bool) (capacity available : Nat) (tasks : List τ) : Prop :=
  available + tasks.countP owns = capacity

theorem Balanced.start : Balanced owns capacity capacity [] := rfl

theorem Balanced.owners_le (h : Balanced owns capacity available tasks) : tasks.countP owns ≤ capacity := by
  unfold Balanced at h
  omega

theorem Balanced.exhausted_iff (h : Balanced owns capacity available tasks) :
    available = 0 ↔ tasks.countP owns = capacity := by
  unfold Balanced at h
  omega

/-- A task that is started with a permit. -/
theorem Balanced.spawn (h : Balanced owns capacity (available + 1) tasks) (ha : owns a = true) :
    Balanced owns capacity available (tasks ++ [a]) := by
  unfold Balanced at h ⊢
  rw [List.countP_append, List.countP_singleton, if_pos ha]
  omega

theorem countP_moved (owns : τ → Bool) (before after : List τ) (a : τ) :
    (before ++ a :: after).countP owns = (before ++ after).countP owns + if owns a = true then 1 else 0 := by
  rw [List.countP_append, List.countP_append, List.countP_cons]
  omega

theorem Balanced.keep (h : Balanced owns capacity available (before ++ a :: after)) (hb : owns b = owns a) :
    Balanced owns capacity available (before ++ b :: after) := by
  unfold Balanced at h ⊢
  rw [countP_moved] at h ⊢
  rw [hb]
  exact h

theorem Balanced.acquire (h : Balanced owns capacity (available + 1) (before ++ a :: after)) (ha : owns a = false)
    (hb : owns b = true) : Balanced owns capacity available (before ++ b :: after) := by
  unfold Balanced at h ⊢
  rw [countP_moved, ha] at h
  rw [countP_moved, hb]
  simp only [reduceCtorEq, if_false, if_true] at h ⊢
  omega

theorem Balanced.release (h : Balanced owns capacity available (before ++ a :: after)) (ha : owns a = true)
    (hb : owns b = false) : Balanced owns capacity (available + 1) (before ++ b :: after) := by
  unfold Balanced at h ⊢
  rw [countP_moved, ha] at h
  rw [countP_moved, hb]
  simp only [reduceCtorEq, if_false, if_true] at h ⊢
  omega

/-- A task that owns no permit is forgotten. -/
theorem Balanced.remove (h : Balanced owns capacity available (before ++ a :: after)) (ha : owns a = false) :
    Balanced owns capacity available (before ++ after) := by
  unfold Balanced at h ⊢
  rw [countP_moved, ha] at h
  exact h

end Permits
