import Mathlib.Logic.Basic

/-!
# Fallible actions

An action may fail after it has changed the state: it returns an error together with
the state it leaves. Actions are put in sequence, the first error ends the sequence.
A triple states what holds of the state after success and what after a failure.
-/
namespace Fallible

variable {ε σ : Type}

abbrev Action (ε σ : Type) := σ → Except ε Unit × σ

def Action.skip : Action ε σ := fun s => (.ok (), s)

def Action.andThen (first next : Action ε σ) : Action ε σ := fun s =>
  match first s with
  | (.error e, t) => (.error e, t)
  | (.ok (), t) => next t

def Action.onlyIf (guard : σ → Bool) (action : Action ε σ) : Action ε σ := fun s =>
  if guard s = true then action s else (.ok (), s)

theorem Action.andThen_failed {first next : Action ε σ} {s t : σ} {e : ε}
    (h : first.andThen next s = (.error e, t)) :
    first s = (.error e, t) ∨ ∃ u, first s = (.ok (), u) ∧ next u = (.error e, t) := by
  unfold Action.andThen at h
  cases hfirst : first s with
  | mk result u =>
    rw [hfirst] at h
    cases result with
    | error e' => exact .inl h
    | ok _ => exact .inr ⟨u, rfl, h⟩

/-- From a state with `P`, a success leaves `Q` and a failure leaves `E`. -/
def Ensures (P : σ → Prop) (action : Action ε σ) (Q E : σ → Prop) : Prop :=
  ∀ s, P s → ((action s).1 = .ok () → Q (action s).2) ∧ ∀ e, (action s).1 = .error e → E (action s).2

variable {P P' Q Q' R E E' : σ → Prop} {first next action : Action ε σ}

theorem Ensures.andThen (h : Ensures P first R E) (h' : Ensures R next Q E) :
    Ensures P (first.andThen next) Q E := by
  intro s hs
  obtain ⟨hok, herror⟩ := h s hs
  unfold Action.andThen
  cases hfirst : first s with
  | mk result t =>
    rw [hfirst] at hok herror
    cases result with
    | error e => exact ⟨nofun, fun e' _ => herror e rfl⟩
    | ok _ => exact h' t (hok rfl)

theorem Ensures.onlyIf {guard : σ → Bool} (h : Ensures (fun s => P s ∧ guard s = true) action Q E)
    (hskip : ∀ s, P s → guard s = false → Q s) : Ensures P (action.onlyIf guard) Q E := by
  intro s hs
  unfold Action.onlyIf
  cases hguard : guard s with
  | true => exact h s ⟨hs, hguard⟩
  | false => exact ⟨fun _ => hskip s hs hguard, nofun⟩

theorem Ensures.weaken (h : Ensures P action Q E) (hP : ∀ s, P' s → P s) (hQ : ∀ s, Q s → Q' s)
    (hE : ∀ s, E s → E' s) : Ensures P' action Q' E' := by
  intro s hs
  obtain ⟨hok, herror⟩ := h s (hP s hs)
  exact ⟨fun hr => hQ _ (hok hr), fun e hr => hE _ (herror e hr)⟩

/-- What holds whether the action succeeds or fails. -/
theorem Ensures.after (h : Ensures P action Q Q) {s : σ} (hs : P s) : Q (action s).2 := by
  obtain ⟨hok, herror⟩ := h s hs
  cases hr : (action s).1 with
  | error e => exact herror e hr
  | ok _ => exact hok hr

end Fallible
