import OrbitRelay.Transition
import Mathlib.Data.List.Nodup

/-!
# Linearizable histories

An operation on a shared object takes effect at one moment between its call and its
return, or it is refused and never does. A run is linearizable when the effects, in
some order, are a run of the sequential object, and no operation that was called
after another had returned comes before it.
-/
namespace Linearization

open Transition

variable {σ α β ι Op Res : Type*}

/-- An operation as its caller sees it. -/
inductive Progress (Op Res : Type*) where
  | idle
  | pending (op : Op)
  | returned (op : Op) (result : Res)
  | refused (op : Op)

structure Effect (ι Op Res : Type*) where
  id : ι
  op : Op
  result : Res

/-- From `a`, the object answers the operations in this order with these results and ends in `b`. -/
def Legal (object : α → Op → Res → α → Prop) : α → List (Effect ι Op Res) → α → Prop
  | a, [], b => a = b
  | a, e :: order, b => ∃ a', object a e.op e.result a' ∧ Legal object a' order b

/-- A sequential object that simulates another one answers every order as that one does. -/
theorem Legal.refine {object : α → Op → Res → α → Prop} {spec : β → Op → Res → β → Prop} {R : α → β → Prop}
    (h : ∀ a b op r a', R a b → object a op r a' → ∃ b', spec b op r b' ∧ R a' b') {a a' : α} {b : β}
    {order : List (Effect ι Op Res)} (hab : R a b) (hlegal : Legal object a order a') :
    ∃ b', Legal spec b order b' ∧ R a' b' := by
  induction order generalizing a b with
  | nil =>
    cases hlegal
    exact ⟨b, rfl, hab⟩
  | cons e order ih =>
    obtain ⟨a₁, he, hlegal⟩ := hlegal
    obtain ⟨b₁, hb₁, hab₁⟩ := h a b _ _ a₁ hab he
    obtain ⟨b', hb', hab'⟩ := ih hab₁ hlegal
    exact ⟨b', ⟨b₁, hb₁, hb'⟩, hab'⟩

/-- What a log of effects knows about the operations: each is in it once, every
operation that has returned is, and nothing is that was not called or was refused. -/
structure Logged (view : ι → Progress Op Res) (log : List (Effect ι Op Res)) : Prop where
  once : (log.map Effect.id).Nodup
  returned : ∀ i op r, view i = .returned op r → ⟨i, op, r⟩ ∈ log
  called : ∀ e ∈ log, view e.id = .pending e.op ∨ view e.id = .returned e.op e.result

/-- The run from `s` to `t` is linearized by `order`, from `a` to `b`. -/
structure Linearizes (S : System σ) (view : σ → ι → Progress Op Res) (object : α → Op → Res → α → Prop)
    (s t : σ) (a : α) (order : List (Effect ι Op Res)) (b : α) : Prop where
  legal : Legal object a order b
  logged : Logged (view t) order
  /-- At every moment `u` the order divides: what has returned by then is before,
  what is called later is not. -/
  realTime : ∀ u, S.Run s u → S.Run u t → ∃ before later, order = before ++ later ∧
    (∀ i op r, view u i = .returned op r → ⟨i, op, r⟩ ∈ before) ∧ ∀ e ∈ before, view u e.id ≠ .idle

/-- An object that keeps a log of its effects, and only ever adds to it, is linearized by it. -/
theorem Linearizes.of_log {S : System σ} {view : σ → ι → Progress Op Res} {object : α → Op → Res → α → Prop}
    {log : σ → List (Effect ι Op Res)} {P : σ → Prop} (inv : ∀ s t, P s → S.step s t → P t)
    (logged : ∀ s, P s → Logged (view s) (log s))
    (grows : ∀ s t, P s → S.step s t → log s <+: log t) {s t : σ} (hs : P s) (hrun : S.Run s t) {a b : α}
    (hlegal : Legal object a (log t) b) : Linearizes S view object s t a (log t) b where
  legal := hlegal
  logged := logged t (S.preserved inv hs hrun)
  realTime := by
    intro u hu hut
    have hPu : P u := S.preserved inv hs hu
    obtain ⟨later, hlater⟩ := S.run_related (R := fun s t => log s <+: log t) inv (fun _ => List.prefix_refl _)
      (fun _ _ _ => List.IsPrefix.trans) grows hPu hut
    refine ⟨log u, later, hlater.symm, (logged u hPu).returned, ?_⟩
    intro e he hidle
    obtain hpending | hreturned := (logged u hPu).called e he
    · rw [hidle] at hpending
      cases hpending
    · rw [hidle] at hreturned
      cases hreturned

theorem Linearizes.refine {S : System σ} {view : σ → ι → Progress Op Res} {object : α → Op → Res → α → Prop}
    {spec : β → Op → Res → β → Prop} {R : α → β → Prop}
    (h : ∀ a b op r a', R a b → object a op r a' → ∃ b', spec b op r b' ∧ R a' b') {s t : σ} {a a' : α} {b : β}
    {order : List (Effect ι Op Res)} (hab : R a b) (hlin : Linearizes S view object s t a order a') :
    ∃ b', Linearizes S view spec s t b order b' ∧ R a' b' := by
  obtain ⟨b', hb', hab'⟩ := hlin.legal.refine h hab
  exact ⟨b', ⟨hb', hlin.logged, hlin.realTime⟩, hab'⟩

end Linearization
