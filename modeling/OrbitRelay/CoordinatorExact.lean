import OrbitRelay.Coordinator
import OrbitRelay.Sharing
import OrbitRelay.WeakMap

/-!
# The coordinator's registry is exact

The strong count of an entry is the number of tasks that hold it, each lock has
one owner, and the map of weak references stays exact. So the tasks of a scope all
meet at one async mutex, and a key outlives neither its entry nor the destructor.
-/
namespace OrbitRelay.Coordinator

open Transition Sharing

variable {Scope : Type}

/-- The task is an `acquire` that has its entry and no lease yet. -/
def Task.waitsFor (k : Nat) : Task Scope → Prop
  | .found k' => k' = k
  | .waiting k' => k' = k
  | _ => False

/-- The task has a reference to drop, or a `KeyedMutex::drop` to finish. The
temporary reference of `prune_stale` is one to drop. -/
def Task.drops (k : Nat) : Task Scope → Prop
  | .released k' => k' = k
  | .upgraded _ k' => k' = k
  | .dropping k' _ => k' = k
  | .requesting k' _ => k' = k
  | .removing k' _ => k' = k
  | _ => False

theorem Task.holds_cases {a : Task Scope} {k : Nat} (h : a.holds = some k) :
    a = .leased k ∨ a.waitsFor k ∨ a.drops k := by
  cases a with
  | leased k' =>
    cases h
    exact .inl rfl
  | found k' => exact .inr (.inl (Option.some.inj h))
  | waiting k' => exact .inr (.inl (Option.some.inj h))
  | released k' => exact .inr (.inr (Option.some.inj h))
  | upgraded f k' => exact .inr (.inr (Option.some.inj h))
  | idle | called _ | pruning _ | pruned _ | looking _ | dropping _ _ | requesting _ _ | removing _ _
  | counting | counted _ | done => cases h

theorem Task.drops_of_destroys {a : Task Scope} {k : Nat} (h : a.destroys = some k) : a.drops k := by
  cases a with
  | dropping k' inside => exact Option.some.inj h
  | requesting k' inside => exact Option.some.inj h
  | removing k' inside => exact Option.some.inj h
  | leased _ | found _ | waiting _ | released _ | upgraded _ _ | idle | called _ | pruning _ | pruned _
  | looking _ | counting | counted _ | done => cases h

variable {s t : State Scope}

theorem pos_gain (k k' : Nat) (hk : 0 < s.strong k) :
    0 < Function.update s.strong k (s.strong k + 1) k' ↔ 0 < s.strong k' :=
  WeakMap.pos_update (by omega) hk k'

theorem pos_lose (k k' : Nat) (hk : 1 < s.strong k) :
    0 < Function.update s.strong k (s.strong k - 1) k' ↔ 0 < s.strong k' :=
  WeakMap.pos_update (by omega) (by omega) k'

variable [DecidableEq Scope]

structure Invariant (s : State Scope) : Prop where
  counted : Counted Task.holds s.task s.strong
  locked : Exclusive Task.owns s.task s.lock
  guarded : ∀ k, Exclusive (fun a => a = .leased k) s.task (s.guard k)
  borrowed : ∀ i, (s.task i).borrows → s.alive = true
  outside : ∀ i k f, s.task i ≠ .removing k (some f)
  exact : WeakMap.Exact s.alive s.entries s.scope s.strong (Held Task.destroys s.task)

theorem Invariant.start : Invariant (State.new Scope) where
  counted := .start fun _ => rfl
  locked := fun i => ⟨nofun, fun h => h.elim⟩
  guarded := fun k i => ⟨nofun, nofun⟩
  borrowed := fun i h => h.elim
  outside := fun i k f => nofun
  exact := by
    refine WeakMap.Exact.start.congr (fun _ => Iff.rfl) ?_
    intro k
    refine ⟨?_, False.elim⟩
    rintro ⟨i, hi⟩
    cases hi

/-- One task moves while the coordinator stays. -/
theorem Invariant.move (h : Invariant s) {i : Nat} {b : Task Scope} (ht : t.task = Function.update s.task i b)
    (halive : t.alive = s.alive) (hborrows : b.borrows → s.alive = true)
    (houtside : ∀ k f, b ≠ .removing k (some f)) (hcounted : Counted Task.holds t.task t.strong)
    (hlocked : Exclusive Task.owns t.task t.lock)
    (hguarded : ∀ k, Exclusive (fun a => a = .leased k) t.task (t.guard k))
    (hexact : WeakMap.Exact t.alive t.entries t.scope t.strong (Held Task.destroys t.task)) :
    Invariant t where
  counted := hcounted
  locked := hlocked
  guarded := hguarded
  borrowed := by
    intro j hj
    rw [halive]
    rw [ht] at hj
    by_cases hji : j = i
    · rw [hji, Function.update_self] at hj
      exact hborrows hj
    · rw [Function.update_of_ne hji] at hj
      exact h.borrowed j hj
  outside := by
    intro j k f
    rw [ht]
    by_cases hji : j = i
    · rw [hji, Function.update_self]
      exact houtside k f
    · rw [Function.update_of_ne hji]
      exact h.outside j k f
  exact := hexact

/-- No lease comes or goes. -/
theorem Invariant.guarded_keep (h : Invariant s) {i : Nat} {b : Task Scope} (ha : ∀ k, s.task i ≠ .leased k)
    (hb : ∀ k, b ≠ .leased k) (k : Nat) :
    Exclusive (fun a => a = .leased k) (Function.update s.task i b) (s.guard k) :=
  (h.guarded k).keep ⟨fun heq => absurd heq (hb k), fun heq => absurd heq (ha k)⟩

/-- No destructor begins or ends. -/
theorem Invariant.exact_keep (h : Invariant s) {i : Nat} {b : Task Scope} {strong : Nat → Nat}
    (hdestroys : b.destroys = (s.task i).destroys) (hstrong : ∀ k, 0 < strong k ↔ 0 < s.strong k) :
    WeakMap.Exact s.alive s.entries s.scope strong (Held Task.destroys (Function.update s.task i b)) :=
  h.exact.congr hstrong fun _ => held_keep hdestroys

theorem Invariant.exact_last (h : Invariant s) {i k : Nat} {b : Task Scope}
    (ha : (s.task i).destroys = none) (hb : b.destroys = some k) (hlast : s.strong k = 1) :
    WeakMap.Exact s.alive s.entries s.scope (Function.update s.strong k (s.strong k - 1))
      (Held Task.destroys (Function.update s.task i b)) := by
  rw [hlast]
  exact h.exact.last (by omega) fun _ => held_gain ha hb

/-- A destructor that has reached the map runs outside every other locked section. -/
theorem Invariant.removing_outside (h : Invariant s) {i k : Nat} {inside : Option (Pruning Scope)}
    (hi : s.task i = .removing k inside) : inside = none := by
  cases inside with
  | none => rfl
  | some f => exact absurd hi (h.outside i k f)

theorem Invariant.lockMutex (h : Invariant s) {i k : Nat} (hi : s.task i = .waiting k)
    (hfree : s.guard k = none) :
    Invariant { s.move i (.leased k) with guard := Function.update s.guard k (some i) } := by
  refine h.move rfl rfl (fun hb => hb.elim) (fun _ _ => nofun) (h.counted.keep (by rw [hi]; rfl))
    (h.locked.keep (by rw [hi]; exact Iff.rfl)) ?_ (h.exact_keep (by rw [hi]; rfl) fun _ => Iff.rfl)
  intro k'
  show Exclusive _ (Function.update s.task i (.leased k)) (Function.update s.guard k (some i) k')
  by_cases hk : k' = k
  · rw [hk, Function.update_self]
    exact (hfree ▸ h.guarded k).take rfl
  · rw [Function.update_of_ne hk]
    refine (h.guarded k').keep ⟨fun heq => ?_, fun heq => ?_⟩
    · cases heq
      exact absurd rfl hk
    · rw [hi] at heq
      cases heq

theorem Invariant.dropGuard (h : Invariant s) {i k : Nat} (hi : s.task i = .leased k) :
    Invariant { s.move i (.released k) with guard := Function.update s.guard k none } := by
  refine h.move rfl rfl (fun hb => hb.elim) (fun _ _ => nofun) (h.counted.keep (by rw [hi]; rfl))
    (h.locked.keep (by rw [hi]; exact Iff.rfl)) ?_ (h.exact_keep (by rw [hi]; rfl) fun _ => Iff.rfl)
  intro k'
  show Exclusive _ (Function.update s.task i (.released k)) (Function.update s.guard k none k')
  by_cases hk : k' = k
  · rw [hk, Function.update_self]
    exact (h.guarded k).free hi nofun
  · rw [Function.update_of_ne hk]
    refine (h.guarded k').keep ⟨nofun, fun heq => ?_⟩
    rw [hi] at heq
    cases heq
    exact absurd rfl hk

theorem Invariant.lookupInsert (h : Invariant s) {i k : Nat} {x : Scope} (hi : s.task i = .looking x)
    (hstale : ∀ k', s.entries.lookup x = some k' → s.strong k' = 0) (hnew : s.scope k = none) :
    Invariant { s.move i (.found k) with
      entries := s.entries.insert x k
      scope := Function.update s.scope k (some x)
      strong := Function.update s.strong k 1 } := by
  have halive : s.alive = true := h.borrowed i (by rw [hi]; trivial)
  have hzero : s.strong k = 0 := by
    refine Nat.eq_zero_of_not_pos fun hpos => ?_
    obtain ⟨y, hy⟩ := h.exact.keyed k hpos
    cases hnew.symm.trans hy
  have hcounted : Counted Task.holds (Function.update s.task i (.found k)) (Function.update s.strong k 1) := by
    have := h.counted.gain (i := i) (b := .found k) (k := k) (by rw [hi]; rfl) rfl
    rw [hzero] at this
    exact this
  refine h.move rfl rfl (fun _ => halive) (fun _ _ => nofun) hcounted
    (h.locked.keep (by rw [hi]; exact Iff.rfl)) (h.guarded_keep (by rw [hi]; exact fun _ => nofun)
      (fun _ => nofun)) ?_
  exact (h.exact.insert halive hstale hnew).congr (fun _ => Iff.rfl) fun _ =>
    held_keep (by rw [hi]; rfl)

/-- `KeyedMutex::drop` leaves a map without its own entry, and nothing else changes. -/
theorem Invariant.finish (h : Invariant s) {i k : Nat} {inside : Option (Pruning Scope)}
    (hi : s.task i = .removing k inside) {entries : AList (fun _ : Scope => Nat)}
    (hentries : ∀ y k', entries.lookup y = some k' ↔ s.entries.lookup y = some k' ∧ k' ≠ k)
    (hempty : s.entries = ∅ → entries = ∅) :
    Invariant { s.move i (.resume inside) with entries := entries, lock := none } := by
  cases h.removing_outside hi
  have hdestroys : (s.task i).destroys = some k := by rw [hi]; rfl
  refine h.move rfl rfl (fun hb => hb.elim) (fun _ _ => nofun) (h.counted.keep (by rw [hi]; rfl))
    (h.locked.free (by rw [hi]; trivial) (fun hb => hb)) (h.guarded_keep (by rw [hi]; exact fun _ => nofun)
      (fun _ => nofun)) ?_
  exact h.exact.finish ⟨i, hdestroys⟩ hentries hempty (fun _ hk => held_of_lose rfl hk)
    fun _ hne hk => held_lose_of_ne hdestroys hne hk

/-- A move that keeps the task's references, whatever it does to the entries mutex. -/
theorem Invariant.pass (h : Invariant s) {i : Nat} {a : Task Scope} (hi : s.task i = a) (b : Task Scope)
    (ha : ∀ k, a ≠ .leased k) (hb : ∀ k, b ≠ .leased k) (hborrows : b.borrows → s.alive = true)
    (houtside : ∀ k f, b ≠ .removing k (some f)) (hholds : b.holds = a.holds)
    (hdestroys : b.destroys = a.destroys) {lock : Option Nat}
    (hlocked : Exclusive Task.owns (Function.update s.task i b) lock) :
    Invariant { s.move i b with lock := lock } :=
  h.move rfl rfl hborrows houtside (h.counted.keep (hi ▸ hholds)) hlocked
    (h.guarded_keep (hi ▸ ha) hb) (h.exact_keep (hi ▸ hdestroys) fun _ => Iff.rfl)

theorem Invariant.upgrade (h : Invariant s) {i k : Nat} {a : Task Scope} (hi : s.task i = a) (b : Task Scope)
    (ha : a.holds = none ∧ a.destroys = none ∧ a.owns ∧ a.borrows ∧ ∀ k, a ≠ .leased k)
    (hb : b.holds = some k ∧ b.destroys = none ∧ b.owns ∧ (∀ k, b ≠ .leased k) ∧
      ∀ k f, b ≠ .removing k (some f)) (hk : 0 < s.strong k) :
    Invariant { s.move i b with strong := Function.update s.strong k (s.strong k + 1) } := by
  subst hi
  exact h.move rfl rfl (fun _ => h.borrowed i ha.2.2.2.1) hb.2.2.2.2 (h.counted.gain ha.1 hb.1)
    (h.locked.keep ⟨fun _ => ha.2.2.1, fun _ => hb.2.2.1⟩) (h.guarded_keep ha.2.2.2.2 hb.2.2.2.1)
    (h.exact_keep (hb.2.1.trans ha.2.1.symm) (pos_gain k · hk))

theorem Invariant.release (h : Invariant s) {i k : Nat} {a : Task Scope} (hi : s.task i = a) (b : Task Scope)
    (ha : a.holds = some k ∧ a.destroys = none ∧ ∀ k, a ≠ .leased k)
    (hb : b.holds = none ∧ b.destroys = none ∧ (∀ k, b ≠ .leased k) ∧ ∀ k f, b ≠ .removing k (some f))
    (howns : b.owns ↔ a.owns) (hborrows : b.borrows → a.borrows) (hk : 1 < s.strong k) :
    Invariant { s.move i b with strong := Function.update s.strong k (s.strong k - 1) } := by
  subst hi
  exact h.move rfl rfl (fun hbb => h.borrowed i (hborrows hbb)) hb.2.2.2 (h.counted.lose ha.1 hb.1)
    (h.locked.keep howns) (h.guarded_keep ha.2.2 hb.2.2.1)
    (h.exact_keep (hb.2.1.trans ha.2.1.symm) (pos_lose k · hk))

theorem Invariant.releaseLast (h : Invariant s) {i k : Nat} {a : Task Scope}
    {inside : Option (Pruning Scope)} (hi : s.task i = a)
    (ha : a.holds = some k ∧ a.destroys = none ∧ ∀ k, a ≠ .leased k)
    (howns : (Task.dropping k inside).owns ↔ a.owns)
    (hborrows : (Task.dropping k inside).borrows → a.borrows) (hk : s.strong k = 1) :
    Invariant { s.move i (.dropping k inside) with
      strong := Function.update s.strong k (s.strong k - 1) } := by
  subst hi
  exact h.move rfl rfl (fun hbb => h.borrowed i (hborrows hbb)) (fun _ _ => nofun)
    (h.counted.lose ha.1 rfl) (h.locked.keep howns) (h.guarded_keep ha.2.2 fun _ => nofun)
    (h.exact_last ha.2.1 rfl hk)

theorem Invariant.step (h : Invariant s) (hst : Step s t) : Invariant t := by
  cases hst with
  | call i p hi halive =>
    exact h.pass hi (.called p) (fun _ => nofun) (fun _ => nofun) (fun _ => halive) (fun _ _ => nofun) rfl rfl
      (h.locked.keep (by rw [hi]; exact Iff.rfl))
  | @lockPrune i p rest hi hfree _ =>
    exact h.pass hi (.pruning ⟨p, rest⟩) (fun _ => nofun) (fun _ => nofun) (fun _ => h.borrowed i (by rw [hi]; trivial))
      (fun _ _ => nofun) rfl rfl ((hfree ▸ h.locked).take trivial)
  | @pruneStale i p x rest k hi hx hk =>
    refine h.move rfl rfl (fun _ => h.borrowed i (by rw [hi]; trivial)) (fun _ _ => nofun)
      (h.counted.keep (by rw [hi]; rfl)) (h.locked.keep (by rw [hi]; exact Iff.rfl))
      (h.guarded_keep (by rw [hi]; exact fun _ => nofun) fun _ => nofun) ?_
    exact (h.exact.sweep hx hk).congr (fun _ => Iff.rfl) fun _ => held_keep (by rw [hi]; rfl)
  | @pruneUpgrade i p x rest k hi _ hk =>
    exact h.upgrade hi (.upgraded ⟨p, rest⟩ k) ⟨rfl, rfl, trivial, trivial, fun _ => nofun⟩
      ⟨rfl, rfl, trivial, fun _ => nofun, fun _ _ => nofun⟩ hk
  | @pruneRelease i f k hi hk =>
    exact h.release hi (.pruning f) ⟨rfl, rfl, fun _ => nofun⟩ ⟨rfl, rfl, fun _ => nofun, fun _ _ => nofun⟩ Iff.rfl id hk
  | pruneReleaseLast i hi hk =>
    exact h.releaseLast hi ⟨rfl, rfl, fun _ => nofun⟩ Iff.rfl id hk
  | @unlockPrune i p hi =>
    exact h.pass hi (.pruned p) (fun _ => nofun) (fun _ => nofun) (fun _ => h.borrowed i (by rw [hi]; trivial))
      (fun _ _ => nofun) rfl rfl (h.locked.free (by rw [hi]; trivial) id)
  | @lockAcquire i x hi hfree =>
    exact h.pass hi (.looking x) (fun _ => nofun) (fun _ => nofun) (fun _ => h.borrowed i (by rw [hi]; trivial))
      (fun _ _ => nofun) rfl rfl ((hfree ▸ h.locked).take trivial)
  | @lookupUpgrade i x k hi _ hk =>
    exact h.upgrade hi (.found k) ⟨rfl, rfl, trivial, trivial, fun _ => nofun⟩
      ⟨rfl, rfl, trivial, fun _ => nofun, fun _ _ => nofun⟩ hk
  | lookupInsert i k hi hstale hnew => exact h.lookupInsert hi hstale hnew
  | @unlockAcquire i k hi =>
    exact h.pass hi (.waiting k) (fun _ => nofun) (fun _ => nofun) (fun _ => h.borrowed i (by rw [hi]; trivial))
      (fun _ _ => nofun) rfl rfl (h.locked.free (by rw [hi]; trivial) id)
  | lockMutex i hi hfree => exact h.lockMutex hi hfree
  | @cancel i k hi =>
    exact h.pass hi (.released k) (fun _ => nofun) (fun _ => nofun) (fun hb => hb.elim) (fun _ _ => nofun) rfl rfl
      (h.locked.keep (by rw [hi]; exact Iff.rfl))
  | dropGuard i hi => exact h.dropGuard hi
  | dropEntry i hi hk =>
    exact h.release hi .done ⟨rfl, rfl, fun _ => nofun⟩ ⟨rfl, rfl, fun _ => nofun, fun _ _ => nofun⟩ Iff.rfl id hk
  | dropEntryLast i hi hk =>
    exact h.releaseLast hi ⟨rfl, rfl, fun _ => nofun⟩ Iff.rfl id hk
  | @upgradeCoordinator i k inside hi halive =>
    refine h.pass hi (.requesting k inside) (fun _ => nofun) (fun _ => nofun) (fun _ => halive) (fun _ _ => nofun) rfl rfl
      (h.locked.keep ?_)
    rw [hi]
    cases inside <;> exact Iff.rfl
  | @coordinatorGone i k inside hi hgone =>
    cases inside with
    | some f => exact absurd ((h.borrowed i (by rw [hi]; trivial)).symm.trans hgone) Bool.noConfusion
    | none =>
      have hdestroys : (s.task i).destroys = some k := by rw [hi]; rfl
      refine h.move rfl rfl (fun hb => hb.elim) (fun _ _ => nofun) (h.counted.keep (by rw [hi]; rfl))
        (h.locked.keep (by rw [hi]; exact Iff.rfl))
        (h.guarded_keep (by rw [hi]; exact fun _ => nofun) fun _ => nofun) ?_
      refine h.exact.finish ⟨i, hdestroys⟩ ?_ id (fun _ hk => held_of_lose rfl hk)
        fun _ hne hk => held_lose_of_ne hdestroys hne hk
      intro y k'
      show s.entries.lookup y = some k' ↔ _
      rw [h.exact.gone hgone]
      exact ⟨nofun, nofun⟩
  | @lockDrop i k inside hi hfree =>
    cases inside with
    | some f =>
      have hlock := (h.locked i).mpr (by rw [hi]; trivial)
      cases hfree.symm.trans hlock
    | none =>
      exact h.pass hi (.removing k none) (fun _ => nofun) (fun _ => nofun) (fun _ => h.borrowed i (by rw [hi]; trivial))
        (fun _ _ => nofun) rfl rfl ((hfree ▸ h.locked).take trivial)
  | @removeCurrent i k inside x hi hscope hx =>
    refine h.finish hi ?_ fun hnil => by rw [hnil]; rfl
    intro y k'
    by_cases hyx : y = x
    · rw [hyx, AList.lookup_erase, hx]
      exact ⟨nofun, fun ⟨heq, hne⟩ => absurd (Option.some.inj heq).symm hne⟩
    · rw [AList.lookup_erase_ne hyx]
      refine ⟨fun hy => ⟨hy, ?_⟩, And.left⟩
      rintro rfl
      exact hyx (Option.some.inj ((h.exact.present y k' hy).1.symm.trans hscope))
  | @keepReplacement i k inside x hi hscope hx =>
    refine h.finish hi ?_ id
    intro y k'
    refine ⟨fun hy => ⟨hy, ?_⟩, And.left⟩
    rintro rfl
    cases (h.exact.present y k' hy).1.symm.trans hscope
    exact hx hy
  | lockCount i hi hfree =>
    exact h.pass hi .counting (fun _ => nofun) (fun _ => nofun) (fun _ => h.borrowed i (by rw [hi]; trivial))
      (fun _ _ => nofun) rfl rfl ((hfree ▸ h.locked).take trivial)
  | keyCount i hi =>
    exact h.pass hi (.counted _) (fun _ => nofun) (fun _ => nofun) (fun hb => hb.elim) (fun _ _ => nofun) rfl rfl
      (h.locked.free (by rw [hi]; trivial) id)
  | dropCoordinator _ hidle =>
    exact ⟨h.counted, h.locked, h.guarded, fun i hb => absurd hb (hidle i), h.outside, h.exact.forget⟩

theorem reachable_invariant (h : (system Scope).Reachable s) : Invariant s := by
  refine System.invariant ?_ (fun _ _ hs hst => hs.step hst) h
  rintro _ rfl
  exact .start

/-- What the coordinator promises about one state. -/
structure Coordinated (s : State Scope) : Prop where
  /-- At most one lease per scope. -/
  exclusive : ∀ i j k k' x, s.task i = .leased k → s.task j = .leased k' → s.scope k = some x →
    s.scope k' = some x → i = j
  /-- The entries that are held belong to a scope, and the held entry of a scope is the
  registered one. -/
  registered : ∀ i k, (s.task i).holds = some k → ∃ x, s.scope k = some x ∧
    (∀ j k', (s.task j).holds = some k' → s.scope k' = some x → k' = k) ∧
    (s.alive = true → s.entries.lookup x = some k)
  /-- A scope without a lease, a waiter or an unfinished drop has no key. -/
  cleared : ∀ x, (∀ i k, s.scope k = some x → s.task i ≠ .leased k ∧ ¬ (s.task i).waitsFor k ∧
    ¬ (s.task i).drops k) → s.entries.lookup x = none
  /-- The cleanup of one entry leaves the keys of the others alone. -/
  cleanup : ∀ i k inside t, s.task i = .removing k inside → Step s t → t.task i ≠ s.task i →
    ∀ x k', s.entries.lookup x = some k' → k' ≠ k → t.entries.lookup x = some k'

/-- Every key is there for a task that still has to do with its entry. -/
theorem Invariant.key_used (h : Invariant s) {x : Scope} {k : Nat} (hx : s.entries.lookup x = some k) :
    s.scope k = some x ∧ ∃ i, s.task i = .leased k ∨ (s.task i).waitsFor k ∨ (s.task i).drops k := by
  obtain ⟨hscope, hlive | ⟨i, hi⟩⟩ := h.exact.present x k hx
  · obtain ⟨i, hi⟩ := h.counted.pos_iff.mp hlive
    exact ⟨hscope, i, Task.holds_cases hi⟩
  · exact ⟨hscope, i, .inr (.inr (Task.drops_of_destroys hi))⟩

theorem Invariant.held_unique (h : Invariant s) {i j k k' : Nat} (hi : (s.task i).holds = some k)
    (hj : (s.task j).holds = some k') (hscope : s.scope k = s.scope k') : k = k' :=
  h.exact.unique k k' (h.counted.pos_iff.mpr ⟨i, hi⟩) (h.counted.pos_iff.mpr ⟨j, hj⟩) hscope

/-- Only the end of a destructor moves a task out of `removing`. -/
theorem removing_step {i k : Nat} {inside : Option (Pruning Scope)} (hi : s.task i = .removing k inside)
    (hst : Step s t) (hmoved : t.task i ≠ s.task i) {x : Scope} {k' : Nat}
    (hx : s.entries.lookup x = some k') (hk : k' ≠ k) : t.entries.lookup x = some k' := by
  have hother : ∀ j b a, s.task j = a → a ≠ .removing k inside → t.task = Function.update s.task j b →
      False := by
    intro j b a hj ha ht
    have hij : i ≠ j := by
      rintro rfl
      exact ha (hj.symm.trans hi)
    rw [ht, Function.update_of_ne hij] at hmoved
    exact hmoved rfl
  cases hst with
  | @removeCurrent j k₀ inside₀ y hj hscope hy =>
    by_cases hij : i = j
    · cases hij
      cases hi.symm.trans hj
      have hxy : x ≠ y := by
        rintro rfl
        cases hx.symm.trans hy
        exact hk rfl
      show (s.entries.erase y).lookup x = some k'
      rw [AList.lookup_erase_ne hxy]
      exact hx
    · exact (hmoved (Function.update_of_ne hij _ s.task)).elim
  | keepReplacement j _ _ _ => exact hx
  | call j _ hj _ | lockPrune j _ hj _ _ | pruneStale j hj _ _ | pruneUpgrade j hj _ _ | pruneRelease j hj _
  | pruneReleaseLast j hj _ | unlockPrune j hj | lockAcquire j hj _ | lookupUpgrade j hj _ _
  | lookupInsert j _ hj _ _ | unlockAcquire j hj | lockMutex j hj _ | cancel j hj | dropGuard j hj
  | dropEntry j hj _ | dropEntryLast j hj _ | upgradeCoordinator j hj _ | coordinatorGone j hj _
  | lockDrop j hj _ | lockCount j hj _ | keyCount j hj => exact (hother j _ _ hj nofun rfl).elim
  | dropCoordinator _ _ => exact absurd rfl hmoved

/-- Whatever the tasks do, leases of a scope exclude each other and the map has exactly
the keys that are in use. -/
theorem coordinator_exclusive_and_exact (h : (system Scope).Reachable s) : Coordinated s := by
  have hs := reachable_invariant h
  refine ⟨?_, ?_, ?_, fun i k inside t hi hst hmoved x k' hx hk => removing_step hi hst hmoved hx hk⟩
  · intro i j k k' x hi hj hk hk'
    have heq := hs.held_unique (by rw [hi]; rfl) (by rw [hj]; rfl) (hk.trans hk'.symm)
    exact (hs.guarded k).unique hi (heq ▸ hj)
  · intro i k hi
    have hlive := hs.counted.pos_iff.mpr ⟨i, hi⟩
    obtain ⟨x, hx⟩ := hs.exact.keyed k hlive
    exact ⟨x, hx, fun j k' hj hk' => hs.held_unique hj hi (hk'.trans hx.symm),
      fun halive => hs.exact.registered halive x k hlive hx⟩
  · intro x hnone
    cases hx : s.entries.lookup x with
    | none => rfl
    | some k =>
      obtain ⟨hscope, i, hi⟩ := hs.key_used hx
      obtain ⟨hlease, hwait, hdrop⟩ := hnone i k hscope
      obtain hi | hi | hi := hi
      · exact absurd hi hlease
      · exact absurd hi hwait
      · exact absurd hi hdrop

/-- A lease on the scope of one stroke. -/
def sampleLease : State String where
  alive := true
  entries := (∅ : AList (fun _ : String => Nat)).insert "stroke" 0
  lock := none
  scope := Function.update (fun _ => none) 0 (some "stroke")
  strong := Function.update (fun _ => 0) 0 1
  guard := Function.update (fun _ => none) 0 (some 0)
  task := Function.update (fun _ => .idle) 0 (.leased 0)

theorem sampleLease_reachable : (system String).Reachable sampleLease := by
  have h₀ : (system String).Reachable (State.new String) := .start rfl
  have h₁ := h₀.next (.call 0 (.acquire "stroke") rfl rfl)
  have h₂ := h₁.next (.lockPrune 0 [] rfl rfl .nil)
  have h₃ := h₂.next (.unlockPrune 0 rfl)
  have h₄ := h₃.next (.lockAcquire 0 rfl rfl)
  have h₅ := h₄.next (.lookupInsert 0 0 rfl nofun rfl)
  have h₆ := h₅.next (.unlockAcquire 0 rfl)
  have h₇ := h₆.next (.lockMutex 0 rfl rfl)
  refine cast (congrArg _ ?_) h₇
  simp [State.move, sampleLease, State.new]

theorem coordinator_exclusive_and_exact_sample :
    (system String).Reachable sampleLease ∧ sampleLease.task 0 = .leased 0 ∧
      sampleLease.entries.lookup "stroke" = some 0 ∧ Coordinated sampleLease :=
  ⟨sampleLease_reachable, rfl, rfl, coordinator_exclusive_and_exact sampleLease_reachable⟩

end OrbitRelay.Coordinator
