import OrbitRelay.CoordinatorExact

/-!
# When the coordinator locks itself out

`prune_stale` upgrades every weak reference while it owns the entries mutex. If the
entry's last other reference goes before the temporary one, the destructor runs on
the pruning thread, inside its own locked section, and asks for the mutex that the
thread already owns. This is the only way.
-/
namespace OrbitRelay.Coordinator

open Transition Sharing

variable {Scope : Type}

/-- The task is about to lock the entries mutex. -/
def Task.requests : Task Scope → Prop
  | .called _ => True
  | .pruned _ => True
  | .requesting _ _ => True
  | _ => False

/-- The locked section that the task's `KeyedMutex::drop` runs in. -/
def Task.destroysInside : Task Scope → Option (Pruning Scope)
  | .dropping _ inside => inside
  | .requesting _ inside => inside
  | .removing _ inside => inside
  | _ => none

/-- The entry that the task holds by more than the temporary reference of `prune_stale`. -/
def Task.keeps : Task Scope → Option Nat
  | .found k => some k
  | .waiting k => some k
  | .leased k => some k
  | .released k => some k
  | _ => none

variable {s t : State Scope}

/-- A thread that owns the entries mutex requests it again. -/
def State.SelfRequest (s : State Scope) : Prop := ∃ i, s.lock = some i ∧ (s.task i).requests

/-- The step lets go of an entry that nobody else keeps, while a `prune_stale` has its
temporary reference to it. -/
def Orphans (s t : State Scope) : Prop :=
  ∃ i j k f, s.task i = .released k ∧ t.task i ≠ .released k ∧ s.task j = .upgraded f k ∧
    ∀ i', i' ≠ i → (s.task i').keeps ≠ some k

theorem Task.holds_of_keeps {a : Task Scope} {k : Nat} (h : a.keeps = some k) : a.holds = some k := by
  cases a with
  | found _ | waiting _ | leased _ | released _ => exact h
  | idle | called _ | pruning _ | upgraded _ _ | pruned _ | looking _ | dropping _ _ | requesting _ _
  | removing _ _ | counting | counted _ | done => cases h

theorem Task.keeps_of_holds {a : Task Scope} {k : Nat} (h : a.holds = some k) :
    a.keeps = some k ∨ ∃ f, a = .upgraded f k := by
  cases a with
  | found _ | waiting _ | leased _ | released _ => exact .inl h
  | upgraded f k' =>
    cases h
    exact .inr ⟨f, rfl⟩
  | idle | called _ | pruning _ | pruned _ | looking _ | dropping _ _ | requesting _ _
  | removing _ _ | counting | counted _ | done => cases h

variable [DecidableEq Scope]

/-- The steps that leave no entry to a `prune_stale` alone. -/
def careful (Scope : Type) [DecidableEq Scope] : System (State Scope) where
  init := (system Scope).init
  step s t := Step s t ∧ ¬ Orphans s t

theorem careful_reachable (h : (careful Scope).Reachable s) : (system Scope).Reachable s :=
  System.invariant (S := careful Scope) (fun _ h₀ => .start h₀) (fun _ _ hs hst => hs.next hst.1) h

/-- Beside every temporary reference there is one that keeps the entry, and no
destructor runs in a locked section. -/
structure Kept (s : State Scope) : Prop where
  kept : ∀ j f k, s.task j = .upgraded f k → Held Task.keeps s.task k
  outside : ∀ i, (s.task i).destroysInside = none

omit [DecidableEq Scope] in
theorem Kept.move (h : Kept s) {i : Nat} {a b : Task Scope} (hi : s.task i = a)
    (ht : t.task = Function.update s.task i b) (hb : ∀ f k, b ≠ .upgraded f k)
    (hinside : b.destroysInside = none) (hkeeps : b.keeps = a.keeps ∨ a.keeps = none) : Kept t := by
  have hheld : ∀ k, Held Task.keeps s.task k → Held Task.keeps t.task k := by
    intro k hk
    rw [ht]
    obtain hkeeps | hkeeps := hkeeps
    · exact (held_keep (hi ▸ hkeeps)).mpr hk
    · cases hbk : b.keeps with
      | none => exact (held_keep (hbk.trans (hi ▸ hkeeps).symm)).mpr hk
      | some k' => exact (held_gain (hi ▸ hkeeps) hbk).mpr (.inl hk)
  refine ⟨?_, ?_⟩
  · intro j f k hj
    refine hheld k ?_
    rw [ht] at hj
    by_cases hji : j = i
    · rw [hji, Function.update_self] at hj
      exact absurd hj (hb f k)
    · rw [Function.update_of_ne hji] at hj
      exact h.kept j f k hj
  · intro j
    rw [ht]
    by_cases hji : j = i
    · rw [hji, Function.update_self]
      exact hinside
    · rw [Function.update_of_ne hji]
      exact h.outside j

/-- The temporary reference joins one that the pruning task found alive. -/
theorem Kept.pruneUpgrade (h : Kept s) (hs : Invariant s) {i k : Nat} {f g : Pruning Scope}
    (hi : s.task i = .pruning g) (hk : 0 < s.strong k) (ht : t.task = Function.update s.task i (.upgraded f k)) :
    Kept t := by
  have hheld : ∀ k', Held Task.keeps t.task k' ↔ Held Task.keeps s.task k' := by
    intro k'
    rw [ht]
    exact held_keep (by rw [hi]; rfl)
  refine ⟨?_, ?_⟩
  · intro j f' k' hj
    rw [hheld]
    rw [ht] at hj
    by_cases hji : j = i
    · rw [hji, Function.update_self] at hj
      cases hj
      obtain ⟨j', hj'⟩ := hs.counted.pos_iff.mp hk
      obtain hkeeps | ⟨f', hupgraded⟩ := Task.keeps_of_holds hj'
      · exact ⟨j', hkeeps⟩
      · -- the pruning task owns the mutex, so no other task is inside a locked section
        have heq := hs.locked.unique (i := j') (j := i) (by rw [hupgraded]; trivial) (by rw [hi]; trivial)
        rw [heq, hi] at hupgraded
        cases hupgraded
    · rw [Function.update_of_ne hji] at hj
      exact h.kept j f' k' hj
  · intro j
    rw [ht]
    by_cases hji : j = i
    · rw [hji, Function.update_self]
      rfl
    · rw [Function.update_of_ne hji]
      exact h.outside j

omit [DecidableEq Scope] in
/-- A reference is dropped with care. -/
theorem Kept.drop (h : Kept s) (horphans : ¬ Orphans s t) {i k : Nat} {b : Task Scope}
    (hi : s.task i = .released k) (ht : t.task = Function.update s.task i b) (hb : b.holds = none)
    (hinside : b.destroysInside = none) : Kept t := by
  have hreleased : t.task i ≠ .released k := by
    rw [ht, Function.update_self]
    rintro rfl
    cases hb
  have hbk : b.keeps = none := by
    cases hbk : b.keeps with
    | none => rfl
    | some k' => cases hb.symm.trans (Task.holds_of_keeps hbk)
  refine ⟨?_, ?_⟩
  · intro j f k' hj
    rw [ht] at hj ⊢
    have hji : j ≠ i := by
      rintro rfl
      rw [Function.update_self] at hj
      rw [hj] at hb
      cases hb
    rw [Function.update_of_ne hji] at hj
    by_cases hk : k' = k
    · rw [hk] at hj ⊢
      refine Classical.byContradiction fun hnone => horphans ⟨i, j, k, f, hi, hreleased, hj, ?_⟩
      intro i' hne hkeeps
      refine hnone ⟨i', ?_⟩
      rw [Function.update_of_ne hne]
      exact hkeeps
    · exact held_lose_of_ne (k := k) (by rw [hi]; rfl) hk (h.kept j f k' hj)
  · intro j
    rw [ht]
    by_cases hji : j = i
    · rw [hji, Function.update_self]
      exact hinside
    · rw [Function.update_of_ne hji]
      exact h.outside j

theorem Kept.step (h : Kept s) (hs : Invariant s) (hst : Step s t) (horphans : ¬ Orphans s t) : Kept t := by
  cases hst with
  | call i p hi _ => exact h.move hi rfl (fun _ _ => nofun) rfl (.inr rfl)
  | lockPrune i _ hi _ _ => exact h.move hi rfl (fun _ _ => nofun) rfl (.inr rfl)
  | pruneStale i hi _ _ => exact h.move hi rfl (fun _ _ => nofun) rfl (.inr rfl)
  | pruneUpgrade i hi _ hk => exact h.pruneUpgrade hs hi hk rfl
  | pruneRelease i hi _ => exact h.move hi rfl (fun _ _ => nofun) rfl (.inr rfl)
  | @pruneReleaseLast i f k hi hlast =>
    -- the entry has a keeper beside the temporary reference, so its count is not one
    obtain ⟨j, hj⟩ := h.kept i f k hi
    obtain ⟨holders, hmem, hcard⟩ := hs.counted k
    obtain ⟨i', hone⟩ := Finset.card_eq_one.mp (hcard.symm.trans hlast)
    have hholder : ∀ m, (s.task m).holds = some k → m = i' := by
      intro m hm
      have := (hmem m).mpr hm
      rw [hone, Finset.mem_singleton] at this
      exact this
    have hi' := hholder i (by rw [hi]; rfl)
    have hj' := hholder j (Task.holds_of_keeps hj)
    rw [hj', ← hi', hi] at hj
    cases hj
  | unlockPrune i hi => exact h.move hi rfl (fun _ _ => nofun) rfl (.inr rfl)
  | lockAcquire i hi _ => exact h.move hi rfl (fun _ _ => nofun) rfl (.inr rfl)
  | lookupUpgrade i hi _ _ => exact h.move hi rfl (fun _ _ => nofun) rfl (.inr rfl)
  | lookupInsert i k hi _ _ => exact h.move hi rfl (fun _ _ => nofun) rfl (.inr rfl)
  | unlockAcquire i hi => exact h.move hi rfl (fun _ _ => nofun) rfl (.inl rfl)
  | lockMutex i hi _ => exact h.move hi rfl (fun _ _ => nofun) rfl (.inl rfl)
  | cancel i hi => exact h.move hi rfl (fun _ _ => nofun) rfl (.inl rfl)
  | dropGuard i hi => exact h.move hi rfl (fun _ _ => nofun) rfl (.inl rfl)
  | dropEntry i hi _ => exact h.drop horphans hi rfl rfl rfl
  | dropEntryLast i hi _ => exact h.drop horphans hi rfl rfl rfl
  | upgradeCoordinator i hi _ =>
    have hinside := h.outside i
    rw [hi] at hinside
    exact h.move hi rfl (fun _ _ => nofun) hinside (.inr rfl)
  | coordinatorGone i hi _ =>
    have hinside := h.outside i
    rw [hi] at hinside
    cases hinside
    exact h.move hi rfl (fun _ _ => nofun) rfl (.inr rfl)
  | lockDrop i hi _ =>
    have hinside := h.outside i
    rw [hi] at hinside
    exact h.move hi rfl (fun _ _ => nofun) hinside (.inr rfl)
  | removeCurrent i hi _ _ =>
    cases hs.removing_outside hi
    exact h.move hi rfl (fun _ _ => nofun) rfl (.inr rfl)
  | keepReplacement i hi _ _ =>
    cases hs.removing_outside hi
    exact h.move hi rfl (fun _ _ => nofun) rfl (.inr rfl)
  | lockCount i hi _ => exact h.move hi rfl (fun _ _ => nofun) rfl (.inr rfl)
  | keyCount i hi => exact h.move hi rfl (fun _ _ => nofun) rfl (.inr rfl)
  | dropCoordinator _ _ => exact ⟨h.kept, h.outside⟩

theorem careful_kept (h : (careful Scope).Reachable s) : Kept s := by
  refine (System.invariant (S := careful Scope) (P := fun s => Invariant s ∧ Kept s) ?_ ?_ h).2
  · rintro _ rfl
    exact ⟨.start, fun j f k hj => (nomatch hj), fun i => rfl⟩
  · rintro u v ⟨hinv, hkept⟩ ⟨huv, horphans⟩
    exact ⟨hinv.step huv, hkept.step hinv huv horphans⟩

/-- A destructor is inside a locked section exactly when its thread will ask, or asks,
for the mutex it owns. -/
theorem not_selfRequest (hs : Invariant s) (h : ∀ i, (s.task i).destroysInside = none) : ¬ s.SelfRequest := by
  rintro ⟨i, hlock, hrequests⟩
  have howns := (hs.locked i).mp hlock
  have hinside := h i
  cases hi : s.task i with
  | requesting k inside =>
    rw [hi] at howns hinside
    cases hinside
    exact howns
  | called _ | pruned _ =>
    rw [hi] at howns
    exact howns
  | idle | pruning _ | upgraded _ _ | looking _ | found _ | waiting _ | leased _ | released _ | dropping _ _
  | removing _ _ | counting | counted _ | done =>
    rw [hi] at hrequests
    exact hrequests

/-- Where the last keeper lets go of an entry under a temporary reference, the step is
an ordinary drop and the temporary reference is the only one left. -/
theorem orphaned (hs : Invariant s) (hst : Step s t) {i j k : Nat} {f : Pruning Scope}
    (hi : s.task i = .released k) (hmoved : t.task i ≠ .released k) (hj : s.task j = .upgraded f k)
    (halone : ∀ i', i' ≠ i → (s.task i').keeps ≠ some k) :
    t.task j = .upgraded f k ∧ t.strong k = 1 ∧ t.lock = s.lock ∧ t.alive = s.alive := by
  have hji : j ≠ i := by
    rintro rfl
    cases hi.symm.trans hj
  have hother : ∀ i' b a, s.task i' = a → a ≠ .released k → t.task = Function.update s.task i' b → False := by
    intro i' b a hi' ha ht
    have hne : i ≠ i' := by
      rintro rfl
      exact ha (hi'.symm.trans hi)
    rw [ht, Function.update_of_ne hne] at hmoved
    exact hmoved hi
  obtain ⟨holders, hmem, hcard⟩ := hs.counted k
  have hholders : holders = {i, j} := by
    ext m
    rw [hmem m, Finset.mem_insert, Finset.mem_singleton]
    constructor
    · intro hm
      by_cases hmi : m = i
      · exact .inl hmi
      · obtain hkeeps | ⟨f', hupgraded⟩ := Task.keeps_of_holds hm
        · exact absurd hkeeps (halone m hmi)
        · exact .inr (hs.locked.unique (by rw [hupgraded]; trivial) (by rw [hj]; trivial))
    · rintro (rfl | rfl)
      · rw [hi]
        rfl
      · rw [hj]
        rfl
  have htwo : s.strong k = 2 := by
    rw [hcard, hholders, Finset.card_pair hji.symm]
  cases hst with
  | @dropEntry i' k' hi' hk' =>
    by_cases hne : i = i'
    · cases hne
      cases hi.symm.trans hi'
      refine ⟨(Function.update_of_ne hji _ _).trans hj, ?_, rfl, rfl⟩
      show Function.update s.strong k (s.strong k - 1) k = 1
      rw [Function.update_self, htwo]
    · exact (hmoved ((Function.update_of_ne hne _ _).trans hi)).elim
  | @dropEntryLast i' k' hi' hk' =>
    by_cases hne : i = i'
    · cases hne
      cases hi.symm.trans hi'
      omega
    · exact (hmoved ((Function.update_of_ne hne _ _).trans hi)).elim
  | call i' _ hi' _ | lockPrune i' _ hi' _ _ | pruneStale i' hi' _ _ | pruneUpgrade i' hi' _ _
  | pruneRelease i' hi' _ | pruneReleaseLast i' hi' _ | unlockPrune i' hi' | lockAcquire i' hi' _
  | lookupUpgrade i' hi' _ _ | lookupInsert i' _ hi' _ _ | unlockAcquire i' hi' | lockMutex i' hi' _
  | cancel i' hi' | dropGuard i' hi' | upgradeCoordinator i' hi' _ | coordinatorGone i' hi' _
  | lockDrop i' hi' _ | removeCurrent i' hi' _ _ | keepReplacement i' hi' _ _ | lockCount i' hi' _
  | keyCount i' hi' => exact (hother i' _ _ hi' nofun rfl).elim
  | dropCoordinator _ _ => exact absurd hi hmoved

/-- From there the pruning thread only has to go on. -/
theorem orphans_selfRequest (hs : Invariant s) (hst : Step s t) (h : Orphans s t) :
    ∃ u, (system Scope).Run t u ∧ u.SelfRequest := by
  obtain ⟨i, j, k, f, hi, hmoved, hj, halone⟩ := h
  obtain ⟨hj', hone, hlock, halive⟩ := orphaned hs hst hi hmoved hj halone
  have howner : t.lock = some j := by
    rw [hlock]
    exact (hs.locked j).mpr (by rw [hj]; trivial)
  have hborrowed : t.alive = true := by
    rw [halive]
    exact hs.borrowed j (by rw [hj]; trivial)
  have hrun : (system Scope).Run t _ := .single (.pruneReleaseLast j hj' hone)
  have hdropping : Function.update t.task j (.dropping k (some f)) j = .dropping k (some f) :=
    Function.update_self _ _ _
  refine ⟨_, hrun.tail (.upgradeCoordinator j hdropping hborrowed), j, howner, ?_⟩
  show Task.requests (Function.update (Function.update t.task j (.dropping k (some f))) j
    (.requesting k (some f)) j)
  rw [Function.update_self]
  trivial

/-- As long as no step orphans an entry, no thread requests the mutex it owns and no
destructor runs in a locked section; and a step that orphans one leads to a thread
that does. -/
theorem no_selfRequest_without_orphans :
    (∀ s : State Scope, (careful Scope).Reachable s →
      ¬ s.SelfRequest ∧ ∀ i, (s.task i).destroysInside = none) ∧
    ∀ s t : State Scope, (system Scope).Reachable s → Step s t → Orphans s t →
      ∃ u, (system Scope).Run t u ∧ u.SelfRequest := by
  refine ⟨?_, fun s t h hst ho => orphans_selfRequest (reachable_invariant h) hst ho⟩
  intro s h
  have hkept := careful_kept h
  exact ⟨not_selfRequest (reachable_invariant (careful_reachable h)) hkept.outside, hkept.outside⟩

omit [DecidableEq Scope] in
/-- One task on its own orphans nothing. -/
theorem not_orphans_of_alone (h : ∀ j, j ≠ 0 → s.task j = .idle) : ¬ Orphans s t := by
  rintro ⟨i, j, k, f, hi, -, hj, -⟩
  have hi0 : i = 0 := Classical.byContradiction fun hne => by cases hi.symm.trans (h i hne)
  have hj0 : j = 0 := Classical.byContradiction fun hne => by cases hj.symm.trans (h j hne)
  rw [hi0] at hi
  rw [hj0, hi] at hj
  cases hj

theorem sampleLease_careful : (careful String).Reachable sampleLease := by
  have h₀ : (careful String).Reachable (State.new String) := .start rfl
  have h₁ := h₀.next ⟨.call 0 (.acquire "stroke") rfl rfl, not_orphans_of_alone fun _ _ => rfl⟩
  have h₂ := h₁.next ⟨.lockPrune 0 [] rfl rfl .nil,
    not_orphans_of_alone fun j hj => by simp [State.move, State.new, hj]⟩
  have h₃ := h₂.next ⟨.unlockPrune 0 rfl,
    not_orphans_of_alone fun j hj => by simp [State.move, State.new, hj]⟩
  have h₄ := h₃.next ⟨.lockAcquire 0 rfl rfl,
    not_orphans_of_alone fun j hj => by simp [State.move, State.new, hj]⟩
  have h₅ := h₄.next ⟨.lookupInsert 0 0 rfl (fun _ h => absurd h (Option.some_ne_none _).symm) rfl,
    not_orphans_of_alone fun j hj => by simp [State.move, State.new, hj]⟩
  have h₆ := h₅.next ⟨.unlockAcquire 0 rfl,
    not_orphans_of_alone fun j hj => by simp [State.move, State.new, hj]⟩
  have h₇ := h₆.next ⟨.lockMutex 0 rfl rfl,
    not_orphans_of_alone fun j hj => by simp [State.move, State.new, hj]⟩
  refine cast (congrArg _ ?_) h₇
  simp [State.move, sampleLease, State.new]

theorem no_selfRequest_without_orphans_sample :
    (careful String).Reachable sampleLease ∧ sampleLease.task 0 = .leased 0 ∧ ¬ sampleLease.SelfRequest :=
  ⟨sampleLease_careful, rfl, (no_selfRequest_without_orphans.1 sampleLease sampleLease_careful).1⟩

/-- A lease is dropped while `key_count` has its temporary reference to the entry. -/
theorem lease_dropped_under_prune_deadlocks : ∃ s, (system String).Reachable s ∧ s.SelfRequest := by
  have h₁ := sampleLease_reachable.next (.call 1 .keyCount rfl rfl)
  have h₂ := h₁.next (.lockPrune 1 ["stroke"] rfl rfl (.refl _))
  have h₃ := h₂.next (.pruneUpgrade 1 (k := 0) rfl rfl Nat.one_pos)
  have h₄ := h₃.next (.dropGuard 0 rfl)
  have h₅ := h₄.next (.dropEntry 0 rfl (by decide))
  have h₆ := h₅.next (.pruneReleaseLast 1 rfl rfl)
  have h₇ := h₆.next (.upgradeCoordinator 1 rfl rfl)
  exact ⟨_, h₇, 1, rfl, trivial⟩

end OrbitRelay.Coordinator
