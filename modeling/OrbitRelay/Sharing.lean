import Mathlib.Data.Finset.Card
import Mathlib.Logic.Function.Basic

/-!
# References and locks held by tasks

Each task of a family is in some state, and the state says which object the task
holds a reference to and which lock it owns. A counter that goes up and down with
the references is their number, and a lock that is only taken when it is free has
one owner.
-/
namespace Sharing

variable {ι κ τ : Type*} [DecidableEq ι] [DecidableEq κ]

/-- Some task holds `k`. -/
def Held (holds : τ → Option κ) (task : ι → τ) (k : κ) : Prop := ∃ i, holds (task i) = some k

/-- `count k` is the number of tasks that hold `k`. -/
def Counted (holds : τ → Option κ) (task : ι → τ) (count : κ → Nat) : Prop :=
  ∀ k, ∃ holders : Finset ι, (∀ i, i ∈ holders ↔ holds (task i) = some k) ∧ count k = holders.card

variable {holds : τ → Option κ} {task : ι → τ} {count : κ → Nat} {i : ι} {k : κ} {b : τ}

omit [DecidableEq ι] [DecidableEq κ] in
theorem Counted.start (h : ∀ i, holds (task i) = none) : Counted holds task fun _ => 0 := by
  intro k
  refine ⟨∅, ?_, rfl⟩
  intro i
  rw [h i]
  simp

omit [DecidableEq ι] [DecidableEq κ] in
theorem Counted.pos_iff (h : Counted holds task count) : 0 < count k ↔ Held holds task k := by
  obtain ⟨holders, hmem, hcard⟩ := h k
  rw [hcard, Finset.card_pos]
  constructor
  · rintro ⟨i, hi⟩
    exact ⟨i, (hmem i).mp hi⟩
  · rintro ⟨i, hi⟩
    exact ⟨i, (hmem i).mpr hi⟩

omit [DecidableEq κ] in
/-- A task that moves leaves alone which tasks hold a key that it neither drops nor takes. -/
theorem holds_moved (h : holds b = some k ↔ holds (task i) = some k) (j : ι) :
    holds (Function.update task i b j) = some k ↔ holds (task j) = some k := by
  by_cases hj : j = i
  · rw [hj, Function.update_self, h]
  · rw [Function.update_of_ne hj]

omit [DecidableEq κ] in
theorem Counted.keep (h : Counted holds task count) (hb : holds b = holds (task i)) :
    Counted holds (Function.update task i b) count := by
  intro k
  obtain ⟨holders, hmem, hcard⟩ := h k
  refine ⟨holders, ?_, hcard⟩
  intro j
  rw [hmem j, holds_moved (by rw [hb])]

theorem Counted.gain (h : Counted holds task count) (ha : holds (task i) = none) (hb : holds b = some k) :
    Counted holds (Function.update task i b) (Function.update count k (count k + 1)) := by
  intro k'
  obtain ⟨holders, hmem, hcard⟩ := h k'
  by_cases hk : k' = k
  · subst hk
    have hnot : i ∉ holders := by
      rw [hmem i, ha]
      exact nofun
    refine ⟨insert i holders, ?_, ?_⟩
    · intro j
      rw [Finset.mem_insert, hmem j]
      by_cases hj : j = i
      · rw [hj, Function.update_self, hb]
        simp
      · rw [Function.update_of_ne hj]
        simp [hj]
    · rw [Function.update_self, Finset.card_insert_of_notMem hnot, hcard]
  · have hother : holds b = some k' ↔ holds (task i) = some k' := by
      rw [hb, ha]
      simpa using fun heq => hk heq.symm
    refine ⟨holders, ?_, ?_⟩
    · intro j
      rw [hmem j, holds_moved hother]
    · rw [Function.update_of_ne hk, hcard]

theorem Counted.lose (h : Counted holds task count) (ha : holds (task i) = some k) (hb : holds b = none) :
    Counted holds (Function.update task i b) (Function.update count k (count k - 1)) := by
  intro k'
  obtain ⟨holders, hmem, hcard⟩ := h k'
  by_cases hk : k' = k
  · subst hk
    refine ⟨holders.erase i, ?_, ?_⟩
    · intro j
      rw [Finset.mem_erase, hmem j]
      by_cases hj : j = i
      · rw [hj, Function.update_self, hb]
        simp
      · rw [Function.update_of_ne hj]
        simp [hj]
    · rw [Function.update_self, Finset.card_erase_of_mem ((hmem i).mpr ha), hcard]
  · have hother : holds b = some k' ↔ holds (task i) = some k' := by
      rw [hb, ha]
      simpa using fun heq => hk heq.symm
    refine ⟨holders, ?_, ?_⟩
    · intro j
      rw [hmem j, holds_moved hother]
    · rw [Function.update_of_ne hk, hcard]

omit [DecidableEq κ] in
theorem held_keep (hb : holds b = holds (task i)) {k : κ} :
    Held holds (Function.update task i b) k ↔ Held holds task k := by
  constructor
  · rintro ⟨j, hj⟩
    by_cases hji : j = i
    · rw [hji, Function.update_self, hb] at hj
      exact ⟨i, hj⟩
    · rw [Function.update_of_ne hji] at hj
      exact ⟨j, hj⟩
  · rintro ⟨j, hj⟩
    refine ⟨j, ?_⟩
    by_cases hji : j = i
    · rw [hji, Function.update_self, hb, ← hji]
      exact hj
    · rw [Function.update_of_ne hji]
      exact hj

omit [DecidableEq κ] in
theorem held_gain (ha : holds (task i) = none) (hb : holds b = some k) {k' : κ} :
    Held holds (Function.update task i b) k' ↔ Held holds task k' ∨ k' = k := by
  constructor
  · rintro ⟨j, hj⟩
    by_cases hji : j = i
    · rw [hji, Function.update_self, hb] at hj
      exact .inr (Option.some.inj hj).symm
    · rw [Function.update_of_ne hji] at hj
      exact .inl ⟨j, hj⟩
  · rintro (⟨j, hj⟩ | rfl)
    · have hji : j ≠ i := by
        rintro rfl
        cases ha.symm.trans hj
      exact ⟨j, by rw [Function.update_of_ne hji]; exact hj⟩
    · exact ⟨i, by rw [Function.update_self]; exact hb⟩

omit [DecidableEq κ] in
theorem held_of_lose (hb : holds b = none) {k' : κ} (h : Held holds (Function.update task i b) k') :
    Held holds task k' := by
  obtain ⟨j, hj⟩ := h
  have hji : j ≠ i := by
    rintro rfl
    rw [Function.update_self, hb] at hj
    cases hj
  rw [Function.update_of_ne hji] at hj
  exact ⟨j, hj⟩

omit [DecidableEq κ] in
theorem held_lose_of_ne (ha : holds (task i) = some k) {k' : κ} (hk : k' ≠ k) (h : Held holds task k') :
    Held holds (Function.update task i b) k' := by
  obtain ⟨j, hj⟩ := h
  have hji : j ≠ i := by
    rintro rfl
    exact hk (Option.some.inj (hj.symm.trans ha))
  exact ⟨j, by rw [Function.update_of_ne hji]; exact hj⟩

/-- The lock knows the one task that owns it. -/
def Exclusive (owns : τ → Prop) (task : ι → τ) (owner : Option ι) : Prop :=
  ∀ i, owner = some i ↔ owns (task i)

variable {owns : τ → Prop} {owner : Option ι}

omit [DecidableEq ι] in
theorem Exclusive.unique (h : Exclusive owns task owner) {j : ι} (hi : owns (task i)) (hj : owns (task j)) :
    i = j :=
  Option.some.inj (((h i).mpr hi).symm.trans ((h j).mpr hj))

theorem Exclusive.keep (h : Exclusive owns task owner) (hb : owns b ↔ owns (task i)) :
    Exclusive owns (Function.update task i b) owner := by
  intro j
  rw [h j]
  by_cases hj : j = i
  · rw [hj, Function.update_self, hb]
  · rw [Function.update_of_ne hj]

theorem Exclusive.take (h : Exclusive owns task none) (hb : owns b) :
    Exclusive owns (Function.update task i b) (some i) := by
  intro j
  by_cases hj : j = i
  · rw [hj, Function.update_self]
    exact ⟨fun _ => hb, fun _ => rfl⟩
  · rw [Function.update_of_ne hj, ← h j]
    exact ⟨fun heq => absurd (Option.some.inj heq).symm hj, nofun⟩

theorem Exclusive.free (h : Exclusive owns task owner) (ha : owns (task i)) (hb : ¬ owns b) :
    Exclusive owns (Function.update task i b) none := by
  intro j
  by_cases hj : j = i
  · rw [hj, Function.update_self]
    exact ⟨nofun, fun hown => absurd hown hb⟩
  · rw [Function.update_of_ne hj]
    exact ⟨nofun, fun hown => absurd (h.unique hown ha) hj⟩

end Sharing
