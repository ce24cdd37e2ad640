import Mathlib.Data.List.AList
import Mathlib.Logic.Function.Basic

/-!
# A map of weak references

Objects are counted by their strong references and found by their keys in a map
that does not keep them alive. An object whose count has come down to zero is
doomed until its destructor has taken it out of the map, and in that window its
key may be given to a new object.
-/
namespace WeakMap

variable {α κ : Type} [DecidableEq α]

/-- `key k` is the key of every object that was ever made, `doomed k` says that its
destructor has begun and not ended. The map is there while `alive`. -/
structure Exact (alive : Bool) (entries : AList (fun _ : α => κ)) (key : κ → Option α) (strong : κ → Nat)
    (doomed : κ → Prop) : Prop where
  keyed : ∀ k, 0 < strong k → ∃ x, key k = some x
  registered : alive = true → ∀ x k, 0 < strong k → key k = some x → entries.lookup x = some k
  unique : ∀ k k', 0 < strong k → 0 < strong k' → key k = key k' → k = k'
  dead : ∀ k, doomed k → strong k = 0 ∧ ∃ x, key k = some x
  present : ∀ x k, entries.lookup x = some k → key k = some x ∧ (0 < strong k ∨ doomed k)
  gone : alive = false → entries = ∅

variable {alive : Bool} {entries : AList (fun _ : α => κ)} {key : κ → Option α} {strong : κ → Nat}
  {doomed : κ → Prop}

theorem Exact.start : Exact alive (∅ : AList (fun _ : α => κ)) (fun _ => none) (fun _ => 0) fun _ => False where
  keyed := fun k h => absurd h (Nat.lt_irrefl 0)
  registered := fun _ x k h => absurd h (Nat.lt_irrefl 0)
  unique := fun k k' h => absurd h (Nat.lt_irrefl 0)
  dead := fun k h => h.elim
  present := fun x k h => by cases h
  gone := fun _ => rfl

/-- Only whether a count is zero matters. -/
theorem Exact.congr (h : Exact alive entries key strong doomed) {strong' : κ → Nat} {doomed' : κ → Prop}
    (hstrong : ∀ k, 0 < strong' k ↔ 0 < strong k) (hdoomed : ∀ k, doomed' k ↔ doomed k) :
    Exact alive entries key strong' doomed' where
  keyed := fun k hk => h.keyed k ((hstrong k).mp hk)
  registered := fun ha x k hk => h.registered ha x k ((hstrong k).mp hk)
  unique := fun k k' hk hk' => h.unique k k' ((hstrong k).mp hk) ((hstrong k').mp hk')
  dead := by
    intro k hk
    obtain ⟨hzero, hkey⟩ := h.dead k ((hdoomed k).mp hk)
    refine ⟨?_, hkey⟩
    have := hstrong k
    omega
  present := by
    intro x k hx
    rw [hstrong k, hdoomed k]
    exact h.present x k hx
  gone := h.gone

variable [DecidableEq κ]

omit [DecidableEq α] in
theorem pos_update {k : κ} {n : Nat} (hn : 0 < n) (hk : 0 < strong k) (k' : κ) :
    0 < Function.update strong k n k' ↔ 0 < strong k' := by
  by_cases heq : k' = k
  · rw [heq, Function.update_self]
    exact ⟨fun _ => hk, fun _ => hn⟩
  · rw [Function.update_of_ne heq]

/-- The last strong reference goes. -/
theorem Exact.last (h : Exact alive entries key strong doomed) {k : κ} (hk : 0 < strong k)
    {doomed' : κ → Prop} (hdoomed : ∀ k', doomed' k' ↔ doomed k' ∨ k' = k) :
    Exact alive entries key (Function.update strong k 0) doomed' := by
  have hpos : ∀ k', 0 < Function.update strong k 0 k' → 0 < strong k' := by
    intro k' hk'
    by_cases heq : k' = k
    · rw [heq]
      exact hk
    · rw [Function.update_of_ne heq] at hk'
      exact hk'
  refine ⟨?_, ?_, ?_, ?_, ?_, h.gone⟩
  · exact fun k' hk' => h.keyed k' (hpos k' hk')
  · exact fun ha x k' hk' => h.registered ha x k' (hpos k' hk')
  · exact fun k₁ k₂ h₁ h₂ => h.unique k₁ k₂ (hpos k₁ h₁) (hpos k₂ h₂)
  · intro k' hk'
    obtain hk' | rfl := (hdoomed k').mp hk'
    · obtain ⟨hzero, hkey⟩ := h.dead k' hk'
      refine ⟨?_, hkey⟩
      by_cases heq : k' = k
      · rw [heq, Function.update_self]
      · rw [Function.update_of_ne heq, hzero]
    · exact ⟨Function.update_self _ _ _, h.keyed k' hk⟩
  · intro x k' hx
    obtain ⟨hkey, hlive⟩ := h.present x k' hx
    refine ⟨hkey, ?_⟩
    rw [hdoomed k']
    by_cases heq : k' = k
    · exact .inr (.inr heq)
    · rw [Function.update_of_ne heq]
      exact hlive.imp_right .inl

omit [DecidableEq κ] in
/-- A key whose object is dead is swept. -/
theorem Exact.sweep (h : Exact alive entries key strong doomed) {x : α} {k : κ}
    (hx : entries.lookup x = some k) (hk : strong k = 0) :
    Exact alive (entries.erase x) key strong doomed := by
  refine ⟨h.keyed, ?_, h.unique, h.dead, ?_, ?_⟩
  · intro ha y k' hk' hkey
    have hy := h.registered ha y k' hk' hkey
    have hne : y ≠ x := by
      rintro rfl
      cases hx.symm.trans hy
      omega
    rw [AList.lookup_erase_ne hne]
    exact hy
  · intro y k' hy
    have hne : y ≠ x := by
      rintro rfl
      rw [AList.lookup_erase] at hy
      cases hy
    rw [AList.lookup_erase_ne hne] at hy
    exact h.present y k' hy
  · intro ha
    rw [h.gone ha] at hx
    cases hx

/-- A new object takes the key of an absent or dead one. -/
theorem Exact.insert (h : Exact alive entries key strong doomed) {x : α} {k : κ} (ha : alive = true)
    (hstale : ∀ k', entries.lookup x = some k' → strong k' = 0) (hnew : key k = none) :
    Exact alive (entries.insert x k) (Function.update key k (some x)) (Function.update strong k 1) doomed := by
  have hfree : ∀ k', 0 < strong k' → key k' ≠ some x := by
    intro k' hk' hkey
    have := hstale k' (h.registered ha x k' hk' hkey)
    omega
  have hold : ∀ k', k' ≠ k → Function.update strong k 1 k' = strong k' ∧
      Function.update key k (some x) k' = key k' :=
    fun k' hne => ⟨Function.update_of_ne hne _ _, Function.update_of_ne hne _ _⟩
  refine ⟨?_, ?_, ?_, ?_, ?_, ?_⟩
  · intro k' hk'
    by_cases heq : k' = k
    · exact ⟨x, by rw [heq, Function.update_self]⟩
    · rw [(hold k' heq).1] at hk'
      rw [(hold k' heq).2]
      exact h.keyed k' hk'
  · intro _ y k' hk' hkey
    by_cases heq : k' = k
    · rw [heq, Function.update_self] at hkey
      cases hkey
      rw [heq, AList.lookup_insert]
    · rw [(hold k' heq).1] at hk'
      rw [(hold k' heq).2] at hkey
      have hne : y ≠ x := fun hyx => hfree k' hk' (hyx ▸ hkey)
      rw [AList.lookup_insert_ne hne]
      exact h.registered ha y k' hk' hkey
  · intro k₁ k₂ h₁ h₂ hkey
    by_cases heq₁ : k₁ = k
    · by_cases heq₂ : k₂ = k
      · exact heq₁.trans heq₂.symm
      · rw [heq₁, Function.update_self, (hold k₂ heq₂).2] at hkey
        rw [(hold k₂ heq₂).1] at h₂
        exact absurd hkey.symm (hfree k₂ h₂)
    · rw [(hold k₁ heq₁).1] at h₁
      rw [(hold k₁ heq₁).2] at hkey
      by_cases heq₂ : k₂ = k
      · rw [heq₂, Function.update_self] at hkey
        exact absurd hkey (hfree k₁ h₁)
      · rw [(hold k₂ heq₂).1] at h₂
        rw [(hold k₂ heq₂).2] at hkey
        exact h.unique k₁ k₂ h₁ h₂ hkey
  · intro k' hk'
    obtain ⟨hzero, y, hy⟩ := h.dead k' hk'
    have hne : k' ≠ k := by
      rintro rfl
      cases hnew.symm.trans hy
    rw [(hold k' hne).1, (hold k' hne).2]
    exact ⟨hzero, y, hy⟩
  · intro y k' hy
    by_cases hyx : y = x
    · rw [hyx, AList.lookup_insert] at hy
      cases hy
      rw [hyx, Function.update_self, Function.update_self]
      exact ⟨rfl, .inl Nat.one_pos⟩
    · rw [AList.lookup_insert_ne hyx] at hy
      obtain ⟨hkey, hlive⟩ := h.present y k' hy
      have hne : k' ≠ k := by
        rintro rfl
        cases hnew.symm.trans hkey
      rw [(hold k' hne).1, (hold k' hne).2]
      exact ⟨hkey, hlive⟩
  · intro hdead
    cases ha.symm.trans hdead

omit [DecidableEq κ] in
/-- The destructor of `k` ends and leaves a map without it. -/
theorem Exact.finish (h : Exact alive entries key strong doomed) {k : κ} (hk : doomed k)
    {entries' : AList (fun _ : α => κ)} {doomed' : κ → Prop}
    (hentries : ∀ x k', entries'.lookup x = some k' ↔ entries.lookup x = some k' ∧ k' ≠ k)
    (hempty : entries = ∅ → entries' = ∅) (hsub : ∀ k', doomed' k' → doomed k')
    (hkeep : ∀ k', k' ≠ k → doomed k' → doomed' k') :
    Exact alive entries' key strong doomed' where
  keyed := h.keyed
  registered := by
    intro ha x k' hk' hkey
    refine (hentries x k').mpr ⟨h.registered ha x k' hk' hkey, ?_⟩
    rintro rfl
    have := (h.dead k' hk).1
    omega
  unique := h.unique
  dead := fun k' hk' => h.dead k' (hsub k' hk')
  present := by
    intro x k' hx
    obtain ⟨hx, hne⟩ := (hentries x k').mp hx
    obtain ⟨hkey, hlive⟩ := h.present x k' hx
    exact ⟨hkey, hlive.imp_right (hkeep k' hne)⟩
  gone := fun ha => hempty (h.gone ha)

omit [DecidableEq κ] in
/-- The map itself goes. -/
theorem Exact.forget (h : Exact alive entries key strong doomed) :
    Exact false (∅ : AList (fun _ : α => κ)) key strong doomed where
  keyed := h.keyed
  registered := nofun
  unique := h.unique
  dead := h.dead
  present := fun x k hx => by cases hx
  gone := fun _ => rfl

end WeakMap
