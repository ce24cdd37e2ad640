import Mathlib.Data.List.Infix
import Mathlib.Data.List.Nodup

/-!
# Keeping first occurrences

A consumer that applies each key once: an element joins the applied list unless
its key is there already. The applied list only grows at its end, so what it
becomes does not depend on how much of it was known beforehand.
-/
namespace Dedup

variable {α κ : Type*} [DecidableEq κ] {key : α → κ}

/-- Apply the elements in order, on top of those applied before. -/
def merge (key : α → κ) (applied : List α) : List α → List α
  | [] => applied
  | x :: xs => if key x ∈ applied.map key then merge key applied xs
    else merge key (applied ++ [x]) xs

/-- First occurrences only. -/
def dedup (key : α → κ) (xs : List α) : List α := merge key [] xs

@[simp] theorem merge_nil (applied : List α) : merge key applied [] = applied := rfl

theorem merge_cons_seen {applied : List α} {x : α} (h : key x ∈ applied.map key) (xs : List α) :
    merge key applied (x :: xs) = merge key applied xs := by
  rw [merge, if_pos h]

theorem merge_cons_new {applied : List α} {x : α} (h : key x ∉ applied.map key) (xs : List α) :
    merge key applied (x :: xs) = merge key (applied ++ [x]) xs := by
  rw [merge, if_neg h]

theorem merge_append (applied xs ys : List α) :
    merge key applied (xs ++ ys) = merge key (merge key applied xs) ys := by
  induction xs generalizing applied with
  | nil => rfl
  | cons x xs ih =>
    by_cases h : key x ∈ applied.map key
    · rw [List.cons_append, merge_cons_seen h, merge_cons_seen h, ih]
    · rw [List.cons_append, merge_cons_new h, merge_cons_new h, ih]

theorem prefix_merge (applied xs : List α) : applied <+: merge key applied xs := by
  induction xs generalizing applied with
  | nil => exact List.prefix_refl _
  | cons x xs ih =>
    by_cases h : key x ∈ applied.map key
    · rw [merge_cons_seen h]
      exact ih applied
    · rw [merge_cons_new h]
      exact (List.prefix_append applied [x]).trans (ih _)

/-- Elements whose keys are there already change nothing. -/
theorem merge_seen {applied xs : List α} (h : ∀ x ∈ xs, key x ∈ applied.map key) :
    merge key applied xs = applied := by
  induction xs with
  | nil => rfl
  | cons x xs ih =>
    rw [merge_cons_seen (h x List.mem_cons_self)]
    exact ih (fun y hy => h y (List.mem_cons_of_mem x hy))

/-- Distinct new elements are all applied. -/
theorem merge_nodup {applied xs : List α} (h : ((applied ++ xs).map key).Nodup) :
    merge key applied xs = applied ++ xs := by
  induction xs generalizing applied with
  | nil => simp
  | cons x xs ih =>
    have hx : key x ∉ applied.map key := by
      rw [List.map_append, List.nodup_append] at h
      intro hmem
      exact h.2.2 _ hmem _ (by simp) rfl
    rw [merge_cons_new hx, ih (by simpa using h)]
    simp

theorem dedup_append_of_nodup {xs : List α} (h : (xs.map key).Nodup) (ys : List α) :
    dedup key (xs ++ ys) = merge key xs ys := by
  have hxs : merge key [] xs = xs := merge_nodup (by simpa using h)
  rw [dedup, merge_append, hxs]

theorem nodup_merge {applied : List α} (h : (applied.map key).Nodup) (xs : List α) :
    ((merge key applied xs).map key).Nodup := by
  induction xs generalizing applied with
  | nil => exact h
  | cons x xs ih =>
    by_cases hx : key x ∈ applied.map key
    · rw [merge_cons_seen hx]
      exact ih h
    · rw [merge_cons_new hx]
      refine ih ?_
      rw [List.map_append, List.nodup_append]
      refine ⟨h, by simp, ?_⟩
      intro a ha b hb hab
      have hb' : b = key x := by simpa using hb
      exact hx (hb' ▸ hab ▸ ha)

/-- A part of the elements that the keys determine is merged on its own. -/
theorem filter_merge {p : α → Bool} {applied xs : List α}
    (h : ∀ x ∈ applied ++ xs, ∀ y ∈ applied ++ xs, key x = key y → p x = p y) :
    (merge key applied xs).filter p = merge key (applied.filter p) (xs.filter p) := by
  induction xs generalizing applied with
  | nil => rfl
  | cons x xs ih =>
    have hx : x ∈ applied ++ x :: xs := by simp
    have hold : ∀ y ∈ applied, y ∈ applied ++ x :: xs := fun y hy => List.mem_append_left _ hy
    have hsub : ∀ y ∈ applied ++ xs, y ∈ applied ++ x :: xs := by
      intro y hy
      simp only [List.mem_append, List.mem_cons] at hy ⊢
      exact hy.imp_right .inr
    by_cases hseen : key x ∈ applied.map key
    · rw [merge_cons_seen hseen, ih (fun y hy z hz => h y (hsub y hy) z (hsub z hz))]
      cases hp : p x with
      | false => rw [List.filter_cons_of_neg (by simp [hp])]
      | true =>
        have hseen' : key x ∈ (applied.filter p).map key := by
          obtain ⟨y, hy, hk⟩ := List.mem_map.mp hseen
          have hpy : p y = true := (h y (hold y hy) x hx hk).trans hp
          exact List.mem_map.mpr ⟨y, List.mem_filter.mpr ⟨hy, hpy⟩, hk⟩
        rw [List.filter_cons_of_pos hp, merge_cons_seen hseen']
    · have hperm : ∀ y, y ∈ applied ++ [x] ++ xs ↔ y ∈ applied ++ x :: xs := by simp
      rw [merge_cons_new hseen, ih (fun y hy z hz => h y ((hperm y).mp hy) z ((hperm z).mp hz)),
        List.filter_append]
      cases hp : p x with
      | false => simp [hp]
      | true =>
        have hnew : key x ∉ (applied.filter p).map key := by
          intro hmem
          obtain ⟨y, hy, hk⟩ := List.mem_map.mp hmem
          exact hseen (List.mem_map.mpr ⟨y, (List.mem_filter.mp hy).1, hk⟩)
        have hxs : (x :: xs).filter p = x :: xs.filter p := List.filter_cons_of_pos hp
        rw [hxs, merge_cons_new hnew]
        simp [hp]

/-- Knowing more of the outcome beforehand does not change it. -/
theorem merge_of_prefix {applied known xs out : List α} (h : merge key applied xs = out)
    (hap : applied <+: known) (hko : known <+: out) : merge key known xs = out := by
  induction xs generalizing applied known with
  | nil =>
    rw [merge_nil] at h
    subst h
    exact hko.eq_of_length (Nat.le_antisymm hko.length_le hap.length_le)
  | cons x xs ih =>
    by_cases hseen : key x ∈ applied.map key
    · rw [merge_cons_seen hseen] at h
      have hseen' : key x ∈ known.map key := (hap.map key).subset hseen
      rw [merge_cons_seen hseen']
      exact ih h hap hko
    · rw [merge_cons_new hseen] at h
      have hxo : applied ++ [x] <+: out := h ▸ prefix_merge _ xs
      rcases List.prefix_or_prefix_of_prefix hxo hko with hle | hle
      · have hmem : x ∈ known := hle.subset (by simp)
        rw [merge_cons_seen (List.mem_map_of_mem hmem)]
        exact ih h hle hko
      · rcases List.prefix_concat_iff.mp hle with rfl | hle
        · rw [merge_cons_seen (by simp)]
          exact h
        · have hsame := hap.eq_of_length (Nat.le_antisymm hap.length_le hle.length_le)
          subst hsame
          rw [merge_cons_new hseen]
          exact h

end Dedup
