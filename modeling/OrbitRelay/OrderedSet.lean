import Mathlib.Data.List.Sort
import Mathlib.Data.List.Dedup

/-!
# Ordered sets

A finite set kept as the strictly increasing list of its elements, so that two
sets with the same elements are equal and going through a set has one order.
-/
structure OrderedSet (α : Type*) [LT α] where
  elements : List α
  sorted : elements.Pairwise (· < ·)
  deriving DecidableEq

namespace OrderedSet

variable {α : Type*} [LinearOrder α]

def ofList (l : List α) : OrderedSet α where
  elements := l.dedup.insertionSort (· ≤ ·)
  sorted := by
    have hsorted : (l.dedup.insertionSort (· ≤ ·)).Pairwise (· ≤ ·) := List.pairwise_insertionSort _ _
    have hnodup : (l.dedup.insertionSort (· ≤ ·)).Nodup :=
      (List.perm_insertionSort _ _).nodup_iff.mpr (List.nodup_dedup l)
    exact hsorted.imp₂ (fun _ _ => lt_of_le_of_ne) hnodup

@[simp] theorem mem_ofList {l : List α} {a : α} : a ∈ (ofList l).elements ↔ a ∈ l := by
  simp [ofList]

theorem nodup (s : OrderedSet α) : s.elements.Nodup := s.sorted.imp ne_of_lt

theorem ext {s t : OrderedSet α} (h : ∀ a, a ∈ s.elements ↔ a ∈ t.elements) : s = t := by
  have hperm : s.elements.Perm t.elements := (List.perm_ext_iff_of_nodup s.nodup t.nodup).mpr h
  have heq : s.elements = t.elements :=
    hperm.eq_of_pairwise (fun a b _ _ hab hba => absurd hab (lt_asymm hba)) s.sorted t.sorted
  cases s
  cases t
  cases heq
  rfl

theorem ofList_eq {l : List α} {s : OrderedSet α} (h : ∀ a, a ∈ l ↔ a ∈ s.elements) : ofList l = s := by
  apply ext
  intro a
  rw [mem_ofList, h]

end OrderedSet
