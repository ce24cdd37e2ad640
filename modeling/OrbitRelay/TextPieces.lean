import OrbitRelay.TextFind
import OrbitRelay.TextLines

/-!
# Texts between separators

What the pieces of a text are made of that splits at a character, and what trimming
leaves of them.
-/
namespace Text

theorem splitUpTo_pieces {c : Char} {fuel : Nat} {s : Str} (h : s.count c ≤ fuel) :
    ∀ piece ∈ splitUpTo [c] fuel s, c ∉ piece ∧ piece ⊆ s := by
  induction fuel generalizing s with
  | zero =>
    intro piece hpiece
    rw [List.mem_singleton.mp hpiece]
    exact ⟨List.count_eq_zero.mp (Nat.le_zero.mp h), List.Subset.refl s⟩
  | succ fuel ih =>
    by_cases hc : c ∈ s
    · obtain ⟨before, after, rfl, hbefore⟩ := exists_first hc
      rw [splitUpTo, splitOnce_char hbefore]
      rw [List.count_append, List.count_cons_self] at h
      intro piece hpiece
      rcases List.mem_cons.mp hpiece with rfl | hpiece
      · exact ⟨hbefore, List.subset_append_left _ _⟩
      · obtain ⟨hnot, hsub⟩ := ih (by omega) piece hpiece
        exact ⟨hnot, fun d hd => List.mem_append_right _ (List.mem_cons_of_mem c (hsub hd))⟩
    · rw [splitUpTo, splitOnce_none hc]
      intro piece hpiece
      rw [List.mem_singleton.mp hpiece]
      exact ⟨hc, List.Subset.refl s⟩

theorem mem_split {c : Char} {s piece : Str} (h : piece ∈ split [c] s) : c ∉ piece ∧ piece ⊆ s :=
  splitUpTo_pieces List.count_le_length piece h

theorem trim_subset (s : Str) : trim s ⊆ s := by
  intro c hc
  exact (List.dropWhile_suffix _).subset ((List.rdropWhile_prefix _ _).subset hc)

theorem dropWhile_rdropWhile {p : Char → Bool} {s : Str} (h : s.dropWhile p = s) :
    (s.rdropWhile p).dropWhile p = s.rdropWhile p := by
  cases hr : s.rdropWhile p with
  | nil => rfl
  | cons c rest =>
    obtain ⟨tail, htail⟩ := List.rdropWhile_prefix p s
    rw [hr, List.cons_append] at htail
    rw [← htail] at h
    by_cases hc : p c = true
    · rw [List.dropWhile_cons_of_pos hc] at h
      have hshort := (List.dropWhile_suffix (l := rest ++ tail) p).length_le
      rw [h, List.length_cons] at hshort
      omega
    · exact List.dropWhile_cons_of_neg hc

theorem trim_trim (s : Str) : trim (trim s) = trim s := by
  unfold trim
  rw [dropWhile_rdropWhile (List.dropWhile_idempotent _ _), List.rdropWhile_idempotent]

theorem mem_intercalate {separator : Str} {c : Char} {pieces : List Str} (h : c ∈ separator.intercalate pieces) :
    c ∈ separator ∨ ∃ piece ∈ pieces, c ∈ piece := by
  induction pieces with
  | nil => cases h
  | cons piece pieces ih =>
    cases pieces with
    | nil =>
      rw [List.intercalate_singleton] at h
      exact .inr ⟨piece, List.mem_cons_self, h⟩
    | cons next pieces =>
      rw [List.intercalate_cons_cons, List.mem_append, List.mem_append] at h
      rcases h with (h | h) | h
      · exact .inr ⟨piece, List.mem_cons_self, h⟩
      · exact .inl h
      · rcases ih h with hseparator | ⟨other, hother, hc⟩
        · exact .inl hseparator
        · exact .inr ⟨other, List.mem_cons_of_mem piece hother, hc⟩

end Text
