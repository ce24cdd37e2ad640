import OrbitRelay.TextLines

/-!
# Positions in texts

The functions of `str` that count in bytes, and slices that panic where no
character begins.
-/
namespace Text

/-- `str::find` of a character. -/
def find (c : Char) : Str → Option Nat
  | [] => none
  | d :: s => if d = c then some 0 else (find c s).map (d.utf8Size + ·)

/-- `&s[..n]`. -/
def sliceTo : Nat → Str → Option Str
  | 0, _ => some []
  | _ + 1, [] => none
  | n + 1, c :: s => if c.utf8Size ≤ n + 1 then (sliceTo (n + 1 - c.utf8Size) s).map (c :: ·) else none

/-- `&s[n..]`. -/
def sliceFrom : Nat → Str → Option Str
  | 0, s => some s
  | _ + 1, [] => none
  | n + 1, c :: s => if c.utf8Size ≤ n + 1 then sliceFrom (n + 1 - c.utf8Size) s else none

/-- `str::rsplit_once` of a character. -/
def rsplitOnce (c : Char) (s : Str) : Option (Str × Str) :=
  (splitOnce [c] s.reverse).map fun (after, before) => (before.reverse, after.reverse)

/-- `str::trim_matches`. -/
def trimMatches (p : Char → Bool) (s : Str) : Str := (s.dropWhile p).rdropWhile p

/-- `str::trim_end_matches`. -/
def trimEndMatches (p : Char → Bool) (s : Str) : Str := s.rdropWhile p

@[simp] theorem len_nil : len [] = 0 := rfl

@[simp] theorem len_cons (c : Char) (s : Str) : len (c :: s) = c.utf8Size + len s := by
  rw [len, utf8_cons, List.length_append, String.length_utf8EncodeChar]
  rfl

theorem len_append (s t : Str) : len (s ++ t) = len s + len t := by
  rw [len, utf8_append, List.length_append]
  rfl

variable {c : Char}

/-- A slice that ends where a character begins. -/
theorem sliceTo_append (x y : Str) : sliceTo (len x) (x ++ y) = some x := by
  induction x with
  | nil => rw [len_nil, sliceTo]
  | cons d x ih =>
    have hpos := d.utf8Size_pos
    rw [len_cons]
    obtain ⟨n, hn⟩ : ∃ n, d.utf8Size + len x = n + 1 := ⟨d.utf8Size + len x - 1, by omega⟩
    have hrest : n + 1 - d.utf8Size = len x := by omega
    rw [hn, List.cons_append, sliceTo, if_pos (by omega), hrest, ih, Option.map_some]

/-- A slice that starts where a character begins. -/
theorem sliceFrom_append (x y : Str) : sliceFrom (len x) (x ++ y) = some y := by
  induction x with
  | nil => rw [len_nil, sliceFrom, List.nil_append]
  | cons d x ih =>
    have hpos := d.utf8Size_pos
    rw [len_cons]
    obtain ⟨n, hn⟩ : ∃ n, d.utf8Size + len x = n + 1 := ⟨d.utf8Size + len x - 1, by omega⟩
    have hrest : n + 1 - d.utf8Size = len x := by omega
    rw [hn, List.cons_append, sliceFrom, if_pos (by omega), hrest, ih]

theorem find_append {before : Str} (h : c ∉ before) (after : Str) :
    find c (before ++ c :: after) = some (len before) := by
  induction before with
  | nil => rw [List.nil_append, find, if_pos rfl, len_nil]
  | cons d before ih =>
    obtain ⟨hne, hmem⟩ := not_or.mp (List.mem_cons.not.mp h)
    rw [List.cons_append, find, if_neg (Ne.symm hne), ih hmem, Option.map_some, len_cons]

theorem find_none {s : Str} (h : c ∉ s) : find c s = none := by
  induction s with
  | nil => rfl
  | cons d s ih =>
    obtain ⟨hne, hmem⟩ := not_or.mp (List.mem_cons.not.mp h)
    rw [find, if_neg (Ne.symm hne), ih hmem, Option.map_none]

theorem rsplitOnce_char {after : Str} (h : c ∉ after) (before : Str) :
    rsplitOnce c (before ++ c :: after) = some (before, after) := by
  have hreverse : (before ++ c :: after).reverse = after.reverse ++ c :: before.reverse := by simp
  rw [rsplitOnce, hreverse, splitOnce_char (by simpa using h), Option.map_some]
  simp

theorem rsplitOnce_none {s : Str} (h : c ∉ s) : rsplitOnce c s = none := by
  rw [rsplitOnce, splitOnce_none (by simpa using h), Option.map_none]

theorem exists_first {s : Str} (h : c ∈ s) : ∃ before after, s = before ++ c :: after ∧ c ∉ before := by
  obtain ⟨before, after, hs, hnot⟩ := List.eq_append_cons_of_mem h
  exact ⟨before, after, hs, hnot⟩

/-- A character first occurs in one place. -/
theorem first_unique {x y x' y' : Str} (hx : c ∉ x) (hx' : c ∉ x') (h : x ++ c :: y = x' ++ c :: y') :
    x = x' ∧ y = y' := by
  have hsplit := splitOnce_char hx y
  rw [h, splitOnce_char hx'] at hsplit
  cases hsplit
  exact ⟨rfl, rfl⟩

/-- The last character that does not match is where the trimming ends. -/
theorem trimEndMatches_append {p : Char → Bool} {s tail : Str} (hc : p c = false) (htail : ∀ d ∈ tail, p d = true) :
    trimEndMatches p (s ++ [c] ++ tail) = s ++ [c] := by
  have hdrop : (tail.reverse ++ c :: s.reverse).dropWhile p = c :: s.reverse := by
    rw [List.dropWhile_append_of_pos (by simpa using htail), List.dropWhile_cons_of_neg (by simp [hc])]
  have hreverse : (s ++ [c] ++ tail).reverse = tail.reverse ++ c :: s.reverse := by simp
  rw [trimEndMatches, List.rdropWhile, hreverse, hdrop]
  simp

end Text
