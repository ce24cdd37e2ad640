import OrbitRelay.Text

/-!
# Texts in lines, and where their bytes split

A byte of the ASCII range stands for its character wherever it occurs in the UTF-8
form of a text. A text that is put together from pieces and a separator splits into
those pieces, if the first character of the separator occurs in none of them.
-/
namespace Text

/-! ## Bytes -/

theorem le_or (a : UInt8) {b : UInt8} (hb : 128 ≤ b.toNat) : 128 ≤ (a ||| b).toNat := by
  rw [UInt8.toNat_or]
  exact hb.trans Nat.right_le_or

/-- The bytes of a character outside the ASCII range are outside it as well. -/
theorem utf8EncodeChar_high {c : Char} (h : isAscii c = false) :
    ∀ b ∈ String.utf8EncodeChar c, 128 ≤ b.toNat := by
  have hsize : c.utf8Size ≠ 1 := by
    intro hone
    have hascii : isAscii c = true := by simpa [isAscii] using Char.utf8Size_eq_one_iff.mp hone
    rw [h] at hascii
    cases hascii
  rcases c.utf8Size_eq with hone | htwo | hthree | hfour
  · exact absurd hone hsize
  · rw [String.utf8EncodeChar_eq_cons_cons htwo]
    intro b hb
    simp only [List.mem_cons, List.not_mem_nil, or_false] at hb
    rcases hb with rfl | rfl <;> exact le_or _ (by decide)
  · rw [String.utf8EncodeChar_eq_cons_cons_cons hthree]
    intro b hb
    simp only [List.mem_cons, List.not_mem_nil, or_false] at hb
    rcases hb with rfl | rfl | rfl <;> exact le_or _ (by decide)
  · rw [String.utf8EncodeChar_eq_cons_cons_cons_cons hfour]
    intro b hb
    simp only [List.mem_cons, List.not_mem_nil, or_false] at hb
    rcases hb with rfl | rfl | rfl | rfl <;> exact le_or _ (by decide)

theorem ascii_byte {c : Char} (h : isAscii c = true) : c.val.toUInt8.toNat < 128 := by
  have hle : c.val.toNat ≤ 127 := by simpa [isAscii, UInt32.le_iff_toNat_le] using h
  rw [UInt32.toNat_toUInt8]
  omega

theorem ascii_byte_inj {c d : Char} (hc : isAscii c = true) (hd : isAscii d = true)
    (h : c.val.toUInt8 = d.val.toUInt8) : c = d := by
  have hcle : c.val.toNat ≤ 127 := by simpa [isAscii, UInt32.le_iff_toNat_le] using hc
  have hdle : d.val.toNat ≤ 127 := by simpa [isAscii, UInt32.le_iff_toNat_le] using hd
  have hnat := congrArg UInt8.toNat h
  rw [UInt32.toNat_toUInt8, UInt32.toNat_toUInt8] at hnat
  apply Char.ext
  apply UInt32.toNat_inj.mp
  omega

/-- The bytes of a text split at an ASCII byte where the text splits at its character. -/
theorem utf8_eq_append_cons {s : Str} {c : Char} (hc : isAscii c = true) {a b : List UInt8}
    (h : utf8 s = a ++ c.val.toUInt8 :: b) : ∃ x y, s = x ++ c :: y ∧ utf8 x = a ∧ utf8 y = b := by
  induction s generalizing a with
  | nil => simp at h
  | cons d s ih =>
    rw [utf8_cons] at h
    cases hd : isAscii d with
    | true =>
      rw [utf8EncodeChar_ascii hd, List.singleton_append] at h
      cases a with
      | nil =>
        obtain ⟨hbyte, hrest⟩ := List.cons.inj h
        exact ⟨[], s, by rw [ascii_byte_inj hd hc hbyte, List.nil_append], rfl, hrest⟩
      | cons k a =>
        obtain ⟨hbyte, hrest⟩ := List.cons.inj h
        obtain ⟨x, y, hs, hx, hy⟩ := ih hrest
        refine ⟨d :: x, y, by rw [hs, List.cons_append], ?_, hy⟩
        rw [utf8_cons, utf8EncodeChar_ascii hd, hx, hbyte, List.singleton_append]
    | false =>
      rcases List.append_eq_append_iff.mp h with ⟨m, ha, hm⟩ | ⟨m, ha, hm⟩
      · obtain ⟨x, y, hs, hx, hy⟩ := ih hm
        exact ⟨d :: x, y, by rw [hs, List.cons_append], by rw [utf8_cons, hx, ha], hy⟩
      · cases m with
        | nil =>
          obtain ⟨x, y, hs, hx, hy⟩ := ih (a := []) hm.symm
          refine ⟨d :: x, y, by rw [hs, List.cons_append], ?_, hy⟩
          rw [utf8_cons, hx, ha, List.append_nil, List.append_nil]
        | cons k m =>
          obtain ⟨hbyte, -⟩ := List.cons.inj hm
          have hmem : c.val.toUInt8 ∈ String.utf8EncodeChar d := by
            rw [ha, hbyte]
            exact List.mem_append_right a List.mem_cons_self
          have hhigh := utf8EncodeChar_high hd _ hmem
          have hlow := ascii_byte hc
          omega

theorem utf8_eq_nil {s : Str} (h : utf8 s = []) : s = [] := by
  cases s with
  | nil => rfl
  | cons c s =>
    have hlength := congrArg List.length h
    rw [utf8_cons, List.length_append, String.length_utf8EncodeChar] at hlength
    have hpos := c.utf8Size_pos
    simp only [List.length_nil] at hlength
    omega

theorem utf8_eq_append {t : Str} (ht : ∀ c ∈ t, isAscii c = true) {s : Str} {b : List UInt8}
    (h : utf8 s = utf8 t ++ b) : ∃ y, s = t ++ y ∧ utf8 y = b := by
  induction t generalizing s with
  | nil => exact ⟨s, rfl, h⟩
  | cons c t ih =>
    have hc := ht c List.mem_cons_self
    rw [utf8_cons, utf8EncodeChar_ascii hc] at h
    obtain ⟨x, y, rfl, hx, hy⟩ := utf8_eq_append_cons (a := []) hc h
    obtain ⟨z, rfl, hz⟩ := ih (fun d hd => ht d (List.mem_cons_of_mem c hd)) hy
    rw [utf8_eq_nil hx]
    exact ⟨z, rfl, hz⟩

/-- An ASCII text that occurs in the bytes of a text occurs there in the text. -/
theorem utf8_eq_append_append {c : Char} {t : Str} (ht : ∀ d ∈ c :: t, isAscii d = true) {s : Str}
    {a b : List UInt8} (h : utf8 s = a ++ utf8 (c :: t) ++ b) :
    ∃ x y, s = x ++ (c :: t) ++ y ∧ utf8 x = a ∧ utf8 y = b := by
  have hc := ht c List.mem_cons_self
  rw [utf8_cons, utf8EncodeChar_ascii hc, List.append_assoc, List.append_assoc, List.singleton_append] at h
  obtain ⟨x, y, rfl, hx, hy⟩ := utf8_eq_append_cons hc h
  obtain ⟨z, rfl, hz⟩ := utf8_eq_append (fun d hd => ht d (List.mem_cons_of_mem c hd)) hy
  exact ⟨x, z, by simp, hx, hz⟩

theorem utf8_fromUtf8 {bytes : List UInt8} {s : Str} (h : fromUtf8 bytes = some s) : utf8 s = bytes := by
  obtain ⟨chars, hchars, rfl⟩ := Option.map_eq_some_iff.mp h
  have hsome : bytes.toByteArray.utf8Decode?.isSome = true := by
    rw [hchars]
    rfl
  have hencode := ByteArray.utf8Encode_get_utf8Decode? (h := hsome)
  simp only [hchars, Option.get_some] at hencode
  exact List.toByteArray_inj.mp hencode

theorem fromUtf8_eq_some {bytes : List UInt8} {s : Str} : fromUtf8 bytes = some s ↔ utf8 s = bytes := by
  constructor
  · exact utf8_fromUtf8
  · rintro rfl
    exact fromUtf8_utf8 s

/-- Bytes that go on behind an ASCII text are read piece by piece. -/
theorem fromUtf8_append {c : Char} {t : Str} (ht : ∀ d ∈ c :: t, isAscii d = true) {a b : List UInt8} {s : Str} :
    fromUtf8 (a ++ utf8 (c :: t) ++ b) = some s ↔
      ∃ x y, s = x ++ (c :: t) ++ y ∧ fromUtf8 a = some x ∧ fromUtf8 b = some y := by
  constructor
  · intro h
    obtain ⟨x, y, hs, rfl, rfl⟩ := utf8_eq_append_append ht (utf8_fromUtf8 h)
    exact ⟨x, y, hs, fromUtf8_utf8 x, fromUtf8_utf8 y⟩
  · rintro ⟨x, y, rfl, hx, hy⟩
    rw [fromUtf8_eq_some, utf8_append, utf8_append, utf8_fromUtf8 hx, utf8_fromUtf8 hy]

/-! ## Pieces -/

variable {c : Char} {t : Str}

/-- A piece without the first character of the separator is passed over. -/
theorem splitOnce_pass {before : Str} (h : c ∉ before) (rest : Str) :
    splitOnce (c :: t) (before ++ rest) =
      (splitOnce (c :: t) rest).map (fun p => (before ++ p.1, p.2)) := by
  induction before with
  | nil =>
    rw [List.nil_append]
    exact Option.map_id'.symm
  | cons d before ih =>
    have hd : ¬ c :: t <+: d :: (before ++ rest) := by
      rw [List.cons_prefix_cons]
      rintro ⟨rfl, -⟩
      exact h List.mem_cons_self
    rw [List.cons_append, splitOnce, if_neg hd, ih fun hmem => h (List.mem_cons_of_mem d hmem), Option.map_map]
    rfl

theorem splitOnce_here (rest : Str) : splitOnce (c :: t) (c :: t ++ rest) = some ([], rest) := by
  have hprefix : c :: t <+: c :: (t ++ rest) := List.prefix_append (c :: t) rest
  rw [List.cons_append, splitOnce, if_pos hprefix, ← List.cons_append, List.drop_left]

theorem splitOnce_piece {before : Str} (h : c ∉ before) (rest : Str) :
    splitOnce (c :: t) (before ++ (c :: t ++ rest)) = some (before, rest) := by
  rw [splitOnce_pass h, splitOnce_here, Option.map_some, List.append_nil]

theorem splitOnce_none {s : Str} (h : c ∉ s) : splitOnce (c :: t) s = none := by
  have hpass := splitOnce_pass (t := t) h []
  rw [List.append_nil] at hpass
  rw [hpass]
  simp [splitOnce]

theorem splitOnce_append {separator s before after : Str} (h : splitOnce separator s = some (before, after)) :
    s = before ++ separator ++ after := by
  induction s generalizing before with
  | nil =>
    unfold splitOnce at h
    split at h
    · rename_i hnil
      cases h
      rw [hnil]
      rfl
    · cases h
  | cons d s ih =>
    unfold splitOnce at h
    split at h
    · rename_i hprefix
      obtain ⟨rest, hrest⟩ := hprefix
      cases h
      rw [← hrest, List.drop_left]
      rfl
    · obtain ⟨⟨front, rest⟩, hp, hcons⟩ := Option.map_eq_some_iff.mp h
      cases hcons
      rw [ih hp]
      rfl

theorem splitOnce_found (separator x y : Str) : ∃ p, splitOnce separator (x ++ separator ++ y) = some p := by
  induction x with
  | nil =>
    rw [List.nil_append]
    cases hs : separator ++ y with
    | nil =>
      obtain ⟨rfl, -⟩ := List.append_eq_nil_iff.mp hs
      exact ⟨_, rfl⟩
    | cons d s =>
      have hprefix : separator <+: d :: s := ⟨y, hs⟩
      exact ⟨_, by rw [splitOnce, if_pos hprefix]⟩
  | cons d x ih =>
    obtain ⟨p, hp⟩ := ih
    rw [List.append_assoc] at hp
    rw [List.cons_append, List.cons_append, List.append_assoc, splitOnce]
    split
    · exact ⟨_, rfl⟩
    · rw [hp]
      exact ⟨_, rfl⟩

/-- The first occurrence is the one that is found. -/
theorem splitOnce_first {separator s before after : Str} (h : splitOnce separator s = some (before, after))
    {x y : Str} (hs : s = x ++ separator ++ y) : before.length ≤ x.length := by
  induction s generalizing before x with
  | nil =>
    unfold splitOnce at h
    split at h
    · cases h
      exact Nat.zero_le _
    · cases h
  | cons d s ih =>
    unfold splitOnce at h
    split at h
    · cases h
      exact Nat.zero_le _
    · rename_i hprefix
      obtain ⟨p, hp, hcons⟩ := Option.map_eq_some_iff.mp h
      cases x with
      | nil =>
        rw [List.nil_append] at hs
        exact absurd ⟨y, hs.symm⟩ hprefix
      | cons k x =>
        obtain ⟨front, rest⟩ := p
        cases hcons
        have hshort := ih hp (List.cons.inj hs).2
        simpa using hshort

/-- The pieces of a text that is put together from them. -/
theorem splitUpTo_intercalate {pieces : List Str} (hne : pieces ≠ []) (h : ∀ piece ∈ pieces, c ∉ piece)
    {fuel : Nat} (hfuel : pieces.length ≤ fuel + 1) :
    splitUpTo (c :: t) fuel ((c :: t).intercalate pieces) = pieces := by
  induction pieces generalizing fuel with
  | nil => exact absurd rfl hne
  | cons piece pieces ih =>
    have hpiece := h piece List.mem_cons_self
    cases pieces with
    | nil =>
      rw [List.intercalate_singleton]
      cases fuel with
      | zero => rfl
      | succ fuel => simp only [splitUpTo, splitOnce_none hpiece]
    | cons next pieces =>
      cases fuel with
      | zero => simp at hfuel
      | succ fuel =>
        rw [List.intercalate_cons_cons, List.append_assoc]
        simp only [splitUpTo, splitOnce_piece hpiece]
        rw [ih (by simp) (fun x hx => h x (List.mem_cons_of_mem piece hx)) (by simpa using hfuel)]

theorem intercalate_head (separator piece : Str) (pieces : List Str) :
    ∃ rest, separator.intercalate (piece :: pieces) = piece ++ rest := by
  cases pieces with
  | nil => exact ⟨[], by rw [List.intercalate_singleton, List.append_nil]⟩
  | cons next pieces => exact ⟨_, by rw [List.intercalate_cons_cons, List.append_assoc]⟩

theorem length_intercalate (pieces : List Str) :
    pieces.length ≤ ((c :: t).intercalate pieces).length + 1 := by
  induction pieces with
  | nil => simp
  | cons piece pieces ih =>
    cases pieces with
    | nil => simp
    | cons next pieces =>
      rw [List.intercalate_cons_cons]
      simp only [List.length_cons, List.length_append] at ih ⊢
      omega

theorem split_intercalate {pieces : List Str} (hne : pieces ≠ []) (h : ∀ piece ∈ pieces, c ∉ piece) :
    split (c :: t) ((c :: t).intercalate pieces) = pieces :=
  splitUpTo_intercalate hne h (length_intercalate pieces)

/-! ## Words and blanks -/

/-- A text that `split_whitespace` leaves whole. -/
structure IsWord (s : Str) : Prop where
  nonempty : s ≠ []
  solid : ∀ c ∈ s, isWhitespace c = false

theorem isWord_iff (s : Str) : (s ≠ [] ∧ s.all (fun c => !isWhitespace c) = true) ↔ IsWord s := by
  constructor
  · rintro ⟨hne, hall⟩
    exact ⟨hne, fun c hc => Bool.not_eq_true' _ ▸ List.all_eq_true.mp hall c hc⟩
  · intro h
    exact ⟨h.nonempty, List.all_eq_true.mpr (fun c hc => by rw [h.solid c hc]; rfl)⟩

instance (s : Str) : Decidable (IsWord s) := decidable_of_iff _ (isWord_iff s)

theorem IsWord.splitWhitespace {s : Str} (h : IsWord s) : splitWhitespace s = [s] := by
  unfold Text.splitWhitespace
  rw [List.splitOnP_eq_singleton h.solid, List.filter_cons_of_pos (by simpa using h.nonempty), List.filter_nil]

theorem IsWord.splitWhitespace_append {s : Str} (h : IsWord s) {blank : Char} (hblank : isWhitespace blank = true)
    (rest : Str) : Text.splitWhitespace (s ++ blank :: rest) = s :: Text.splitWhitespace rest := by
  unfold Text.splitWhitespace
  rw [List.splitOnP_append_cons_of_forall_mem h.solid blank hblank,
    List.filter_cons_of_pos (by simpa using h.nonempty)]

theorem trim_append {pad : Str} (hpad : ∀ c ∈ pad, isWhitespace c = true) (s : Str) : trim (pad ++ s) = trim s := by
  unfold trim
  rw [List.dropWhile_append_of_pos hpad]

end Text
