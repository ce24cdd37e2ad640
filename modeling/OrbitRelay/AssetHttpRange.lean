import OrbitRelay.AssetHttpSlice
import OrbitRelay.TextLines

/-!
# Malformed Range headers

The grammar of a single byte range over all texts, against `parse_range`, which
recognises it in the middle of its checks with the integer parser of the standard
library.
-/
namespace OrbitRelay.AssetHttp

open Codec MachineInt Text

/-! ## The grammar -/

def AllDigits (s : Str) : Prop := ∀ c ∈ s, c.isDigit = true

def Digits (s : Str) : Prop := s ≠ [] ∧ AllDigits s

/-- `bytes=`, then a first position, a hyphen and perhaps a last position, or a hyphen and a length. -/
inductive RangeSyntax : Str → Prop
  | positions {first last : Str} : Digits first → AllDigits last →
      RangeSyntax ("bytes=".toList ++ (first ++ '-' :: last))
  | suffix {length : Str} : Digits length → RangeSyntax ("bytes=".toList ++ ([] ++ '-' :: length))

/-- A range with positions of any magnitude. -/
def RangeSpec.Writes : RangeSpec → Str → Prop
  | .span first last, value => ∃ a b, value = "bytes=".toList ++ (a ++ '-' :: b) ∧ decimal a = some first ∧
      decimal b = some last
  | .from first, value => ∃ a, value = "bytes=".toList ++ (a ++ ['-']) ∧ decimal a = some first
  | .suffix length, value => ∃ a, value = "bytes=".toList ++ '-' :: a ∧ decimal a = some length

/-- A decimal number beyond 64 bits. -/
def Huge (s : Str) (n : Nat) : Prop := decimal s = some n ∧ u64Max < n

/-- A number of 64 bits with a plus sign. -/
def Signed (s : Str) (n : Nat) : Prop := ∃ digits, s = '+' :: digits ∧ Denotes digits n

theorem digits_iff {s : Str} : Digits s ↔ ∃ n, decimal s = some n := exists_decimal.symm

theorem Digits.not_mem {s : Str} (h : Digits s) {c : Char} (hc : c.isDigit = false) : c ∉ s := by
  obtain ⟨n, hn⟩ := digits_iff.mp h
  exact decimal_not_mem hn hc

theorem Digits.cases {s : Str} (h : Digits s) : ∃ n, Denotes s n ∨ Huge s n := by
  obtain ⟨n, hn⟩ := digits_iff.mp h
  rcases Nat.lt_or_ge u64Max n with hlt | hle
  · exact ⟨n, .inr ⟨hn, hlt⟩⟩
  · exact ⟨n, .inl ⟨hn, hle⟩⟩

theorem Denotes.isDigits {s : Str} {n : Nat} (h : Denotes s n) : Digits s := digits_iff.mpr ⟨n, h.1⟩

theorem Huge.isDigits {s : Str} {n : Nat} (h : Huge s n) : Digits s := digits_iff.mpr ⟨n, h.1⟩

theorem Signed.not_digits {s : Str} {n : Nat} (h : Signed s n) : ¬ AllDigits s := by
  obtain ⟨digits, rfl, -⟩ := h
  intro hall
  exact absurd (hall '+' List.mem_cons_self) (by decide)

/-- The integer parser takes a plus sign, and no number beyond 64 bits. -/
theorem parseU64_eq_some {s : Str} {n : Nat} : parseU64 s = some n ↔ Denotes s n ∨ Signed s n := by
  constructor
  · intro h
    unfold parseU64 at h
    split at h
    · rename_i digits
      obtain ⟨m, hm, h⟩ := Option.bind_eq_some_iff.mp h
      split at h
      · cases h
        exact .inr ⟨digits, rfl, hm, by assumption⟩
      · cases h
    · obtain ⟨m, hm, h⟩ := Option.bind_eq_some_iff.mp h
      split at h
      · cases h
        exact .inl ⟨hm, by assumption⟩
      · cases h
  · rintro (h | ⟨digits, rfl, hdecimal, hle⟩)
    · exact h.parse
    · rw [parseU64, hdecimal, Option.bind_some, if_pos hle]

theorem Huge.parse {s : Str} {n : Nat} (h : Huge s n) : parseU64 s = none := by
  cases hparse : parseU64 s with
  | none => rfl
  | some m =>
    rcases parseU64_eq_some.mp hparse with hdenotes | hsigned
    · obtain rfl := Option.some.inj (h.1.symm.trans hdenotes.1)
      exact absurd hdenotes.2 (not_le.mpr h.2)
    · exact absurd h.isDigits.2 hsigned.not_digits

/-! ## What is misjudged -/

/-- The fields around the hyphen for which a malformed header is served or a well-formed one called malformed: a
number with a plus sign is taken, a number beyond 64 bits is refused, and the last position is not looked at when the
first one is not below the total length. -/
inductive Misread (total : Nat) : Str → Str → Prop
  | signedSuffix {second : Str} {n : Nat} : Signed second n → Misread total [] second
  | hugeSuffix {second : Str} {n : Nat} : Huge second n → Misread total [] second
  | signedFirst {first second : Str} {n : Nat} : Signed first n →
      (n < total → second = [] ∨ (parseU64 second).isSome = true) → Misread total first second
  | hugeFirst {first second : Str} {n : Nat} : Huge first n → AllDigits second → Misread total first second
  | signedLast {first second : Str} {n m : Nat} : Denotes first n → n < total → Signed second m →
      Misread total first second
  | hugeLast {first second : Str} {n m : Nat} : Denotes first n → n < total → Huge second m →
      Misread total first second
  | unreadLast {first second : Str} {n : Nat} : Denotes first n → total ≤ n → ¬ AllDigits second →
      Misread total first second

def Misjudged (total : Nat) (value : Str) : Prop :=
  ∃ first second, value = "bytes=".toList ++ (first ++ '-' :: second) ∧ '-' ∉ first ∧ Misread total first second

/-- Whether the two fields are called malformed. -/
def FieldsMalformed (total : Nat) (first second : Str) : Prop :=
  if first = [] then parseU64 second = none
  else ∀ n, parseU64 first = some n → n < total ∧ second ≠ [] ∧ parseU64 second = none

theorem resolved_not_malformed (first last : Nat) :
    (ResolvedRange.new first last >>= fun range => .ok (some range)) ≠ .error RangeParseError.malformed := by
  unfold ResolvedRange.new
  intro h
  split at h <;> cases h

theorem parseRange_fields {total : Nat} {first second : Str} (hcomma : ',' ∉ first ++ '-' :: second)
    (hdash : '-' ∉ first) :
    parseRange ("bytes=".toList ++ (first ++ '-' :: second)) total = .error .malformed ↔
      FieldsMalformed total first second := by
  simp only [parseRange, stripPrefix_append, okOr_some, ok_bind, if_neg hcomma, splitOnce_char hdash]
  unfold FieldsMalformed
  by_cases hfirst : first = []
  · rw [if_pos hfirst, if_pos hfirst]
    cases hsuffix : parseU64 second with
    | none => simp
    | some suffix =>
      rw [okOr_some, ok_bind]
      refine iff_of_false ?_ (Option.some_ne_none _)
      split
      · intro h
        cases h
      · exact resolved_not_malformed _ _
  · rw [if_neg hfirst, if_neg hfirst]
    cases hstart : parseU64 first with
    | none => simp
    | some start =>
      rw [okOr_some, ok_bind]
      by_cases hlow : start < total
      · rw [if_neg (by omega)]
        by_cases hsecond : second = []
        · rw [if_pos hsecond]
          refine iff_of_false (resolved_not_malformed _ _) ?_
          exact fun h => (h start rfl).2.1 hsecond
        · rw [if_neg hsecond]
          cases hlast : parseU64 second with
          | none => simp [hlow, hsecond]
          | some last =>
            rw [okOr_some, ok_bind]
            refine iff_of_false (resolved_not_malformed _ _) ?_
            intro h
            cases (h start rfl).2.2
      · rw [if_pos (by omega)]
        refine iff_of_false ?_ (fun h => hlow (h start rfl).1)
        intro h
        cases h

theorem rangeSyntax_fields {first second : Str} (hdash : '-' ∉ first) :
    RangeSyntax ("bytes=".toList ++ (first ++ '-' :: second)) ↔
      (first = [] ∧ Digits second) ∨ (Digits first ∧ AllDigits second) := by
  constructor
  · intro h
    generalize hvalue : "bytes=".toList ++ (first ++ '-' :: second) = value at h
    cases h with
    | positions hfirst hlast =>
      have hsplit := splitOnce_char hdash second
      rw [List.append_cancel_left hvalue, splitOnce_char (hfirst.not_mem (c := '-') (by decide))] at hsplit
      cases hsplit
      exact .inr ⟨hfirst, hlast⟩
    | suffix hlength =>
      have hsplit := splitOnce_char hdash second
      rw [List.append_cancel_left hvalue, splitOnce_char List.not_mem_nil] at hsplit
      cases hsplit
      exact .inl ⟨rfl, hlength⟩
  · rintro (⟨rfl, hsecond⟩ | ⟨hfirst, hsecond⟩)
    · exact .suffix hsecond
    · exact .positions hfirst hsecond

theorem misjudged_fields {total : Nat} {first second : Str} (hdash : '-' ∉ first) :
    Misjudged total ("bytes=".toList ++ (first ++ '-' :: second)) ↔ Misread total first second := by
  constructor
  · rintro ⟨front, back, hvalue, hfront, h⟩
    have hsplit := splitOnce_char hdash second
    rw [List.append_cancel_left hvalue, splitOnce_char hfront] at hsplit
    cases hsplit
    exact h
  · exact fun h => ⟨first, second, rfl, hdash, h⟩

theorem Misread.wrong {total : Nat} {first second : Str} (h : Misread total first second) :
    FieldsMalformed total first second ↔ (first = [] ∧ Digits second) ∨ (Digits first ∧ AllDigits second) := by
  have hnil : ¬ Digits [] := fun hd => hd.1 rfl
  have hne : ∀ {s}, ¬ AllDigits s → s ≠ [] := by
    rintro s hs rfl
    exact hs (fun c hc => absurd hc List.not_mem_nil)
  unfold FieldsMalformed
  cases h with
  | signedSuffix hsecond =>
    rw [if_pos rfl, parseU64_eq_some.mpr (.inr hsecond)]
    refine iff_of_false nofun ?_
    rintro (⟨-, hd⟩ | ⟨hd, -⟩)
    · exact hsecond.not_digits hd.2
    · exact hnil hd
  | hugeSuffix hsecond =>
    rw [if_pos rfl]
    exact iff_of_true hsecond.parse (.inl ⟨rfl, hsecond.isDigits⟩)
  | signedFirst hfirst hlast =>
    rw [if_neg (hne hfirst.not_digits)]
    refine iff_of_false ?_ ?_
    · intro h
      obtain ⟨hlow, hsecond, hparse⟩ := h _ (parseU64_eq_some.mpr (.inr hfirst))
      rcases hlast hlow with hempty | hsome
      · exact hsecond hempty
      · rw [hparse] at hsome
        cases hsome
    · rintro (⟨rfl, -⟩ | ⟨hd, -⟩)
      · exact hne hfirst.not_digits rfl
      · exact hfirst.not_digits hd.2
  | hugeFirst hfirst hsecond =>
    rw [if_neg hfirst.isDigits.1]
    refine iff_of_true ?_ (.inr ⟨hfirst.isDigits, hsecond⟩)
    intro n hn
    rw [hfirst.parse] at hn
    cases hn
  | signedLast hfirst hlow hsecond =>
    rw [if_neg hfirst.isDigits.1]
    refine iff_of_false ?_ ?_
    · intro h
      obtain ⟨-, -, hparse⟩ := h _ hfirst.parse
      rw [parseU64_eq_some.mpr (.inr hsecond)] at hparse
      cases hparse
    · rintro (⟨-, hd⟩ | ⟨-, hd⟩)
      · exact hsecond.not_digits hd.2
      · exact hsecond.not_digits hd
  | hugeLast hfirst hlow hsecond =>
    rw [if_neg hfirst.isDigits.1]
    refine iff_of_true ?_ (.inr ⟨hfirst.isDigits, hsecond.isDigits.2⟩)
    intro n hn
    obtain rfl := Option.some.inj (hn.symm.trans hfirst.parse)
    exact ⟨hlow, hsecond.isDigits.1, hsecond.parse⟩
  | unreadLast hfirst hhigh hsecond =>
    rw [if_neg hfirst.isDigits.1]
    refine iff_of_false ?_ ?_
    · intro h
      exact absurd (h _ hfirst.parse).1 (not_lt.mpr hhigh)
    · rintro (⟨-, hd⟩ | ⟨-, hd⟩)
      · exact hsecond hd.2
      · exact hsecond hd

theorem fields_judged {total : Nat} {first second : Str} (h : ¬ Misread total first second) :
    FieldsMalformed total first second ↔ ¬ ((first = [] ∧ Digits second) ∨ (Digits first ∧ AllDigits second)) := by
  have hall : AllDigits [] := fun c hc => absurd hc List.not_mem_nil
  unfold FieldsMalformed
  by_cases hfirst : first = []
  · subst hfirst
    rw [if_pos rfl]
    constructor
    · rintro hparse (⟨-, hd⟩ | ⟨hd, -⟩)
      · obtain ⟨n, hdenotes | hhuge⟩ := hd.cases
        · rw [hdenotes.parse] at hparse
          cases hparse
        · exact h (.hugeSuffix hhuge)
      · exact hd.1 rfl
    · intro hsyntax
      cases hparse : parseU64 second with
      | none => rfl
      | some n =>
        rcases parseU64_eq_some.mp hparse with hdenotes | hsigned
        · exact absurd (.inl ⟨rfl, hdenotes.isDigits⟩) hsyntax
        · exact absurd (.signedSuffix hsigned) h
  · rw [if_neg hfirst]
    constructor
    · rintro hmalformed (⟨hnil, -⟩ | ⟨hd, hsecond⟩)
      · exact hfirst hnil
      · obtain ⟨n, hdenotes | hhuge⟩ := hd.cases
        · obtain ⟨hlow, hne, hparse⟩ := hmalformed n hdenotes.parse
          obtain ⟨m, hlast | hlast⟩ := (show Digits second from ⟨hne, hsecond⟩).cases
          · rw [hlast.parse] at hparse
            cases hparse
          · exact h (.hugeLast hdenotes hlow hlast)
        · exact h (.hugeFirst hhuge hsecond)
    · intro hsyntax n hn
      rcases parseU64_eq_some.mp hn with hdenotes | hsigned
      · have hsecond : ¬ AllDigits second := fun hd => hsyntax (.inr ⟨hdenotes.isDigits, hd⟩)
        have hlow : n < total := by
          by_contra hhigh
          exact h (.unreadLast hdenotes (not_lt.mp hhigh) hsecond)
        refine ⟨hlow, ?_, ?_⟩
        · rintro rfl
          exact hsecond hall
        · cases hparse : parseU64 second with
          | none => rfl
          | some m =>
            rcases parseU64_eq_some.mp hparse with hlast | hlast
            · exact absurd hlast.isDigits.2 hsecond
            · exact absurd (.signedLast hdenotes hlow hlast) h
      · by_contra hmalformed
        refine h (.signedFirst hsigned ?_)
        intro hlow
        by_contra hlast
        rw [not_or, Bool.not_eq_true, Option.isSome_eq_false_iff, Option.isNone_iff_eq_none] at hlast
        exact hmalformed ⟨hlow, hlast.1, hlast.2⟩

/-! ## The answer -/

/-- A header is called malformed just if it is not in the grammar, and its numbers count whatever their magnitude. -/
structure Judged (total : Nat) (value : Str) : Prop where
  malformed : parseRange value total = .error .malformed ↔ ¬ RangeSyntax value
  resolved : ∀ spec : RangeSpec, spec.Writes value → parseRange value total = match spec.slice total with
    | some (first, last) => .ok (some ⟨first, last⟩)
    | none => .error .unsatisfiable

theorem decimal_denotes {s : Str} {n : Nat} (h : decimal s = some n) (hfit : ¬ Huge s n) : Denotes s n :=
  ⟨h, not_lt.mp fun hlt => hfit ⟨h, hlt⟩⟩

/-- Numbers that fit are resolved, and a last position that is not looked at need not fit. -/
theorem parseRange_writes {total : Nat} {value : Str} (h : ¬ Misjudged total value) {spec : RangeSpec}
    (hspec : spec.Writes value) : parseRange value total = match spec.slice total with
      | some (first, last) => .ok (some ⟨first, last⟩)
      | none => .error .unsatisfiable := by
  have hall : ∀ {s n}, decimal s = some n → AllDigits s := fun hn => (digits_iff.mpr ⟨_, hn⟩).2
  cases spec with
  | span first last =>
    obtain ⟨a, b, rfl, ha, hb⟩ := hspec
    have hdash : '-' ∉ a := (digits_iff.mpr ⟨_, ha⟩).not_mem (by decide)
    rw [misjudged_fields hdash] at h
    have hfirst := decimal_denotes ha fun hhuge => h (.hugeFirst hhuge (hall hb))
    by_cases hlow : first < total
    · have hlast := decimal_denotes hb fun hhuge => h (.hugeLast hfirst hlow hhuge)
      have hspells : (RangeSpec.span first last).Spells ("bytes=".toList ++ (a ++ '-' :: b)) :=
        ⟨a, b, rfl, hfirst, hlast⟩
      exact parseRange_spells hspells total
    · have hcomma : ',' ∉ a ++ '-' :: b := by
        simp [hfirst.not_mem (c := ',') (by decide), (digits_iff.mpr ⟨_, hb⟩).not_mem (c := ',') (by decide)]
      simp only [parseRange, stripPrefix_append, okOr_some, ok_bind, if_neg hcomma, splitOnce_char hdash,
        if_neg hfirst.digits.1, hfirst.parse, RangeSpec.slice]
      rw [if_pos (by omega), if_neg (by omega)]
  | «from» first =>
    obtain ⟨a, rfl, ha⟩ := hspec
    have hdash : '-' ∉ a := (digits_iff.mpr ⟨_, ha⟩).not_mem (by decide)
    rw [misjudged_fields hdash] at h
    have hfirst := decimal_denotes ha fun hhuge => h (.hugeFirst hhuge fun c hc => absurd hc List.not_mem_nil)
    have hspells : (RangeSpec.from first).Spells ("bytes=".toList ++ (a ++ ['-'])) := ⟨a, rfl, hfirst⟩
    exact parseRange_spells hspells total
  | suffix length =>
    obtain ⟨a, rfl, ha⟩ := hspec
    have hfields : Misjudged total ("bytes=".toList ++ '-' :: a) ↔ Misread total [] a :=
      misjudged_fields List.not_mem_nil
    rw [hfields] at h
    have hlength := decimal_denotes ha fun hhuge => h (.hugeSuffix hhuge)
    have hspells : (RangeSpec.suffix length).Spells ("bytes=".toList ++ '-' :: a) := ⟨a, rfl, hlength⟩
    exact parseRange_spells hspells total

/-- A text that is no pair of fields around a hyphen behind `bytes=`. -/
theorem parseRange_unframed {total : Nat} {value : Str} (hcomma : ',' ∉ value)
    (h : ∀ first second, value = "bytes=".toList ++ (first ++ '-' :: second) → '-' ∈ first) :
    parseRange value total = .error .malformed := by
  unfold parseRange
  cases hstrip : stripPrefix "bytes=".toList value with
  | none => rfl
  | some rest =>
    obtain rfl := stripPrefix_eq_some.mp hstrip
    have hrest : ',' ∉ rest := fun hmem => hcomma (List.mem_append_right _ hmem)
    rw [okOr_some, ok_bind, if_neg hrest]
    cases hsplit : splitOnce ['-'] rest with
    | none => rfl
    | some p =>
      obtain ⟨first, second⟩ := p
      have hfields := splitOnce_append hsplit
      rw [List.append_assoc] at hfields
      have hdash := h first second (by rw [hfields]; rfl)
      obtain ⟨x, y, rfl⟩ := List.append_of_mem hdash
      have hshort := splitOnce_first hsplit (x := x) (y := y ++ '-' :: second) (by rw [hfields]; simp)
      simp at hshort

/-- The headers without a comma that are judged right, for each total length. -/
theorem parseRange_judged_iff {value : Str} (hcomma : ',' ∉ value) (total : Nat) :
    Judged total value ↔ ¬ Misjudged total value := by
  by_cases hframe : ∃ first second, value = "bytes=".toList ++ (first ++ '-' :: second) ∧ '-' ∉ first
  · obtain ⟨first, second, rfl, hdash⟩ := hframe
    have hrest : ',' ∉ first ++ '-' :: second := fun hmem => hcomma (List.mem_append_right _ hmem)
    constructor
    · rintro ⟨hmalformed, -⟩ hmis
      rw [parseRange_fields hrest hdash, rangeSyntax_fields hdash,
        ((misjudged_fields hdash).mp hmis).wrong] at hmalformed
      exact (iff_not_self hmalformed).elim
    · intro hmis
      refine ⟨?_, fun spec hspec => parseRange_writes hmis hspec⟩
      rw [parseRange_fields hrest hdash, rangeSyntax_fields hdash]
      exact fields_judged (fun h => hmis ((misjudged_fields hdash).mpr h))
  · have hnone : ∀ first second, value = "bytes=".toList ++ (first ++ '-' :: second) → '-' ∈ first := by
      intro first second hvalue
      by_contra hdash
      exact hframe ⟨first, second, hvalue, hdash⟩
    have hmis : ¬ Misjudged total value := by
      rintro ⟨first, second, hvalue, hdash, -⟩
      exact hdash (hnone first second hvalue)
    refine iff_of_true ⟨iff_of_true (parseRange_unframed hcomma hnone) ?_, fun spec => parseRange_writes hmis⟩ hmis
    intro hsyntax
    cases hsyntax with
    | positions hfirst _ => exact hfirst.not_mem (by decide) (hnone _ _ rfl)
    | suffix _ => exact absurd (hnone _ _ rfl) List.not_mem_nil

/-- A well-formed header, judged right for a length of ten. -/
theorem parseRange_judged_iff_sample :
    ',' ∉ "bytes=4-".toList ∧ (Judged 10 "bytes=4-".toList ↔ ¬ Misjudged 10 "bytes=4-".toList) :=
  ⟨by decide, parseRange_judged_iff (by decide) 10⟩

/-- A position with a plus sign is served. -/
theorem signed_position_served :
    ¬ ∀ (value : Str) (total : Nat), ',' ∉ value →
      (parseRange value total = .error .malformed ↔ ¬ RangeSyntax value) := by
  intro h
  have hiff := h "bytes=+0-3".toList 10 (by decide)
  have hserved : parseRange "bytes=+0-3".toList 10 = .ok (some ⟨0, 3⟩) := by decide +kernel
  rw [hserved] at hiff
  have hsyntax : RangeSyntax "bytes=+0-3".toList := by
    by_contra hbad
    cases hiff.mpr hbad
  have hdash : '-' ∉ ['+', '0'] := by decide
  have hfields := (rangeSyntax_fields hdash).mp hsyntax
  rcases hfields with ⟨hnil, -⟩ | ⟨hdigits, -⟩
  · cases hnil
  · exact absurd (hdigits.2 '+' List.mem_cons_self) (by decide)

end OrbitRelay.AssetHttp
