import Mathlib.Algebra.Order.Ring.Int
import OrbitRelay.Text

/-!
# Unpadded base64url

`base64url` and `decode_base64url` shift their input through a wrapping 32-bit
buffer and never clear it; only the last few bits count. Three bytes make four
symbols and leave no bits over, so both loops are followed group by group.
-/
namespace OrbitRelay.Base64Url

open Text

/-- `TABLE`. -/
def table : List Char :=
  "ABCDEFGHIJKLMNOPQRSTUVWXYZabcdefghijklmnopqrstuvwxyz0123456789-_".toList

def symbol (index : UInt32) : Char := table.getD index.toNat 'A'

/-- The inner loop of `base64url`, with the bits that it leaves. -/
def emit (buffer : UInt32) (bits : Nat) : Str × Nat :=
  if bits < 6 then ([], bits)
  else
    let (rest, left) := emit buffer (bits - 6)
    (symbol ((buffer >>> UInt32.ofNat (bits - 6)) &&& 0x3f) :: rest, left)
termination_by bits

def encodeFrom (buffer : UInt32) (bits : Nat) : List UInt8 → Str
  | [] => if 0 < bits then [symbol ((buffer <<< UInt32.ofNat (6 - bits)) &&& 0x3f)] else []
  | byte :: rest =>
    let buffer := (buffer <<< 8) ||| byte.toUInt32
    let (output, bits) := emit buffer (bits + 8)
    output ++ encodeFrom buffer bits rest

def base64url (bytes : List UInt8) : Str := encodeFrom 0 0 bytes

/-- The value of one symbol. -/
def symbolValue (byte : UInt8) : Option UInt8 :=
  if 65 ≤ byte ∧ byte ≤ 90 then some (byte - 65)
  else if 97 ≤ byte ∧ byte ≤ 122 then some (byte - 97 + 26)
  else if 48 ≤ byte ∧ byte ≤ 57 then some (byte - 48 + 52)
  else if byte = 45 then some 62
  else if byte = 95 then some 63
  else none

def decodeFrom (buffer : UInt32) (bits : Nat) : List UInt8 → Option (List UInt8)
  | [] => some []
  | byte :: rest =>
    match symbolValue byte with
    | none => none
    | some value =>
      let buffer := (buffer <<< 6) ||| value.toUInt32
      if 8 ≤ bits + 6 then
        (decodeFrom buffer (bits + 6 - 8) rest).map
          (((buffer >>> UInt32.ofNat (bits + 6 - 8)) &&& 0xff).toUInt8 :: ·)
      else decodeFrom buffer (bits + 6) rest

def decodeBase64url (value : Str) : Option (List UInt8) :=
  if value.isEmpty ∨ '=' ∈ value then none else decodeFrom 0 0 (utf8 value)

/-- The 6-bit values of RFC 4648, three bytes at a time, without padding. -/
def sextets : List UInt8 → List Nat
  | a :: b :: c :: rest =>
    [a.toNat / 4, a.toNat % 4 * 16 + b.toNat / 16, b.toNat % 16 * 4 + c.toNat / 64, c.toNat % 64] ++
      sextets rest
  | [a, b] => [a.toNat / 4, a.toNat % 4 * 16 + b.toNat / 16, b.toNat % 16 * 4]
  | [a] => [a.toNat / 4, a.toNat % 4 * 16]
  | [] => []

def symbolAt (n : Nat) : Char := table.getD n 'A'

section Buffer

variable (x : UInt32) (a : UInt8)

theorem or_low {x y n : Nat} (hn : n ≤ 32) (h : y < 2 ^ n) :
    x <<< n % 2 ^ 32 ||| y = x * 2 ^ n % 2 ^ 32 + y := by
  have hx : x * 2 ^ n % 2 ^ 32 = (x % 2 ^ (32 - n)) <<< n := by
    rw [Nat.shiftLeft_eq, ← Nat.mul_mod_mul_right, ← Nat.pow_add, Nat.sub_add_cancel hn]
  rw [Nat.shiftLeft_eq, hx, Nat.shiftLeft_add_eq_or_of_lt h]

theorem shiftByte_toNat : ((x <<< 8) ||| a.toUInt32).toNat = x.toNat * 256 % 2 ^ 32 + a.toNat := by
  rw [UInt32.toNat_or, UInt32.toNat_shiftLeft, UInt8.toNat_toUInt32]
  exact or_low (n := 8) (by decide) a.toNat_lt

theorem shiftSextet_toNat (ha : a.toNat < 64) :
    ((x <<< 6) ||| a.toUInt32).toNat = x.toNat * 64 % 2 ^ 32 + a.toNat := by
  rw [UInt32.toNat_or, UInt32.toNat_shiftLeft, UInt8.toNat_toUInt32]
  exact or_low (n := 6) (by decide) ha

theorem shiftAmount {n : Nat} (hn : n < 32) : (UInt32.ofNat n).toNat % 32 = n := by
  rw [UInt32.toNat_ofNat_of_lt' (by show n < 2 ^ 32; omega), Nat.mod_eq_of_lt hn]

theorem low6_toNat {n : Nat} (hn : n < 32) :
    ((x >>> UInt32.ofNat n) &&& 0x3f).toNat = x.toNat / 2 ^ n % 64 := by
  rw [UInt32.toNat_and, UInt32.toNat_shiftRight, shiftAmount hn, Nat.shiftRight_eq_div_pow]
  exact Nat.and_two_pow_sub_one_eq_mod _ 6

theorem low8_toNat {n : Nat} (hn : n < 32) :
    ((x >>> UInt32.ofNat n) &&& 0xff).toNat = x.toNat / 2 ^ n % 256 := by
  rw [UInt32.toNat_and, UInt32.toNat_shiftRight, shiftAmount hn, Nat.shiftRight_eq_div_pow]
  exact Nat.and_two_pow_sub_one_eq_mod _ 8

theorem pad_toNat {n : Nat} (hn : n < 32) :
    ((x <<< UInt32.ofNat n) &&& 0x3f).toNat = x.toNat * 2 ^ n % 2 ^ 32 % 64 := by
  rw [UInt32.toNat_and, UInt32.toNat_shiftLeft, shiftAmount hn, Nat.shiftLeft_eq]
  exact Nat.and_two_pow_sub_one_eq_mod _ 6

end Buffer

section Encoding

theorem symbol_eq {v : UInt32} {n : Nat} (h : v.toNat = n) : symbol v = symbolAt n := by
  rw [symbol, h, symbolAt]

theorem emit_done {x : UInt32} {bits : Nat} (h : bits < 6) : emit x bits = ([], bits) := by
  rw [emit, if_pos h]

theorem emit_more {x : UInt32} {bits : Nat} (h : 6 ≤ bits) (hbits : bits < 32) :
    emit x bits = (symbolAt (x.toNat / 2 ^ (bits - 6) % 64) :: (emit x (bits - 6)).1,
      (emit x (bits - 6)).2) := by
  rw [emit, if_neg (by omega), symbol_eq (low6_toNat x (n := bits - 6) (by omega))]

/-- Four bits or fewer are in the buffer, and a byte comes in. -/
theorem encodeFrom_cons {x y : UInt32} {bits : Nat} {a : UInt8} {rest : List UInt8}
    (hy : y = (x <<< 8) ||| a.toUInt32) (hbits : bits ≤ 2) :
    encodeFrom x bits (a :: rest) =
      symbolAt (y.toNat / 2 ^ (bits + 2) % 64) :: encodeFrom y (bits + 2) rest := by
  subst hy
  simp only [encodeFrom]
  rw [emit_more (by omega) (by omega), emit_done (by omega), show bits + 8 - 6 = bits + 2 by omega]
  rfl

theorem encodeFrom_last {x y : UInt32} {a : UInt8} {rest : List UInt8}
    (hy : y = (x <<< 8) ||| a.toUInt32) :
    encodeFrom x 4 (a :: rest) =
      symbolAt (y.toNat / 2 ^ 6 % 64) :: symbolAt (y.toNat % 64) :: encodeFrom y 0 rest := by
  subst hy
  simp only [encodeFrom]
  rw [emit_more (by omega) (by omega), emit_more (by omega) (by omega), emit_done (by omega)]
  simp only [Nat.reduceAdd, Nat.reduceSub, Nat.pow_zero, Nat.div_one, List.cons_append, List.nil_append]

/-- Whatever is in the buffer, three bytes make four symbols. -/
theorem encodeFrom_group (x : UInt32) (a b c : UInt8) (rest : List UInt8) :
    ∃ y, encodeFrom x 0 (a :: b :: c :: rest) =
      [symbolAt (a.toNat / 4), symbolAt (a.toNat % 4 * 16 + b.toNat / 16),
        symbolAt (b.toNat % 16 * 4 + c.toNat / 64), symbolAt (c.toNat % 64)] ++ encodeFrom y 0 rest := by
  have ha := a.toNat_lt
  have hb := b.toNat_lt
  have hc := c.toNat_lt
  have h₁ := shiftByte_toNat x a
  generalize hx₁ : (x <<< 8) ||| a.toUInt32 = x₁ at h₁
  have h₂ := shiftByte_toNat x₁ b
  generalize hx₂ : (x₁ <<< 8) ||| b.toUInt32 = x₂ at h₂
  have h₃ := shiftByte_toNat x₂ c
  generalize hx₃ : (x₂ <<< 8) ||| c.toUInt32 = x₃ at h₃
  refine ⟨x₃, ?_⟩
  rw [encodeFrom_cons hx₁.symm (by omega), encodeFrom_cons hx₂.symm (by omega),
    encodeFrom_last hx₃.symm]
  have s₁ : x₁.toNat / 2 ^ 2 % 64 = a.toNat / 4 := by omega
  have s₂ : x₂.toNat / 2 ^ 4 % 64 = a.toNat % 4 * 16 + b.toNat / 16 := by omega
  have s₃ : x₃.toNat / 2 ^ 6 % 64 = b.toNat % 16 * 4 + c.toNat / 64 := by omega
  have s₄ : x₃.toNat % 64 = c.toNat % 64 := by omega
  simp only [Nat.zero_add, s₁, s₂, s₃, s₄, Nat.reduceAdd]
  rfl

theorem encodeFrom_two (x : UInt32) (a b : UInt8) :
    encodeFrom x 0 [a, b] =
      [symbolAt (a.toNat / 4), symbolAt (a.toNat % 4 * 16 + b.toNat / 16),
        symbolAt (b.toNat % 16 * 4)] := by
  have ha := a.toNat_lt
  have hb := b.toNat_lt
  have h₁ := shiftByte_toNat x a
  generalize hx₁ : (x <<< 8) ||| a.toUInt32 = x₁ at h₁
  have h₂ := shiftByte_toNat x₁ b
  generalize hx₂ : (x₁ <<< 8) ||| b.toUInt32 = x₂ at h₂
  rw [encodeFrom_cons hx₁.symm (by omega), encodeFrom_cons hx₂.symm (by omega)]
  have s₁ : x₁.toNat / 2 ^ 2 % 64 = a.toNat / 4 := by omega
  have s₂ : x₂.toNat / 2 ^ 4 % 64 = a.toNat % 4 * 16 + b.toNat / 16 := by omega
  have s₃ : x₂.toNat * 2 ^ 2 % 2 ^ 32 % 64 = b.toNat % 16 * 4 := by omega
  simp only [Nat.zero_add, s₁, s₂, Nat.reduceAdd, encodeFrom, Nat.reduceLT, if_true]
  rw [symbol_eq (pad_toNat x₂ (n := 2) (by omega)), s₃]

theorem encodeFrom_one (x : UInt32) (a : UInt8) :
    encodeFrom x 0 [a] = [symbolAt (a.toNat / 4), symbolAt (a.toNat % 4 * 16)] := by
  have ha := a.toNat_lt
  have h₁ := shiftByte_toNat x a
  generalize hx₁ : (x <<< 8) ||| a.toUInt32 = x₁ at h₁
  rw [encodeFrom_cons hx₁.symm (by omega)]
  have s₁ : x₁.toNat / 2 ^ 2 % 64 = a.toNat / 4 := by omega
  have s₂ : x₁.toNat * 2 ^ 4 % 2 ^ 32 % 64 = a.toNat % 4 * 16 := by omega
  simp only [Nat.zero_add, s₁, encodeFrom, Nat.reduceLT, if_true]
  rw [symbol_eq (pad_toNat x₁ (n := 4) (by omega)), s₂]

theorem encodeFrom_eq (bytes : List UInt8) :
    ∀ x, encodeFrom x 0 bytes = (sextets bytes).map symbolAt := by
  induction bytes using sextets.induct with
  | case1 a b c rest ih =>
    intro x
    obtain ⟨y, hy⟩ := encodeFrom_group x a b c rest
    rw [hy, ih y, sextets, List.map_append]
    rfl
  | case2 a b => exact fun x => encodeFrom_two x a b
  | case3 a => exact fun x => encodeFrom_one x a
  | case4 => exact fun x => rfl

/-- The shift register computes the groups of RFC 4648. -/
theorem base64url_eq (bytes : List UInt8) : base64url bytes = (sextets bytes).map symbolAt :=
  encodeFrom_eq bytes 0

theorem sextets_length (bytes : List UInt8) :
    (sextets bytes).length = (bytes.length * 4 + 2) / 3 := by
  induction bytes using sextets.induct with
  | case1 a b c rest ih =>
    rw [sextets, List.length_append, ih]
    simp only [List.length_cons, List.length_nil]
    omega
  | case2 a b => simp [sextets]
  | case3 a => simp [sextets]
  | case4 => rfl

theorem sextets_lt (bytes : List UInt8) : ∀ n ∈ sextets bytes, n < 64 := by
  induction bytes using sextets.induct with
  | case1 a b c rest ih =>
    have ha := a.toNat_lt
    have hb := b.toNat_lt
    have hc := c.toNat_lt
    intro n hn
    rw [sextets, List.mem_append] at hn
    rcases hn with hn | hn
    · simp only [List.mem_cons, List.not_mem_nil, or_false] at hn
      omega
    · exact ih n hn
  | case2 a b =>
    have ha := a.toNat_lt
    have hb := b.toNat_lt
    intro n hn
    simp only [sextets, List.mem_cons, List.not_mem_nil, or_false] at hn
    omega
  | case3 a =>
    have ha := a.toNat_lt
    intro n hn
    simp only [sextets, List.mem_cons, List.not_mem_nil, or_false] at hn
    omega
  | case4 => exact fun n hn => absurd hn List.not_mem_nil

end Encoding

section Decoding

theorem symbolAt_spec : ∀ n < 64, isAscii (symbolAt n) = true ∧ symbolAt n ≠ '=' ∧
    symbolValue (symbolAt n).val.toUInt8 = some (UInt8.ofNat n) := by
  decide +kernel

/-- The bytes of symbols with these values. -/
def symbolBytes (values : List Nat) : List UInt8 := values.map fun n => (symbolAt n).val.toUInt8

/-- A symbol that does not complete a byte. -/
theorem decodeFrom_first {x y : UInt32} {n : Nat} {rest : List UInt8} (hn : n < 64)
    (hy : y = (x <<< 6) ||| (UInt8.ofNat n).toUInt32) :
    decodeFrom x 0 ((symbolAt n).val.toUInt8 :: rest) = decodeFrom y 6 rest := by
  subst hy
  rw [decodeFrom, (symbolAt_spec n hn).2.2]
  rfl

/-- A symbol that completes a byte. -/
theorem decodeFrom_cons {x y : UInt32} {bits n : Nat} {rest : List UInt8} (hn : n < 64)
    (hbits : 2 ≤ bits) (hlt : bits ≤ 6) (hy : y = (x <<< 6) ||| (UInt8.ofNat n).toUInt32) :
    decodeFrom x bits ((symbolAt n).val.toUInt8 :: rest) =
      (decodeFrom y (bits - 2) rest).map (UInt8.ofNat (y.toNat / 2 ^ (bits - 2) % 256) :: ·) := by
  subst hy
  rw [decodeFrom, (symbolAt_spec n hn).2.2]
  dsimp only
  rw [if_pos (by omega), show bits + 6 - 8 = bits - 2 by omega, ← low8_toNat _ (by omega)]
  rfl

theorem shiftValue_toNat (x : UInt32) {n : Nat} (hn : n < 64) :
    ((x <<< 6) ||| (UInt8.ofNat n).toUInt32).toNat = x.toNat * 64 % 2 ^ 32 + n := by
  have hval : (UInt8.ofNat n).toNat = n := UInt8.toNat_ofNat_of_lt' (by show n < 2 ^ 8; omega)
  rw [shiftSextet_toNat x _ (by omega), hval]

theorem ofNat_toNat {n : Nat} {a : UInt8} (h : n = a.toNat) : UInt8.ofNat n = a := by
  rw [h, UInt8.ofNat_toNat]

/-- Whatever is in the buffer, the four symbols of a group give its three bytes back. -/
theorem decodeFrom_group (x : UInt32) (a b c : UInt8) (rest : List UInt8) :
    ∃ y, decodeFrom x 0 (symbolBytes [a.toNat / 4, a.toNat % 4 * 16 + b.toNat / 16,
        b.toNat % 16 * 4 + c.toNat / 64, c.toNat % 64] ++ rest) =
      (decodeFrom y 0 rest).map ([a, b, c] ++ ·) := by
  have ha := a.toNat_lt
  have hb := b.toNat_lt
  have hc := c.toNat_lt
  have h₁ := shiftValue_toNat x (n := a.toNat / 4) (by omega)
  generalize hx₁ : (x <<< 6) ||| _ = x₁ at h₁
  have h₂ := shiftValue_toNat x₁ (n := a.toNat % 4 * 16 + b.toNat / 16) (by omega)
  generalize hx₂ : (x₁ <<< 6) ||| _ = x₂ at h₂
  have h₃ := shiftValue_toNat x₂ (n := b.toNat % 16 * 4 + c.toNat / 64) (by omega)
  generalize hx₃ : (x₂ <<< 6) ||| _ = x₃ at h₃
  have h₄ := shiftValue_toNat x₃ (n := c.toNat % 64) (by omega)
  generalize hx₄ : (x₃ <<< 6) ||| _ = x₄ at h₄
  refine ⟨x₄, ?_⟩
  simp only [symbolBytes, List.map_cons, List.map_nil, List.cons_append, List.nil_append]
  rw [decodeFrom_first (by omega) hx₁.symm, decodeFrom_cons (by omega) (by omega) (by omega) hx₂.symm,
    decodeFrom_cons (by omega) (by omega) (by omega) hx₃.symm,
    decodeFrom_cons (by omega) (by omega) (by omega) hx₄.symm]
  rw [ofNat_toNat (a := a) (by omega), ofNat_toNat (a := b) (by omega), ofNat_toNat (a := c) (by omega)]
  simp only [Option.map_map]
  rfl

theorem decodeFrom_two (x : UInt32) (a b : UInt8) :
    decodeFrom x 0 (symbolBytes [a.toNat / 4, a.toNat % 4 * 16 + b.toNat / 16, b.toNat % 16 * 4]) =
      some [a, b] := by
  have ha := a.toNat_lt
  have hb := b.toNat_lt
  have h₁ := shiftValue_toNat x (n := a.toNat / 4) (by omega)
  generalize hx₁ : (x <<< 6) ||| _ = x₁ at h₁
  have h₂ := shiftValue_toNat x₁ (n := a.toNat % 4 * 16 + b.toNat / 16) (by omega)
  generalize hx₂ : (x₁ <<< 6) ||| _ = x₂ at h₂
  have h₃ := shiftValue_toNat x₂ (n := b.toNat % 16 * 4) (by omega)
  generalize hx₃ : (x₂ <<< 6) ||| _ = x₃ at h₃
  simp only [symbolBytes, List.map_cons, List.map_nil]
  rw [decodeFrom_first (by omega) hx₁.symm, decodeFrom_cons (by omega) (by omega) (by omega) hx₂.symm,
    decodeFrom_cons (by omega) (by omega) (by omega) hx₃.symm]
  rw [ofNat_toNat (a := a) (by omega), ofNat_toNat (a := b) (by omega)]
  rfl

theorem decodeFrom_one (x : UInt32) (a : UInt8) :
    decodeFrom x 0 (symbolBytes [a.toNat / 4, a.toNat % 4 * 16]) = some [a] := by
  have ha := a.toNat_lt
  have h₁ := shiftValue_toNat x (n := a.toNat / 4) (by omega)
  generalize hx₁ : (x <<< 6) ||| _ = x₁ at h₁
  have h₂ := shiftValue_toNat x₁ (n := a.toNat % 4 * 16) (by omega)
  generalize hx₂ : (x₁ <<< 6) ||| _ = x₂ at h₂
  simp only [symbolBytes, List.map_cons, List.map_nil]
  rw [decodeFrom_first (by omega) hx₁.symm, decodeFrom_cons (by omega) (by omega) (by omega) hx₂.symm,
    ofNat_toNat (a := a) (by omega)]
  rfl

theorem decodeFrom_sextets (bytes : List UInt8) :
    ∀ x, decodeFrom x 0 (symbolBytes (sextets bytes)) = some bytes := by
  induction bytes using sextets.induct with
  | case1 a b c rest ih =>
    intro x
    rw [sextets, symbolBytes, List.map_append]
    obtain ⟨y, hy⟩ := decodeFrom_group x a b c (symbolBytes (sextets rest))
    rw [← symbolBytes, ← symbolBytes, hy, ih y]
    rfl
  | case2 a b => exact fun x => decodeFrom_two x a b
  | case3 a => exact fun x => decodeFrom_one x a
  | case4 => exact fun x => rfl

end Decoding

section RoundTrip

variable (bytes : List UInt8)

theorem base64url_symbols {c : Char} (h : c ∈ base64url bytes) : isAscii c = true ∧ c ≠ '=' := by
  rw [base64url_eq, List.mem_map] at h
  obtain ⟨n, hn, rfl⟩ := h
  obtain ⟨hascii, hpad, -⟩ := symbolAt_spec n (sextets_lt bytes n hn)
  exact ⟨hascii, hpad⟩

theorem utf8_base64url : utf8 (base64url bytes) = symbolBytes (sextets bytes) := by
  rw [utf8_ascii fun c hc => (base64url_symbols bytes hc).1, base64url_eq, List.map_map]
  rfl

theorem base64url_len : len (base64url bytes) = (bytes.length * 4 + 2) / 3 := by
  rw [len, utf8_base64url, symbolBytes, List.length_map, sextets_length]

/-- Decoding gives the encoded bytes back. -/
theorem decode_base64url (h : bytes ≠ []) : decodeBase64url (base64url bytes) = some bytes := by
  have hne : base64url bytes ≠ [] := by
    intro hnil
    have hlen := base64url_len bytes
    have hpos := List.length_pos_of_ne_nil h
    rw [hnil] at hlen
    simp only [len, utf8_nil, List.length_nil] at hlen
    omega
  have hpad : '=' ∉ base64url bytes := fun hmem => (base64url_symbols bytes hmem).2 rfl
  rw [decodeBase64url, if_neg (by simp [hne, hpad]), utf8_base64url, decodeFrom_sextets]

end RoundTrip

end OrbitRelay.Base64Url
