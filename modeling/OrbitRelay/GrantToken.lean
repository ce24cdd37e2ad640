import OrbitRelay.BitString
import OrbitRelay.Grant

/-!
# Token texts and raw bytes

The encoding of RFC 4648 over bits, and that a Grant token has one spelling.
-/
namespace OrbitRelay.Grant

open Base64Url BitString Text

variable {AssetId : Type} {G : GrantKernel AssetId}

/-- The unpadded base64url text of some bytes: their bits, filled up with zeros, six to a symbol. -/
def IsBase64url (bytes : List UInt8) (text : Str) : Prop :=
  ∃ (values : List Nat) (padding : Nat), text = values.map symbolAt ∧ (∀ v ∈ values, v < 64) ∧ padding < 6 ∧
    values.flatMap (bits 6) = (bytes.map UInt8.toNat).flatMap (bits 8) ++ List.replicate padding false

/-- Three bytes and four sextets are the same 24 bits. -/
theorem group_bits (a b c : UInt8) :
    [a.toNat / 4, a.toNat % 4 * 16 + b.toNat / 16, b.toNat % 16 * 4 + c.toNat / 64, c.toNat % 64].flatMap (bits 6) =
      [a.toNat, b.toNat, c.toNat].flatMap (bits 8) := by
  have ha := a.toNat_lt
  have hb := b.toNat_lt
  have hc := c.toNat_lt
  have hbytes := bits_add 16 8 (a.toNat * 65536 + b.toNat * 256 + c.toNat)
  have hsextets := bits_add 18 6 (a.toNat * 65536 + b.toNat * 256 + c.toNat)
  rw [bits_add 8 8] at hbytes
  rw [bits_add 12 6, bits_add 6 6] at hsextets
  have h₁ : bits 6 ((a.toNat * 65536 + b.toNat * 256 + c.toNat) / 2 ^ 6 / 2 ^ 6 / 2 ^ 6) = bits 6 (a.toNat / 4) :=
    bits_inj.mpr (by omega)
  have h₂ : bits 6 ((a.toNat * 65536 + b.toNat * 256 + c.toNat) / 2 ^ 6 / 2 ^ 6) =
      bits 6 (a.toNat % 4 * 16 + b.toNat / 16) := bits_inj.mpr (by omega)
  have h₃ : bits 6 ((a.toNat * 65536 + b.toNat * 256 + c.toNat) / 2 ^ 6) =
      bits 6 (b.toNat % 16 * 4 + c.toNat / 64) := bits_inj.mpr (by omega)
  have h₄ : bits 6 (a.toNat * 65536 + b.toNat * 256 + c.toNat) = bits 6 (c.toNat % 64) := bits_inj.mpr (by omega)
  have h₅ : bits 8 ((a.toNat * 65536 + b.toNat * 256 + c.toNat) / 2 ^ 8 / 2 ^ 8) = bits 8 a.toNat :=
    bits_inj.mpr (by omega)
  have h₆ : bits 8 ((a.toNat * 65536 + b.toNat * 256 + c.toNat) / 2 ^ 8) = bits 8 b.toNat := bits_inj.mpr (by omega)
  have h₇ : bits 8 (a.toNat * 65536 + b.toNat * 256 + c.toNat) = bits 8 c.toNat := bits_inj.mpr (by omega)
  rw [h₁, h₂, h₃, h₄] at hsextets
  rw [h₅, h₆, h₇] at hbytes
  simp only [List.flatMap_cons, List.flatMap_nil, List.append_nil]
  rw [← List.append_assoc, ← List.append_assoc, ← List.append_assoc, ← hbytes, ← hsextets]

theorem pair_bits (a b : UInt8) :
    [a.toNat / 4, a.toNat % 4 * 16 + b.toNat / 16, b.toNat % 16 * 4].flatMap (bits 6) =
      [a.toNat, b.toNat].flatMap (bits 8) ++ [false, false] := by
  have ha := a.toNat_lt
  have hb := b.toNat_lt
  have hbytes := bits_add 16 2 (a.toNat * 1024 + b.toNat * 4)
  have hsextets := bits_add 12 6 (a.toNat * 1024 + b.toNat * 4)
  rw [bits_add 8 8] at hbytes
  rw [bits_add 6 6] at hsextets
  have h₁ : bits 6 ((a.toNat * 1024 + b.toNat * 4) / 2 ^ 6 / 2 ^ 6) = bits 6 (a.toNat / 4) := bits_inj.mpr (by omega)
  have h₂ : bits 6 ((a.toNat * 1024 + b.toNat * 4) / 2 ^ 6) = bits 6 (a.toNat % 4 * 16 + b.toNat / 16) :=
    bits_inj.mpr (by omega)
  have h₃ : bits 6 (a.toNat * 1024 + b.toNat * 4) = bits 6 (b.toNat % 16 * 4) := bits_inj.mpr (by omega)
  have h₄ : bits 8 ((a.toNat * 1024 + b.toNat * 4) / 2 ^ 2 / 2 ^ 8) = bits 8 a.toNat := bits_inj.mpr (by omega)
  have h₅ : bits 8 ((a.toNat * 1024 + b.toNat * 4) / 2 ^ 2) = bits 8 b.toNat := bits_inj.mpr (by omega)
  have h₆ : bits 2 (a.toNat * 1024 + b.toNat * 4) = [false, false] :=
    (bits_inj (m := 0)).mpr (by omega)
  rw [h₁, h₂, h₃] at hsextets
  rw [h₄, h₅, h₆] at hbytes
  simp only [List.flatMap_cons, List.flatMap_nil, List.append_nil]
  rw [← List.append_assoc, ← hbytes, ← hsextets]

theorem single_bits (a : UInt8) :
    [a.toNat / 4, a.toNat % 4 * 16].flatMap (bits 6) = [a.toNat].flatMap (bits 8) ++ [false, false, false, false] := by
  have ha := a.toNat_lt
  have hbytes := bits_add 8 4 (a.toNat * 16)
  have hsextets := bits_add 6 6 (a.toNat * 16)
  have h₁ : bits 6 (a.toNat * 16 / 2 ^ 6) = bits 6 (a.toNat / 4) := bits_inj.mpr (by omega)
  have h₂ : bits 6 (a.toNat * 16) = bits 6 (a.toNat % 4 * 16) := bits_inj.mpr (by omega)
  have h₃ : bits 8 (a.toNat * 16 / 2 ^ 4) = bits 8 a.toNat := bits_inj.mpr (by omega)
  have h₄ : bits 4 (a.toNat * 16) = [false, false, false, false] := (bits_inj (m := 0)).mpr (by omega)
  rw [h₁, h₂] at hsextets
  rw [h₃, h₄] at hbytes
  simp only [List.flatMap_cons, List.flatMap_nil, List.append_nil]
  rw [← hbytes, ← hsextets]

theorem sextets_bits (bytes : List UInt8) :
    ∃ padding, padding < 6 ∧
      (sextets bytes).flatMap (bits 6) =
        (bytes.map UInt8.toNat).flatMap (bits 8) ++ List.replicate padding false := by
  induction bytes using sextets.induct with
  | case1 a b c rest ih =>
    obtain ⟨padding, hlt, hrest⟩ := ih
    refine ⟨padding, hlt, ?_⟩
    rw [sextets, List.flatMap_append, group_bits, hrest, ← List.append_assoc, ← List.flatMap_append]
    rfl
  | case2 a b => exact ⟨2, by decide, pair_bits a b⟩
  | case3 a => exact ⟨4, by decide, single_bits a⟩
  | case4 => exact ⟨0, by decide, rfl⟩

/-- The shift register computes the encoding, and nothing else is one. -/
theorem isBase64url_iff {bytes : List UInt8} {text : Str} : IsBase64url bytes text ↔ text = base64url bytes := by
  obtain ⟨padding, hpadding, hbits⟩ := sextets_bits bytes
  constructor
  · rintro ⟨values, padding', rfl, hvalues, hpadding', hbits'⟩
    have hlength := congrArg List.length hbits
    have hlength' := congrArg List.length hbits'
    rw [length_flatMap_bits, List.length_append, length_flatMap_bits, List.length_replicate] at hlength hlength'
    have hsame : padding' = padding := by omega
    rw [base64url_eq]
    congr 1
    have hwidth : 0 < 6 := by decide
    apply flatMap_bits_inj hwidth hvalues (sextets_lt bytes)
    rw [hbits, hbits', hsame]
  · rintro rfl
    exact ⟨sextets bytes, padding, base64url_eq bytes, sextets_lt bytes, hpadding, hbits⟩

/-- Two bytes are left over from groups of three, and two bits of the last symbol. -/
theorem sextets_last (bytes : List UInt8) (h : bytes.length % 3 = 2) :
    ∃ front v, sextets bytes = front ++ [v] ∧ v % 4 = 0 := by
  induction bytes using sextets.induct with
  | case1 a b c rest ih =>
    obtain ⟨front, v, heq, hv⟩ := ih (by simp only [List.length_cons] at h; omega)
    exact ⟨_, v, by rw [sextets, heq, ← List.append_assoc], hv⟩
  | case2 a b => exact ⟨[_, _], _, rfl, Nat.mul_mod_left _ 4⟩
  | case3 a => cases h
  | case4 => cases h

theorem symbolAt_mem : ∀ n < 64, symbolAt n ∈ table := by decide +kernel

theorem validate_foreign [DecidableEq AssetId] {token : Str} (h : ∀ raw : Key, token ≠ base64url raw.1)
    (entries : Entries G) (now : G.Timestamp) (assetId : AssetId) :
    validate entries now token assetId = (entries, .error .unauthorized) := by
  have hnone : tokenBytes token = none := by
    rw [Option.eq_none_iff_forall_ne_some]
    intro raw hraw
    exact h raw (tokenBytes_eq_some.mp hraw).symm
  rw [validate, hnone]

/-- A token is the base64url text of its bytes, and the checks of `validate` let no other text pass. -/
theorem token_text_bijective [DecidableEq AssetId] :
    (∀ raw : Key, (∀ text, IsBase64url raw.1 text ↔ text = base64url raw.1) ∧
      (base64url raw.1).length = 43 ∧ (∀ c ∈ base64url raw.1, c ∈ table) ∧
      (∃ front v, base64url raw.1 = front ++ [symbolAt v] ∧ v < 64 ∧ v % 4 = 0) ∧
      decodeBase64url (base64url raw.1) = some raw.1) ∧
    (∀ s : Str, ((tokenBytes s).isSome = true ↔ ∃ raw : Key, s = base64url raw.1) ∧
      ∀ raw raw' : Key, s = base64url raw.1 → s = base64url raw'.1 → raw = raw') ∧
    ∀ (s : Str) (entries : Entries G) (now : G.Timestamp) (assetId : AssetId),
      (∀ raw : Key, s ≠ base64url raw.1) → validate entries now s assetId = (entries, .error .unauthorized) := by
  refine ⟨?_, ?_, fun s entries now assetId h => validate_foreign h entries now assetId⟩
  · intro raw
    refine ⟨fun text => isBase64url_iff, ?_, ?_, ?_, ?_⟩
    · rw [base64url_eq, List.length_map, sextets_length, raw.2]
    · intro c hc
      rw [base64url_eq] at hc
      obtain ⟨n, hn, rfl⟩ := List.mem_map.mp hc
      exact symbolAt_mem n (sextets_lt raw.1 n hn)
    · obtain ⟨front, v, heq, hv⟩ := sextets_last raw.1 (by rw [raw.2])
      refine ⟨front.map symbolAt, v, ?_, sextets_lt raw.1 v (by rw [heq]; simp), hv⟩
      rw [base64url_eq, heq, List.map_append, List.map_singleton]
    · exact decode_base64url raw.1 (List.ne_nil_of_length_pos (by rw [raw.2]; decide))
  · intro s
    constructor
    · rw [Option.isSome_iff_exists]
      constructor
      · rintro ⟨raw, hraw⟩
        exact ⟨raw, (tokenBytes_eq_some.mp hraw).symm⟩
      · rintro ⟨raw, rfl⟩
        exact ⟨raw, tokenBytes_eq_some.mpr rfl⟩
    · intro raw raw' h h'
      exact base64url_injective (h.symm.trans h')

end OrbitRelay.Grant
