import OrbitRelay.IpAddr
import Mathlib.Algebra.Order.Ring.Int

/-!
# Socket addresses as text

The parser behind `str::parse::<SocketAddr>`. Every socket address has a text that is
read as it: the octets or the segments in full, and the port behind them.
-/
namespace Net

open Text

/-- A colon and a port, of as many digits as there are. -/
def readPort (s : Str) : Option (Nat × Str) := (readGivenChar ':' s).bind fun s => readNumber 10 s.length true 65535 s

/-- `read_socket_addr_v4`. -/
def readSocketAddrV4 (s : Str) : Option (SocketAddr × Str) := do
  let (octets, s) ← readIpv4Addr s
  let (port, s) ← readPort s
  some (⟨.v4 octets, port.toUInt16⟩, s)

/-- `read_scope_id`, for what it leaves. -/
def readScopeId (s : Str) : Str :=
  match (readGivenChar '%' s).bind fun s => readNumber 10 s.length true 4294967295 s with
  | some (_, rest) => rest
  | none => s

/-- `read_socket_addr_v6`. -/
def readSocketAddrV6 (s : Str) : Option (SocketAddr × Str) := do
  let s ← readGivenChar '[' s
  let (segments, s) ← readIpv6Addr s
  let s ← readGivenChar ']' (readScopeId s)
  let (port, s) ← readPort s
  some (⟨.v6 segments, port.toUInt16⟩, s)

/-- `str::parse::<SocketAddr>`. -/
def parseSocketAddr (s : Str) : Option SocketAddr :=
  match (readSocketAddrV4 s).or (readSocketAddrV6 s) with
  | some (address, []) => some address
  | _ => none

example : parseSocketAddr "[fe80::1%7]:80".toList = some ⟨.v6 #v[65152, 0, 0, 0, 0, 0, 0, 1], 80⟩ := by
  decide +kernel

/-! ## Numbers -/

/-- A radix whose digits are read as they are printed. -/
structure IsRadix (radix : Nat) : Prop where
  one_lt : 1 < radix
  digits : ∀ d < radix, toDigit radix (Nat.digitChar d) = some d

theorem isRadix_ten : IsRadix 10 := ⟨by decide, by decide⟩

theorem isRadix_sixteen : IsRadix 16 := ⟨by decide, by decide⟩

/-- What may stand behind a number. -/
def Ends (radix : Nat) (rest : Str) : Prop := ∀ c, rest.head? = some c → toDigit radix c = none

theorem ends_cons {radix : Nat} {c : Char} (h : toDigit radix c = none) (rest : Str) : Ends radix (c :: rest) := by
  intro d hd
  rw [← Option.some.inj hd]
  exact h

theorem ends_nil (radix : Nat) : Ends radix [] := by
  intro c hc
  cases hc

theorem readDigits_ends {radix : Nat} {rest : Str} (h : Ends radix rest) (maxDigits result count : Nat) :
    readDigits radix maxDigits result count rest = some (result, count, rest) := by
  cases rest with
  | nil => rfl
  | cons c rest => rw [readDigits, h c rfl]

theorem readDigits_toDigits {radix : Nat} (h : IsRadix radix) {maxDigits : Nat} (n : Nat) :
    ∀ rest, (Nat.toDigits radix n).length ≤ maxDigits →
      readDigits radix maxDigits 0 0 (Nat.toDigits radix n ++ rest) =
        readDigits radix maxDigits n (Nat.toDigits radix n).length rest := by
  induction n using Nat.strong_induction_on with
  | h n ih =>
    intro rest hlength
    by_cases hlt : n < radix
    · rw [Nat.toDigits_of_lt_base hlt] at hlength ⊢
      rw [List.singleton_append, readDigits, h.digits n hlt]
      dsimp only
      rw [List.length_singleton] at hlength
      rw [if_neg (by omega), Nat.zero_mul, Nat.zero_add]
      rfl
    · have hradix := h.one_lt
      rw [Nat.toDigits_of_base_le hradix (by omega)] at hlength ⊢
      rw [List.length_append, List.length_singleton] at hlength ⊢
      have hsmaller : n / radix < n := Nat.div_lt_self (by omega) hradix
      rw [List.append_assoc, List.singleton_append, ih (n / radix) hsmaller _ (by omega), readDigits,
        h.digits _ (Nat.mod_lt n (by omega))]
      dsimp only
      rw [if_neg (by omega), Nat.mul_comm, Nat.div_add_mod]

theorem toDigits_head {radix : Nat} (h : IsRadix radix) {n : Nat} (hn : n ≠ 0) (rest : Str) :
    (Nat.toDigits radix n ++ rest).head? ≠ some '0' := by
  induction n using Nat.strong_induction_on generalizing rest with
  | h n ih =>
    have hradix := h.one_lt
    by_cases hlt : n < radix
    · rw [Nat.toDigits_of_lt_base hlt]
      intro hhead
      have hzero : toDigit radix '0' = some n := by
        rw [← Option.some.inj hhead]
        exact h.digits n hlt
      exact hn (Option.some.inj (hzero.symm.trans (h.digits 0 (by omega))))
    · rw [Nat.toDigits_of_base_le hradix (by omega), List.append_assoc]
      exact ih (n / radix) (Nat.div_lt_self (by omega) hradix) (Nat.div_pos (by omega) (by omega)).ne' _

/-- A printed number is read, up to what stands behind it. -/
theorem readNumber_toDigits {radix : Nat} (h : IsRadix radix) {maxDigits bound n : Nat} {allowZeroPrefix : Bool}
    {rest : Str} (hlength : (Nat.toDigits radix n).length ≤ maxDigits) (hbound : n ≤ bound) (hends : Ends radix rest) :
    readNumber radix maxDigits allowZeroPrefix bound (Nat.toDigits radix n ++ rest) = some (n, rest) := by
  have hpos : 0 < (Nat.toDigits radix n).length := Nat.length_toDigits_pos
  have hlead : ¬ (allowZeroPrefix = false ∧ (Nat.toDigits radix n ++ rest).head? = some '0' ∧
      (Nat.toDigits radix n).length > 1) := by
    rintro ⟨-, hhead, hlong⟩
    refine toDigits_head h ?_ rest hhead
    rintro rfl
    simp at hlong
  unfold readNumber
  rw [readDigits_toDigits h n rest hlength, readDigits_ends hends]
  show (if (Nat.toDigits radix n).length = 0 then none else _) = _
  rw [if_neg (by omega), if_neg hlead, if_pos hbound]

theorem mem_toDigits {radix : Nat} (h : IsRadix radix) {n : Nat} {c : Char} (hc : c ∈ Nat.toDigits radix n) :
    (toDigit radix c).isSome = true := by
  induction n using Nat.strong_induction_on with
  | h n ih =>
    have hradix := h.one_lt
    by_cases hlt : n < radix
    · rw [Nat.toDigits_of_lt_base hlt, List.mem_singleton] at hc
      rw [hc, h.digits n hlt]
      rfl
    · rw [Nat.toDigits_of_base_le hradix (by omega), List.mem_append, List.mem_singleton] at hc
      rcases hc with hc | rfl
      · exact ih (n / radix) (Nat.div_lt_self (by omega) hradix) hc
      · rw [h.digits _ (Nat.mod_lt n (by omega))]
        rfl

theorem not_mem_toDigits {radix : Nat} (h : IsRadix radix) {c : Char} (hc : toDigit radix c = none) (n : Nat) :
    c ∉ Nat.toDigits radix n := by
  intro hmem
  have hsome := mem_toDigits h hmem
  rw [hc] at hsome
  cases hsome

/-! ## Addresses -/

def ipv4Text (octets : Ipv4Addr) : Str :=
  ['.'].intercalate (octets.toList.map fun octet => Nat.toDigits 10 octet.toNat)

/-- Groups from `index` on. -/
def groupsText : Nat → List UInt16 → Str
  | _, [] => []
  | 0, group :: groups => Nat.toDigits 16 group.toNat ++ groupsText 1 groups
  | index + 1, group :: groups => ':' :: (Nat.toDigits 16 group.toNat ++ groupsText (index + 2) groups)

def SocketAddr.text (address : SocketAddr) : Str :=
  match address.ip with
  | .v4 octets => ipv4Text octets ++ ':' :: Nat.toDigits 10 address.port.toNat
  | .v6 segments => '[' :: (groupsText 0 segments.toList ++ ']' :: ':' :: Nat.toDigits 10 address.port.toNat)

theorem readOctet_first (octet : UInt8) {rest : Str} (h : Ends 10 rest) :
    readOctet 0 (Nat.toDigits 10 octet.toNat ++ rest) = some (octet.toNat, rest) := by
  have hlt := octet.toNat_lt
  have hlength : (Nat.toDigits 10 octet.toNat).length ≤ 3 :=
    (Nat.length_toDigits_le_iff (by decide) (by decide)).mpr (by omega)
  exact readNumber_toDigits isRadix_ten hlength (by omega) h

theorem readOctet_next (index : Nat) (octet : UInt8) {rest : Str} (h : Ends 10 rest) :
    readOctet (index + 1) ('.' :: (Nat.toDigits 10 octet.toNat ++ rest)) = some (octet.toNat, rest) :=
  readOctet_first octet h

theorem ipv4_octets (octets : Ipv4Addr) : ∃ a b c d, octets = #v[a, b, c, d] := by
  obtain ⟨⟨list⟩, hsize⟩ := octets
  obtain _ | ⟨a, _ | ⟨b, _ | ⟨c, _ | ⟨d, _ | ⟨e, rest⟩⟩⟩⟩⟩ := list
  case cons.cons.cons.cons.nil => exact ⟨a, b, c, d, rfl⟩
  all_goals
    simp only [List.size_toArray, List.length_cons, List.length_nil] at hsize
    omega

theorem ipv4Text_octets (a b c d : UInt8) :
    ipv4Text #v[a, b, c, d] = Nat.toDigits 10 a.toNat ++ '.' :: (Nat.toDigits 10 b.toNat ++
      '.' :: (Nat.toDigits 10 c.toNat ++ '.' :: Nat.toDigits 10 d.toNat)) := by
  simp [ipv4Text, List.intercalate, List.intersperse]

theorem readIpv4Addr_text (octets : Ipv4Addr) {rest : Str} (h : Ends 10 rest) :
    readIpv4Addr (ipv4Text octets ++ rest) = some (octets, rest) := by
  have hdot : ∀ s, Ends 10 ('.' :: s) := ends_cons (by decide)
  have hbyte : ∀ octet : UInt8, octet.toNat.toUInt8 = octet := fun _ => UInt8.ofNat_toNat
  obtain ⟨a, b, c, d, rfl⟩ := ipv4_octets octets
  simp only [readIpv4Addr, ipv4Text_octets, List.append_assoc, List.cons_append, readOctet_first _ (hdot _),
    readOctet_next _ _ (hdot _), readOctet_next _ _ h, Option.bind_eq_bind, Option.bind_some, hbyte]

theorem readDigits_suffix {radix maxDigits result count value digits : Nat} {s rest : Str}
    (h : readDigits radix maxDigits result count s = some (value, digits, rest)) : rest <:+ s := by
  induction s generalizing result count with
  | nil =>
    cases h
    exact List.suffix_rfl
  | cons c s ih =>
    rw [readDigits] at h
    split at h
    · cases h
      exact List.suffix_rfl
    · split at h
      · cases h
      · exact (ih h).trans (List.suffix_cons c s)

theorem readNumber_suffix {radix maxDigits bound n : Nat} {allowZeroPrefix : Bool} {s rest : Str}
    (h : readNumber radix maxDigits allowZeroPrefix bound s = some (n, rest)) : rest <:+ s := by
  unfold readNumber at h
  rw [Option.bind_eq_bind, Option.bind_eq_some_iff] at h
  obtain ⟨⟨value, count, tail⟩, hdigits, hnumber⟩ := h
  dsimp only at hnumber
  split at hnumber
  · cases hnumber
  · split at hnumber
    · cases hnumber
    · split at hnumber
      · cases hnumber
        exact readDigits_suffix hdigits
      · cases hnumber

/-- Without a dot there are no octets. -/
theorem readIpv4Addr_none {s : Str} (h : '.' ∉ s) : readIpv4Addr s = none := by
  unfold readIpv4Addr
  cases hfirst : readOctet 0 s with
  | none => rfl
  | some first =>
    obtain ⟨octet, rest⟩ := first
    have hdot : '.' ∉ rest := by
      intro hmem
      exact h ((readNumber_suffix hfirst).subset hmem)
    have hnext : readOctet 1 rest = none := by
      cases rest with
      | nil => rfl
      | cons c rest =>
        have hne : c ≠ '.' := fun heq => hdot (heq ▸ List.mem_cons_self)
        simp [readOctet, readSeparator, readGivenChar, hne]
    rw [Option.bind_eq_bind, Option.bind_some]
    dsimp only
    rw [hnext]
    rfl

theorem not_mem_groupsText {c : Char} (hcolon : c ≠ ':') (hc : toDigit 16 c = none) (groups : List UInt16) :
    ∀ index, c ∉ groupsText index groups := by
  induction groups with
  | nil => exact fun index => by cases index <;> exact List.not_mem_nil
  | cons group groups ih =>
    intro index hmem
    have hdigits := not_mem_toDigits isRadix_sixteen hc group.toNat
    cases index with
    | zero =>
      rcases List.mem_append.mp hmem with hmem | hmem
      · exact hdigits hmem
      · exact ih 1 hmem
    | succ index =>
      rcases List.mem_cons.mp hmem with heq | hmem
      · exact hcolon heq
      · rcases List.mem_append.mp hmem with hmem | hmem
        · exact hdigits hmem
        · exact ih (index + 2) hmem

theorem ends_groupsText {rest : Str} (h : Ends 16 rest) (index : Nat) (groups : List UInt16) :
    Ends 16 (groupsText (index + 1) groups ++ rest) := by
  cases groups with
  | nil => exact h
  | cons group groups => exact ends_cons (by decide) _

theorem readGroup_text {rest : Str} (hdot : '.' ∉ rest) (hends : Ends 16 rest) (index : Nat) (group : UInt16)
    (groups : List UInt16) :
    readSeparator ':' index readIpv4Addr (groupsText index (group :: groups) ++ rest) = none ∧
    readSeparator ':' index (readNumber 16 4 true 65535) (groupsText index (group :: groups) ++ rest) =
      some (group.toNat, groupsText (index + 1) groups ++ rest) := by
  have hlt := group.toNat_lt
  have hlength : (Nat.toDigits 16 group.toNat).length ≤ 4 :=
    (Nat.length_toDigits_le_iff (by decide) (by decide)).mpr (by omega)
  have hnumber : ∀ index, readNumber 16 4 true 65535
      (Nat.toDigits 16 group.toNat ++ (groupsText (index + 1) groups ++ rest)) =
        some (group.toNat, groupsText (index + 1) groups ++ rest) :=
    fun index => readNumber_toDigits isRadix_sixteen hlength (by omega) (ends_groupsText hends index groups)
  have hnone : ∀ index, readIpv4Addr
      (Nat.toDigits 16 group.toNat ++ (groupsText (index + 1) groups ++ rest)) = none := by
    intro index
    apply readIpv4Addr_none
    rw [List.mem_append, List.mem_append]
    rintro (hmem | hmem | hmem)
    · exact not_mem_toDigits isRadix_sixteen (by decide) _ hmem
    · exact not_mem_groupsText (by decide) (by decide) groups _ hmem
    · exact hdot hmem
  cases index with
  | zero =>
    rw [groupsText, List.append_assoc]
    exact ⟨hnone 0, hnumber 0⟩
  | succ index =>
    rw [groupsText, List.cons_append, List.append_assoc]
    exact ⟨hnone (index + 1), hnumber (index + 1)⟩

/-- Groups in full are read one by one, none of them as the start of octets. -/
theorem readGroups_text {rest : Str} (hdot : '.' ∉ rest) (hends : Ends 16 rest) (groups : List UInt16) :
    ∀ index, readGroups groups.length index (groupsText index groups ++ rest) = (groups, false, rest) := by
  induction groups with
  | nil => exact fun index => by cases index <;> rfl
  | cons group groups ih =>
    intro index
    obtain ⟨hnone, hgroup⟩ := readGroup_text hdot hends index group groups
    rw [List.length_cons, readGroups, hnone, ite_self]
    dsimp only
    rw [hgroup]
    dsimp only
    rw [ih (index + 1)]
    simp

theorem readIpv6Addr_text (segments : Ipv6Addr) {rest : Str} (hdot : '.' ∉ rest) (hends : Ends 16 rest) :
    readIpv6Addr (groupsText 0 segments.toList ++ rest) = some (segments, rest) := by
  have hgroups := readGroups_text hdot hends segments.toList 0
  rw [Vector.length_toList] at hgroups
  unfold readIpv6Addr
  rw [hgroups]
  dsimp only
  rw [if_pos Vector.length_toList]
  refine congrArg (fun segments => some (segments, rest)) ?_
  apply Vector.ext
  intro i hi
  simp

theorem readPort_text (port : UInt16) :
    readPort (':' :: Nat.toDigits 10 port.toNat) = some (port.toNat, []) := by
  have hlt := port.toNat_lt
  have hnumber : readNumber 10 (Nat.toDigits 10 port.toNat).length true 65535
      (Nat.toDigits 10 port.toNat ++ []) = some (port.toNat, []) :=
    readNumber_toDigits isRadix_ten le_rfl (Nat.le_of_lt_succ hlt) (ends_nil 10)
  rw [List.append_nil] at hnumber
  exact hnumber

/-- Every socket address has a text that is read as it. -/
theorem parseSocketAddr_text (address : SocketAddr) : parseSocketAddr address.text = some address := by
  obtain ⟨ip, port⟩ := address
  cases ip with
  | v4 octets =>
    have hread : readSocketAddrV4 (SocketAddr.text ⟨.v4 octets, port⟩) = some (⟨.v4 octets, port⟩, []) := by
      unfold readSocketAddrV4 SocketAddr.text
      dsimp only
      rw [readIpv4Addr_text octets (ends_cons (by decide) _), Option.bind_eq_bind, Option.bind_some]
      dsimp only
      rw [readPort_text, Option.bind_eq_bind, Option.bind_some]
      simp
    unfold parseSocketAddr
    rw [hread]
    rfl
  | v6 segments =>
    have hport : '.' ∉ ']' :: ':' :: Nat.toDigits 10 port.toNat := by
      have hdigits : '.' ∉ Nat.toDigits 10 port.toNat := not_mem_toDigits isRadix_ten (by decide) _
      simp [hdigits]
    have hv4 : readSocketAddrV4 (SocketAddr.text ⟨.v6 segments, port⟩) = none := by
      have hdot : '.' ∉ SocketAddr.text ⟨.v6 segments, port⟩ := by
        have hgroups := @not_mem_groupsText '.' (by decide) (by decide) segments.toList 0
        unfold SocketAddr.text
        simp only [List.mem_cons, List.mem_append] at hport ⊢
        rintro (heq | hmem | hmem)
        · cases heq
        · exact hgroups hmem
        · exact hport hmem
      unfold readSocketAddrV4
      rw [readIpv4Addr_none hdot]
      rfl
    have hread : readSocketAddrV6 (SocketAddr.text ⟨.v6 segments, port⟩) = some (⟨.v6 segments, port⟩, []) := by
      have hopen : readGivenChar '[' (SocketAddr.text ⟨.v6 segments, port⟩) =
          some (groupsText 0 segments.toList ++ ']' :: ':' :: Nat.toDigits 10 port.toNat) := rfl
      have hclose : readGivenChar ']' (readScopeId (']' :: ':' :: Nat.toDigits 10 port.toNat)) =
          some (':' :: Nat.toDigits 10 port.toNat) := rfl
      unfold readSocketAddrV6
      rw [hopen, Option.bind_eq_bind, Option.bind_some, readIpv6Addr_text segments hport (ends_cons (by decide) _),
        Option.bind_eq_bind, Option.bind_some]
      dsimp only
      rw [hclose, Option.bind_eq_bind, Option.bind_some, readPort_text, Option.bind_some]
      simp
    unfold parseSocketAddr
    rw [hv4, hread]
    rfl

theorem not_mem_socketText {c : Char} (hdecimal : toDigit 10 c = none) (hhex : toDigit 16 c = none)
    (hc : c ∉ ['.', ':', '[', ']']) (address : SocketAddr) : c ∉ address.text := by
  have hdigits := fun n => not_mem_toDigits isRadix_ten hdecimal n
  obtain ⟨ip, port⟩ := address
  cases ip with
  | v4 octets =>
    obtain ⟨a, b, c', d, rfl⟩ := ipv4_octets octets
    simp only [SocketAddr.text, ipv4Text_octets, List.mem_append, List.mem_cons, not_or]
    simp only [List.mem_cons, List.not_mem_nil, or_false, not_or] at hc
    exact ⟨⟨hdigits _, hc.1, hdigits _, hc.1, hdigits _, hc.1, hdigits _⟩, hc.2.1, hdigits _⟩
  | v6 segments =>
    simp only [List.mem_cons, List.not_mem_nil, or_false, not_or] at hc
    simp only [SocketAddr.text, List.mem_append, List.mem_cons, not_or]
    exact ⟨hc.2.2.1, not_mem_groupsText hc.2.1 hhex _ 0, hc.2.2.2, hc.2.1, hdigits _⟩

end Net
