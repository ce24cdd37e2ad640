import OrbitRelay.AssetConfig

/-!
# Public base URLs

The grammar of the URLs that may be advertised, over all texts, against
`validate_public_base_url`.
-/
namespace OrbitRelay.AssetDelivery

open MachineInt Net Server Text

def portText : Option Str → Str
  | none => []
  | some port => ':' :: port

/-- An authority with its host, which is in brackets if it has colons. -/
inductive Authority (host : Str) (port : Option Str) : Str → Prop
  | literal : ']' ∉ host → Authority host port ('[' :: (host ++ ']' :: portText port))
  | name : ':' ∉ host → host.head? ≠ some '[' → Authority host port (host ++ portText port)

/-- A scheme, an authority and at most one slash. -/
inductive BaseUrl (scheme host : Str) (port : Option Str) : Str → Prop
  | root {authority slash : Str} : scheme = "http".toList ∨ scheme = "https".toList → host ≠ [] →
      Authority host port authority → '/' ∉ authority → slash = [] ∨ slash = ['/'] →
      BaseUrl scheme host port (scheme ++ ("://".toList ++ (authority ++ slash)))

def Unspecified (host : Str) : Prop :=
  ∃ ip, parseIpAddr (trimMatches isBracket host) = some ip ∧ ip.isUnspecified = true

/-- The port is left out, or is a decimal number of 16 bits. -/
def IsPort (port : Option Str) : Prop := ∀ digits, port = some digits → ∃ n, decimal digits = some n ∧ n ≤ 65535

/-- The port is a decimal number of 16 bits behind a plus sign. -/
def PlusPort (port : Option Str) : Prop := ∃ digits n, port = some ('+' :: digits) ∧ decimal digits = some n ∧ n ≤ 65535

def UrlWith (P : Option Str → Prop) (value : Str) : Prop :=
  (∀ c ∈ value, isWhitespace c = false ∧ c ≠ '?' ∧ c ≠ '#') ∧
    ∃ scheme host port, BaseUrl scheme host port value ∧ P port ∧ ¬ Unspecified host

/-- The URLs that may be advertised. -/
def IsPublicBaseUrl (value : Str) : Prop := UrlWith IsPort value

/-! ## Ports -/

/-- A port that the integer parser takes. -/
def Lenient (port : Option Str) : Prop := ∀ text, port = some text → (parseU16 text).isSome = true

theorem bounded_isSome {s : Str} :
    ((decimal s).bind fun n => if n ≤ 65535 then some n else none).isSome = true ↔
      ∃ n, decimal s = some n ∧ n ≤ 65535 := by
  cases decimal s with
  | none => simp
  | some n =>
    rw [Option.bind_some]
    split <;> simp_all

/-- The integer parser takes a plus sign. -/
theorem parseU16_isSome {s : Str} : (parseU16 s).isSome = true ↔
    (∃ n, decimal s = some n ∧ n ≤ 65535) ∨ ∃ digits n, s = '+' :: digits ∧ decimal digits = some n ∧ n ≤ 65535 := by
  unfold parseU16
  split
  · rename_i digits
    rw [bounded_isSome]
    constructor
    · rintro ⟨n, hn, hle⟩
      exact .inr ⟨digits, n, rfl, hn, hle⟩
    · rintro (⟨n, hn, -⟩ | ⟨other, n, heq, hn, hle⟩)
      · exact absurd List.mem_cons_self (decimal_not_mem hn (c := '+') (by decide))
      · cases heq
        exact ⟨n, hn, hle⟩
  · rename_i hplus
    rw [bounded_isSome]
    constructor
    · exact .inl
    · rintro (h | ⟨digits, n, rfl, -⟩)
      · exact h
      · exact absurd rfl (hplus digits)

theorem lenient_iff {port : Option Str} : Lenient port ↔ IsPort port ∨ PlusPort port := by
  unfold Lenient IsPort PlusPort
  cases port with
  | none => simp
  | some text =>
    simp only [Option.some.injEq, forall_eq', parseU16_isSome]

theorem isPort_not_plus {port : Option Str} (h : IsPort port) : ¬ PlusPort port := by
  rintro ⟨digits, n, rfl, -⟩
  obtain ⟨m, hm, -⟩ := h _ rfl
  exact absurd List.mem_cons_self (decimal_not_mem hm (c := '+') (by decide))

/-! ## Authorities -/

theorem bracketSuffix_ok {host found suffix : Str} :
    bracketSuffix host suffix = some (.ok found) ↔
      found = host ∧ ∃ port, suffix = portText port ∧ Lenient port := by
  unfold bracketSuffix Lenient
  cases suffix with
  | nil =>
    rw [if_pos rfl]
    constructor
    · intro h
      cases h
      exact ⟨rfl, none, rfl, nofun⟩
    · rintro ⟨rfl, -⟩
      rfl
  | cons c text =>
    rw [if_neg (List.cons_ne_nil c text)]
    by_cases hc : c = ':'
    · subst hc
      have hslice : sliceFrom 1 (':' :: text) = some text := sliceFrom_append [':'] text
      have hcolon : [':'] <+: ':' :: text := List.prefix_append [':'] text
      rw [if_neg (not_not.mpr hcolon), hslice]
      dsimp only
      constructor
      · intro h
        split at h
        · cases h
        · rename_i hport
          cases h
          refine ⟨rfl, some text, rfl, ?_⟩
          rintro _ ⟨⟩
          exact Option.isSome_iff_ne_none.mpr hport
      · rintro ⟨rfl, port, hport, hlenient⟩
        cases port with
        | none => cases hport
        | some other =>
          cases hport
          rw [if_neg (Option.isSome_iff_ne_none.mp (hlenient _ rfl))]
    · rw [if_pos (by simpa [List.cons_prefix_cons] using Ne.symm hc)]
      refine iff_of_false nofun ?_
      rintro ⟨-, port, hport, -⟩
      cases port with
      | none => cases hport
      | some other =>
        cases hport
        exact hc rfl

theorem bracketSuffix_total (host suffix : Str) : bracketSuffix host suffix ≠ none := by
  unfold bracketSuffix
  split
  · exact nofun
  · split
    · exact nofun
    · rename_i hcolon
      obtain ⟨text, rfl⟩ := not_not.mp hcolon
      have hslice : sliceFrom 1 ([':'] ++ text) = some text := sliceFrom_append [':'] text
      rw [hslice]
      dsimp only
      split <;> exact nofun

theorem authorityHost_bracket {host : Str} (h : ']' ∉ host) (suffix : Str) :
    authorityHost ('[' :: (host ++ ']' :: suffix)) = bracketSuffix host suffix := by
  have hstrip : stripPrefix ['['] ('[' :: (host ++ ']' :: suffix)) = some (host ++ ']' :: suffix) :=
    stripPrefix_append ['['] _
  have hrest : sliceFrom (len host + 1) (host ++ ']' :: suffix) = some suffix := by
    have hslice := sliceFrom_append (host ++ [']']) suffix
    rwa [len_append, List.append_assoc] at hslice
  rw [authorityHost, hstrip]
  dsimp only
  rw [find_append h]
  dsimp only
  rw [sliceTo_append, hrest]

theorem authorityHost_open {rest : Str} (h : ']' ∉ rest) :
    authorityHost ('[' :: rest) = some (.error (.config "asset public base URL has an invalid IPv6 authority")) := by
  have hstrip : stripPrefix ['['] ('[' :: rest) = some rest := stripPrefix_append ['['] _
  rw [authorityHost, hstrip]
  dsimp only
  rw [find_none h]

theorem stripPrefix_none {c : Char} {s : Str} (h : s.head? ≠ some c) : stripPrefix [c] s = none := by
  rw [Option.eq_none_iff_forall_ne_some]
  intro rest hrest
  rw [stripPrefix_eq_some.mp hrest] at h
  exact h rfl

/-- Without a bracket the host ends at the only colon. -/
theorem authorityHost_name {host : Str} (hcolon : ':' ∉ host) (hhead : host.head? ≠ some '[') :
    authorityHost host = some (.ok host) := by
  rw [authorityHost, stripPrefix_none hhead]
  dsimp only
  rw [if_neg (by rw [List.count_eq_zero_of_not_mem hcolon]; decide), rsplitOnce_none hcolon]

theorem authorityHost_port {host port : Str} (hhost : ':' ∉ host) (hport : ':' ∉ port)
    (hhead : (host ++ ':' :: port).head? ≠ some '[') :
    authorityHost (host ++ ':' :: port) =
      if host = [] ∨ parseU16 port = none then
        some (.error (.config "asset public base URL has an invalid port"))
      else some (.ok host) := by
  have hcount : (host ++ ':' :: port).count ':' = 1 := by
    rw [List.count_append, List.count_cons_self, List.count_eq_zero_of_not_mem hhost,
      List.count_eq_zero_of_not_mem hport]
  rw [authorityHost, stripPrefix_none hhead]
  dsimp only
  rw [if_neg (by rw [hcount]; decide), rsplitOnce_char hport]

theorem authorityHost_colons {authority : Str} (hhead : authority.head? ≠ some '[') (h : 1 < authority.count ':') :
    authorityHost authority = some (.error (.config "asset public base URL has an invalid IPv6 authority")) := by
  rw [authorityHost, stripPrefix_none hhead]
  dsimp only
  rw [if_pos h]

theorem Authority.bracket_iff {host rest : Str} {port : Option Str} (hne : host ≠ []) :
    Authority host port ('[' :: rest) ↔ ']' ∉ host ∧ rest = host ++ ']' :: portText port := by
  constructor
  · intro h
    generalize hauthority : '[' :: rest = authority at h
    cases h with
    | literal hclose =>
      cases hauthority
      exact ⟨hclose, rfl⟩
    | name _ hhead =>
      cases host with
      | nil => exact absurd rfl hne
      | cons c host =>
        cases hauthority
        exact absurd rfl hhead
  · rintro ⟨hclose, rfl⟩
    exact .literal hclose

theorem Authority.plain_iff {host authority : Str} {port : Option Str} (hne : host ≠ [])
    (hhead : authority.head? ≠ some '[') :
    Authority host port authority ↔ ':' ∉ host ∧ authority = host ++ portText port := by
  constructor
  · intro h
    cases h with
    | literal => exact absurd rfl hhead
    | name hcolon => exact ⟨hcolon, rfl⟩
  · rintro ⟨hcolon, rfl⟩
    refine .name hcolon ?_
    cases host with
    | nil => exact absurd rfl hne
    | cons c host => exact hhead

theorem Authority.unique {host host' authority : Str} {port port' : Option Str} (hne : host ≠ []) (hne' : host' ≠ [])
    (h : Authority host port authority) (h' : Authority host' port' authority) : host = host' ∧ port = port' := by
  have hport : ∀ {p q : Option Str}, portText p = portText q → p = q := by
    intro p q heq
    cases p <;> cases q <;> cases heq <;> rfl
  by_cases hhead : authority.head? = some '['
  · obtain ⟨rest, rfl⟩ := List.head?_eq_some_iff.mp hhead
    obtain ⟨hclose, rfl⟩ := (Authority.bracket_iff hne).mp h
    obtain ⟨hclose', heq⟩ := (Authority.bracket_iff hne').mp h'
    obtain ⟨rfl, htext⟩ := first_unique hclose hclose' heq
    exact ⟨rfl, hport htext⟩
  · obtain ⟨hcolon, rfl⟩ := (Authority.plain_iff hne hhead).mp h
    obtain ⟨hcolon', heq⟩ := (Authority.plain_iff hne' hhead).mp h'
    cases port with
    | none =>
      cases port' with
      | none => exact ⟨by simpa [portText] using heq, rfl⟩
      | some p =>
        rw [portText, List.append_nil] at heq
        exact absurd (by rw [heq]; simp [portText]) hcolon
    | some p =>
      cases port' with
      | none =>
        rw [portText, portText, List.append_nil] at heq
        exact absurd (by rw [← heq]; simp) hcolon'
      | some q =>
        obtain ⟨rfl, rfl⟩ := first_unique hcolon hcolon' heq
        exact ⟨rfl, rfl⟩

theorem Lenient.not_mem {port : Str} (h : Lenient (some port)) : ':' ∉ port := by
  rcases parseU16_isSome.mp (h port rfl) with ⟨n, hn, -⟩ | ⟨digits, n, rfl, hn, -⟩
  · exact decimal_not_mem hn (by decide)
  · intro hmem
    rcases List.mem_cons.mp hmem with heq | hmem
    · cases heq
    · exact decimal_not_mem hn (by decide) hmem

theorem authorityHost_ok_bracket {host rest : Str} (hne : host ≠ []) :
    authorityHost ('[' :: rest) = some (.ok host) ↔ ∃ port, Authority host port ('[' :: rest) ∧ Lenient port := by
  simp only [Authority.bracket_iff hne]
  by_cases hclose : ']' ∈ rest
  · obtain ⟨inner, suffix, rfl, hinner⟩ := exists_first hclose
    rw [authorityHost_bracket hinner, bracketSuffix_ok]
    constructor
    · rintro ⟨rfl, port, rfl, hport⟩
      exact ⟨port, ⟨hinner, rfl⟩, hport⟩
    · rintro ⟨port, ⟨hhost, heq⟩, hport⟩
      obtain ⟨rfl, rfl⟩ := first_unique hinner hhost heq
      exact ⟨rfl, port, rfl, hport⟩
  · rw [authorityHost_open hclose]
    refine iff_of_false nofun ?_
    rintro ⟨port, ⟨-, rfl⟩, -⟩
    exact hclose (by simp)

theorem authorityHost_ok_colon {host name text : Str} (hne : host ≠ []) (hname : ':' ∉ name)
    (hhead : (name ++ ':' :: text).head? ≠ some '[') :
    authorityHost (name ++ ':' :: text) = some (.ok host) ↔
      ∃ port, (':' ∉ host ∧ name ++ ':' :: text = host ++ portText port) ∧ Lenient port := by
  have hcolon : ':' ∈ name ++ ':' :: text := by simp
  by_cases htext : ':' ∈ text
  · have hcount : 1 < (name ++ ':' :: text).count ':' := by
      have hpos := List.count_pos_iff.mpr htext
      rw [List.count_append, List.count_cons_self]
      omega
    rw [authorityHost_colons hhead hcount]
    refine iff_of_false nofun ?_
    rintro ⟨port, ⟨hhost, heq⟩, hport⟩
    cases port with
    | none =>
      rw [portText, List.append_nil] at heq
      exact hhost (heq ▸ hcolon)
    | some port =>
      obtain ⟨-, rfl⟩ := first_unique hname hhost heq
      exact hport.not_mem htext
  · rw [authorityHost_port hname htext hhead]
    constructor
    · intro h
      split at h
      · cases h
      · rename_i hgood
        cases h
        refine ⟨some text, ⟨hname, rfl⟩, ?_⟩
        rintro _ ⟨⟩
        exact Option.isSome_iff_ne_none.mpr (not_or.mp hgood).2
    · rintro ⟨port, ⟨hhost, heq⟩, hport⟩
      cases port with
      | none =>
        rw [portText, List.append_nil] at heq
        exact absurd (heq ▸ hcolon) hhost
      | some port =>
        obtain ⟨rfl, rfl⟩ := first_unique hname hhost heq
        rw [if_neg (not_or.mpr ⟨hne, Option.isSome_iff_ne_none.mp (hport _ rfl)⟩)]

/-- The host that is taken from an authority is the host in the grammar. -/
theorem authorityHost_ok {host authority : Str} (hne : host ≠ []) :
    authorityHost authority = some (.ok host) ↔ ∃ port, Authority host port authority ∧ Lenient port := by
  by_cases hhead : authority.head? = some '['
  · obtain ⟨rest, rfl⟩ := List.head?_eq_some_iff.mp hhead
    exact authorityHost_ok_bracket hne
  · simp only [Authority.plain_iff hne hhead]
    by_cases hcolon : ':' ∈ authority
    · obtain ⟨name, text, rfl, hname⟩ := exists_first hcolon
      exact authorityHost_ok_colon hne hname hhead
    · rw [authorityHost_name hcolon hhead]
      constructor
      · intro h
        cases h
        exact ⟨none, ⟨hcolon, (List.append_nil _).symm⟩, nofun⟩
      · rintro ⟨port, ⟨-, rfl⟩, -⟩
        cases port with
        | none => rw [portText, List.append_nil]
        | some port => exact absurd (by simp [portText]) hcolon

/-- No slice of an authority is out of range. -/
theorem authorityHost_total (authority : Str) : authorityHost authority ≠ none := by
  by_cases hhead : authority.head? = some '['
  · obtain ⟨rest, rfl⟩ := List.head?_eq_some_iff.mp hhead
    by_cases hclose : ']' ∈ rest
    · obtain ⟨inner, suffix, rfl, hinner⟩ := exists_first hclose
      rw [authorityHost_bracket hinner]
      exact bracketSuffix_total inner suffix
    · rw [authorityHost_open hclose]
      exact nofun
  · rw [authorityHost, stripPrefix_none hhead]
    dsimp only
    split
    · exact nofun
    · split
      · split <;> exact nofun
      · exact nofun

/-! ## Whole URLs -/

/-- The authority ends at the first slash, and nothing may follow that. -/
theorem splitPath_iff {remainder authority : Str} :
    ((splitPath remainder).1 = authority ∧ ((splitPath remainder).2.any (· ≠ [])) = false) ↔
      '/' ∉ authority ∧ ∃ slash, remainder = authority ++ slash ∧ (slash = [] ∨ slash = ['/']) := by
  unfold splitPath
  by_cases hslash : '/' ∈ remainder
  · obtain ⟨front, path, rfl, hfront⟩ := exists_first hslash
    rw [splitOnce_char hfront]
    constructor
    · rintro ⟨rfl, hpath⟩
      have hnil : path = [] := by simpa using hpath
      exact ⟨hfront, ['/'], by rw [hnil], .inr rfl⟩
    · rintro ⟨hauthority, slash, heq, rfl | rfl⟩
      · rw [List.append_nil] at heq
        exact absurd (heq ▸ hslash) hauthority
      · obtain ⟨rfl, rfl⟩ := first_unique hfront hauthority heq
        exact ⟨rfl, rfl⟩
  · rw [splitOnce_none hslash]
    constructor
    · rintro ⟨rfl, -⟩
      exact ⟨hslash, [], (List.append_nil _).symm, .inl rfl⟩
    · rintro ⟨-, slash, rfl, rfl | rfl⟩
      · exact ⟨List.append_nil _, rfl⟩
      · exact absurd (by simp) hslash

theorem scheme_colon {scheme : Str} (h : scheme = "http".toList ∨ scheme = "https".toList) : ':' ∉ scheme := by
  rcases h with rfl | rfl <;> decide

/-- The parts of a URL are found by the first `://` and the slash behind it. -/
theorem BaseUrl.parts {scheme host value : Str} {port : Option Str} (h : BaseUrl scheme host port value) :
    ∃ remainder, splitOnce "://".toList value = some (scheme, remainder) ∧
      (scheme = "http".toList ∨ scheme = "https".toList) ∧ host ≠ [] ∧
      Authority host port (splitPath remainder).1 ∧ ((splitPath remainder).2.any (· ≠ [])) = false := by
  cases h with
  | @root authority slash hscheme hhost hauthority hfree hslash =>
    obtain ⟨hfirst, hpath⟩ := splitPath_iff.mpr ⟨hfree, slash, rfl, hslash⟩
    refine ⟨authority ++ slash, splitOnce_piece (scheme_colon hscheme) _, hscheme, hhost, ?_, hpath⟩
    rw [hfirst]
    exact hauthority

theorem baseUrl_of_parts {scheme host value remainder : Str} {port : Option Str}
    (hsplit : splitOnce "://".toList value = some (scheme, remainder))
    (hscheme : scheme = "http".toList ∨ scheme = "https".toList) (hhost : host ≠ [])
    (hauthority : Authority host port (splitPath remainder).1)
    (hpath : ((splitPath remainder).2.any (· ≠ [])) = false) : BaseUrl scheme host port value := by
  obtain ⟨hfree, slash, hremainder, hslash⟩ := splitPath_iff.mp ⟨rfl, hpath⟩
  rw [splitOnce_append hsplit, hremainder, List.append_assoc]
  exact .root hscheme hhost hauthority hfree hslash

/-- A URL has one host and one port. -/
theorem BaseUrl.unique {scheme scheme' host host' value : Str} {port port' : Option Str}
    (h : BaseUrl scheme host port value) (h' : BaseUrl scheme' host' port' value) : host = host' ∧ port = port' := by
  obtain ⟨remainder, hsplit, -, hne, hauthority, -⟩ := h.parts
  obtain ⟨remainder', hsplit', -, hne', hauthority', -⟩ := h'.parts
  rw [hsplit] at hsplit'
  cases hsplit'
  exact hauthority.unique hne hne' hauthority'

theorem unspecified_iff {host : Str} :
    (parseIpAddr (trimMatches isBracket host)).any IpAddr.isUnspecified = true ↔ Unspecified host := by
  rw [Option.any_eq_true]
  rfl

theorem clean_iff {scheme remainder value : Str} (hscheme : scheme = "http".toList ∨ scheme = "https".toList)
    (hsplit : splitOnce "://".toList value = some (scheme, remainder)) :
    (∀ c ∈ value, isWhitespace c = false ∧ c ≠ '?' ∧ c ≠ '#') ↔
      value.any isWhitespace = false ∧ '?' ∉ remainder ∧ '#' ∉ remainder := by
  have hvalue := splitOnce_append hsplit
  constructor
  · intro h
    refine ⟨List.any_eq_false.mpr fun c hc => by simp [(h c hc).1], ?_, ?_⟩
    · intro hmem
      exact (h '?' (by rw [hvalue]; simp [hmem])).2.1 rfl
    · intro hmem
      exact (h '#' (by rw [hvalue]; simp [hmem])).2.2 rfl
  · rintro ⟨hsolid, hquery, hfragment⟩ c hc
    have hfront : '?' ∉ scheme ++ "://".toList ∧ '#' ∉ scheme ++ "://".toList := by
      rcases hscheme with rfl | rfl <;> decide
    refine ⟨by simpa using List.any_eq_false.mp hsolid c hc, ?_, ?_⟩
    · rintro rfl
      rw [hvalue] at hc
      exact (List.mem_append.mp hc).elim hfront.1 hquery
    · rintro rfl
      rw [hvalue] at hc
      exact (List.mem_append.mp hc).elim hfront.2 hfragment

/-- What `validate_public_base_url` accepts. -/
theorem validatePublicBaseUrl_ok {value : Str} : validatePublicBaseUrl value = some (.ok ()) ↔ UrlWith Lenient value := by
  constructor
  · intro h
    unfold validatePublicBaseUrl at h
    split at h
    · cases h
    · rename_i scheme remainder hsplit
      split at h
      · cases h
      · rename_i hscheme
        dsimp only at h
        split at h
        · cases h
        · rename_i hshape
          split at h
          · cases h
          · cases h
          · rename_i host hhost
            split at h
            · cases h
            · rename_i hne
              split at h
              · cases h
              · rename_i hspecified
                obtain ⟨port, hauthority, hport⟩ := (authorityHost_ok hne).mp hhost
                simp only [not_or, not_and_or, not_not] at hscheme hshape
                obtain ⟨-, hpath, hquery, hfragment⟩ := hshape
                refine ⟨?_, scheme, host, port, ?_, hport, fun hu => hspecified (unspecified_iff.mpr hu)⟩
                · exact (clean_iff hscheme.1 hsplit).mpr ⟨Bool.eq_false_iff.mpr hscheme.2, hquery, hfragment⟩
                · exact baseUrl_of_parts hsplit hscheme.1 hne hauthority (Bool.eq_false_iff.mpr hpath)
  · rintro ⟨hclean, scheme, host, port, hurl, hport, hspecified⟩
    obtain ⟨remainder, hsplit, hscheme, hhost, hauthority, hpath⟩ := hurl.parts
    obtain ⟨hsolid, hquery, hfragment⟩ := (clean_iff hscheme hsplit).mp hclean
    have hauthorityHost := (authorityHost_ok hhost).mpr ⟨port, hauthority, hport⟩
    have hne : (splitPath remainder).1 ≠ [] := by
      intro hnil
      rw [hnil] at hauthority
      obtain ⟨-, heq⟩ := (Authority.plain_iff hhost (by simp)).mp hauthority
      exact hhost (List.append_eq_nil_iff.mp heq.symm).1
    have hbad : ¬ (scheme ≠ "http".toList ∧ scheme ≠ "https".toList ∨ value.any isWhitespace = true) := by
      rw [hsolid]
      rintro (⟨hhttp, hhttps⟩ | h)
      · exact hscheme.elim hhttp hhttps
      · cases h
    rw [validatePublicBaseUrl, hsplit]
    dsimp only
    rw [if_neg hbad, if_neg (not_or.mpr ⟨hne, not_or.mpr ⟨Bool.eq_false_iff.mp hpath, not_or.mpr ⟨hquery, hfragment⟩⟩⟩),
      hauthorityHost]
    dsimp only
    rw [if_neg hhost, if_neg (fun hu => hspecified (unspecified_iff.mp hu))]

theorem validatePublicBaseUrl_total (value : Str) : validatePublicBaseUrl value ≠ none := by
  unfold validatePublicBaseUrl
  split
  · exact nofun
  · split
    · exact nofun
    · dsimp only
      split
      · exact nofun
      · split
        · exact absurd ‹_› (authorityHost_total _)
        · exact nofun
        · split
          · exact nofun
          · split <;> exact nofun

/-- Nothing panics, and what is accepted are the URLs of the grammar, but for a plus sign before the port. -/
theorem accepts_exactly_iff (value : Str) :
    (validatePublicBaseUrl value ≠ none ∧ (validatePublicBaseUrl value = some (.ok ()) ↔ IsPublicBaseUrl value)) ↔
      ¬ UrlWith PlusPort value := by
  rw [validatePublicBaseUrl_ok]
  constructor
  · rintro ⟨-, h⟩ ⟨hclean, scheme, host, port, hurl, hplus, hspecified⟩
    obtain ⟨-, scheme', host', port', hurl', hport, -⟩ :=
      h.mp ⟨hclean, scheme, host, port, hurl, lenient_iff.mpr (.inr hplus), hspecified⟩
    obtain ⟨-, rfl⟩ := hurl.unique hurl'
    exact isPort_not_plus hport hplus
  · intro h
    refine ⟨validatePublicBaseUrl_total value, ?_, ?_⟩
    · rintro ⟨hclean, scheme, host, port, hurl, hport, hspecified⟩
      rcases lenient_iff.mp hport with hnumber | hplus
      · exact ⟨hclean, scheme, host, port, hurl, hnumber, hspecified⟩
      · exact absurd ⟨hclean, scheme, host, port, hurl, hplus, hspecified⟩ h
    · rintro ⟨hclean, scheme, host, port, hurl, hport, hspecified⟩
      exact ⟨hclean, scheme, host, port, hurl, lenient_iff.mpr (.inl hport), hspecified⟩

/-- A port with a plus sign is accepted. -/
theorem plus_port_accepted :
    validatePublicBaseUrl "http://localhost:+80".toList = some (.ok ()) ∧
      ¬ IsPublicBaseUrl "http://localhost:+80".toList := by
  have hurl : BaseUrl "http".toList "localhost".toList (some "+80".toList)
      ("http".toList ++ ("://".toList ++ (("localhost".toList ++ portText (some "+80".toList)) ++ []))) :=
    .root (.inl rfl) (by decide) (.name (by decide) (by decide)) (by decide) (.inl rfl)
  refine ⟨by decide +kernel, ?_⟩
  rintro ⟨-, scheme, host, port, hurl', hport, -⟩
  obtain ⟨-, heq⟩ := hurl.unique hurl'
  exact isPort_not_plus (heq ▸ hport) ⟨"80".toList, 80, rfl, by decide, by decide⟩

end OrbitRelay.AssetDelivery
