import OrbitRelay.ConfigLoad

/-!
# Which configurations an environment leads to

Every kind of value by its texts: numbers in range, socket addresses, origins without
commas and blanks around them. What remains are the fields that no variable is for.
-/
namespace OrbitRelay.Config

open AssetDelivery (AssetDeliveryConfig)
open Codec MachineInt Net Overrides Server Text

variable {K : ConfigKernel} {c : ServerConfig K}

/-! ## Texts of values -/

theorem readable_some {s : Str} : Readable some s ↔ nul ∉ s := by
  constructor
  · rintro ⟨t, hnul, ht⟩
    rw [← Option.some.inj ht]
    exact hnul
  · intro hnul
    exact ⟨s, hnul, rfl⟩

theorem readable_optional {α : Type} {parse : Str → Option α} {o : Option α} :
    o = none ∨ Readable (fun value => (parse value).map some) o ↔ ∀ a, o = some a → Readable parse a := by
  constructor
  · rintro (rfl | ⟨s, hnul, hs⟩) a ha
    · cases ha
    · obtain ⟨b, hb, rfl⟩ := Option.map_eq_some_iff.mp hs
      rw [← Option.some.inj ha]
      exact ⟨s, hnul, hb⟩
  · intro h
    cases o with
    | none => exact .inl rfl
    | some a =>
      obtain ⟨s, hnul, hs⟩ := h a rfl
      exact .inr ⟨s, hnul, Option.map_eq_some_iff.mpr ⟨a, hs, rfl⟩⟩

theorem readable_text {o : Option Str} :
    o = none ∨ Readable (fun value => some (some value)) o ↔ ∀ s, o = some s → nul ∉ s :=
  (@readable_optional Str some o).trans (forall_congr' fun _ => imp_congr_right fun _ => readable_some)

theorem nul_not_decimal {s : Str} {n : Nat} (h : decimal s = some n) : nul ∉ s :=
  decimal_not_mem h (by decide)

theorem parseU64_le {s : Str} {n : Nat} (h : parseU64 s = some n) : n ≤ u64Max := by
  unfold parseU64 at h
  split at h
  · obtain ⟨m, -, hm⟩ := Option.bind_eq_some_iff.mp h
    split at hm
    · cases hm
      assumption
    · cases hm
  · obtain ⟨m, -, hm⟩ := Option.bind_eq_some_iff.mp h
    split at hm
    · cases hm
      assumption
    · cases hm

theorem parseU64_toString {n : Nat} (h : n ≤ u64Max) : parseU64 (toString n).toList = some n := by
  have hdecimal := decimal_toString n
  unfold parseU64
  split
  · rename_i digits hplus
    have hnot : '+' ∉ (toString n).toList := decimal_not_mem hdecimal (by decide)
    rw [hplus] at hnot
    exact absurd List.mem_cons_self hnot
  · rw [hdecimal, Option.bind_some, if_pos h]

theorem readable_u64 {n : Nat} : Readable parseU64 n ↔ n ≤ u64Max := by
  constructor
  · rintro ⟨s, -, hs⟩
    exact parseU64_le hs
  · intro h
    exact ⟨_, nul_not_decimal (decimal_toString n), parseU64_toString h⟩

theorem parseI64_le {s : String} {z : Int} (h : parseI64 s = some z) : z ≤ i64Max := by
  have hto : ∀ n : Nat, toI64 n = some z → z ≤ i64Max := by
    intro n hn
    unfold toI64 at hn
    split at hn
    · cases hn
      exact_mod_cast (by assumption : n ≤ i64Max)
    · cases hn
  unfold parseI64 at h
  split at h
  · obtain ⟨m, -, hm⟩ := Option.bind_eq_some_iff.mp h
    split at hm
    · cases hm
      omega
    · cases hm
  · obtain ⟨m, -, hm⟩ := Option.bind_eq_some_iff.mp h
    exact hto m hm
  · obtain ⟨m, -, hm⟩ := Option.bind_eq_some_iff.mp h
    exact hto m hm

theorem readable_i64 {z : Int} (hpos : 0 < z) :
    Readable (fun value => parseI64 (String.ofList value)) z ↔ z ≤ i64Max := by
  constructor
  · rintro ⟨s, -, hs⟩
    exact parseI64_le hs
  · intro h
    obtain ⟨n, rfl⟩ := Int.eq_ofNat_of_zero_le hpos.le
    have hdecimal := decimal_toString n
    refine ⟨_, nul_not_decimal hdecimal, ?_⟩
    have hminus : '-' ∉ (toString n).toList := decimal_not_mem hdecimal (by decide)
    have hplus : '+' ∉ (toString n).toList := decimal_not_mem hdecimal (by decide)
    dsimp only
    unfold parseI64
    rw [String.toList_ofList]
    split
    · rename_i digits hdigits
      rw [hdigits] at hminus
      exact absurd List.mem_cons_self hminus
    · rename_i digits hdigits
      rw [hdigits] at hplus
      exact absurd List.mem_cons_self hplus
    · rw [hdecimal, Option.bind_some]
      exact toI64_of_le (by exact_mod_cast h)

theorem readable_bool (b : Bool) : Readable parseBool b := by
  cases b with
  | true => exact ⟨"true".toList, by decide, by decide⟩
  | false => exact ⟨"false".toList, by decide, by decide⟩

theorem readable_socket (address : SocketAddr) : Readable parseSocketAddr address :=
  ⟨address.text, not_mem_socketText (by decide) (by decide) (by decide) address, parseSocketAddr_text address⟩

/-- An origin that is one of a list. -/
structure IsOrigin (origin : Str) : Prop where
  ne : origin ≠ []
  trimmed : trim origin = origin
  noComma : ',' ∉ origin
  noNul : nul ∉ origin

theorem parseOrigins_intercalate {origins : List Str} (h : ∀ origin ∈ origins, IsOrigin origin) :
    parseOrigins ([','].intercalate origins) = origins := by
  by_cases hne : origins = []
  · rw [hne]
    rfl
  · have htrim : origins.map trim = origins := by
      rw [List.map_congr_left (fun origin ho => (h origin ho).trimmed), List.map_id']
    unfold parseOrigins
    rw [split_intercalate hne (fun origin ho => (h origin ho).noComma), htrim, List.filter_eq_self]
    intro origin ho
    exact decide_eq_true (h origin ho).ne

theorem readable_origins {origins : List Str} :
    Readable (fun value => some (parseOrigins value)) origins ↔ ∀ origin ∈ origins, IsOrigin origin := by
  constructor
  · rintro ⟨s, hnul, hs⟩ origin horigin
    rw [← Option.some.inj hs] at horigin
    obtain ⟨hmem, hne⟩ := List.mem_filter.mp horigin
    obtain ⟨piece, hpiece, rfl⟩ := List.mem_map.mp hmem
    obtain ⟨hcomma, hsub⟩ := mem_split hpiece
    exact ⟨of_decide_eq_true hne, trim_trim piece, fun hc => hcomma (trim_subset piece hc),
      fun hc => hnul (hsub (trim_subset piece hc))⟩
  · intro h
    refine ⟨[','].intercalate origins, ?_, congrArg some (parseOrigins_intercalate h)⟩
    intro hc
    rcases mem_intercalate hc with hc | ⟨origin, horigin, hc⟩
    · exact absurd hc (by decide)
    · exact (h origin horigin).noNul hc

/-! ## Configurations -/

def ServerConfig.numbers (c : ServerConfig K) : List Nat :=
  [c.subscriptionQueueCapacity, c.historyStoreScanLimit, c.sqliteCommandQueueCapacity,
    c.websocketListener.maxConnections, c.websocketListener.handshakeTimeoutMilliseconds,
    c.websocketListener.shutdownGracePeriodMilliseconds, c.assetDelivery.maxConnections,
    c.assetDelivery.maxActiveDownloads, c.assetDelivery.chunkSize, c.assetDelivery.idleTimeoutMilliseconds,
    c.assetDelivery.maxGrants]

def ServerConfig.texts (c : ServerConfig K) : List (Option Str) :=
  [c.eventStorePath, c.assetStoreRoot, c.catalogStorePath, c.developmentPdfPath, c.assetDelivery.publicBaseUrl,
    some c.websocketListener.websocketPath]

theorem default_numbers (K : ConfigKernel) : ∀ n ∈ (ServerConfig.default K).numbers, n ≤ u64Max := by
  have hdefault : (ServerConfig.default K).numbers =
      [64, 64, 256, 1024, 10000, 5000, 64, 8, 64 * 1024, 30000, 4096] := rfl
  rw [hdefault]
  decide

/-- What a configuration that was loaded is like. -/
structure Loadable (c : ServerConfig K) : Prop where
  valid : Valid c
  inherited : Inherited c
  nodeId : ∀ id, c.nodeId = some id → Readable K.parseNodeId id
  sessionId : ∀ id, c.developmentCanvas.sessionId = some id → Readable K.parseSessionId id
  canvasId : ∀ id, c.developmentCanvas.canvasId = some id → Readable K.parseCanvasId id
  layerId : ∀ id, c.developmentCanvas.layerId = some id → Readable K.parseLayerId id
  width : Readable parseF64 c.developmentCanvas.width
  height : Readable parseF64 c.developmentCanvas.height
  numbers : ∀ n ∈ c.numbers, n ≤ u64Max
  grantTtl : c.assetDelivery.grantTtlSeconds ≤ i64Max
  texts : ∀ text ∈ c.texts, ∀ s, text = some s → nul ∉ s
  pdf : c.developmentPdfPath ≠ none → c.developmentMode = true
  origins : ∀ origin ∈ c.assetDelivery.allowedOrigins, IsOrigin origin

theorem number_expressible {name : String} {get : ServerConfig K → Nat} {set : Nat → ServerConfig K → ServerConfig K}
    (h : get (.default K) ≤ u64Max) :
    (numberSetting name get set).Expressible (.default K) c ↔ get c ≤ u64Max := by
  rw [numberSetting, setting_expressible, readable_u64]
  constructor
  · rintro (hsame | hle)
    · rw [hsame]
      exact h
    · exact hle
  · exact .inr

theorem optional_expressible {α : Type} {name complaint : String} {parse : Str → Option α}
    {get : ServerConfig K → Option α} {set : Option α → ServerConfig K → ServerConfig K}
    (h : get (.default K) = none) :
    (optionalSetting name parse complaint get set).Expressible (.default K) c ↔
      ∀ a, get c = some a → Readable parse a := by
  rw [optionalSetting, setting_expressible, h]
  exact readable_optional

theorem text_expressible {name : String} {get : ServerConfig K → Option Str}
    {set : Option Str → ServerConfig K → ServerConfig K} (h : get (.default K) = none) :
    (textSetting name get set).Expressible (.default K) c ↔ ∀ s, get c = some s → nul ∉ s := by
  rw [textSetting, setting_expressible, h]
  exact readable_text

theorem total_expressible {α : Type} {name complaint : String} {parse : Str → Option α} {get : ServerConfig K → α}
    {set : α → ServerConfig K → ServerConfig K} (h : ∀ a, Readable parse a) :
    (setting name parse complaint get set).Expressible (.default K) c :=
  setting_expressible.mpr (.inr (h (get c)))

theorem default_expressible {α : Type} {name complaint : String} {parse : Str → Option α} {get : ServerConfig K → α}
    {set : α → ServerConfig K → ServerConfig K} (h : Readable parse (get (.default K))) :
    (setting name parse complaint get set).Expressible (.default K) c ↔ Readable parse (get c) := by
  rw [setting_expressible]
  constructor
  · rintro (hsame | hread)
    · rw [hsame]
      exact h
    · exact hread
  · exact .inr

/-- The variable that is only read in development mode. -/
theorem pdf_expressible {name : String} {set : Option Str → ServerConfig K → ServerConfig K} :
    Setting.Expressible { textSetting name (·.developmentPdfPath) set with enabled := (·.developmentMode) }
      (.default K) c ↔
      (c.developmentPdfPath ≠ none → c.developmentMode = true) ∧ ∀ s, c.developmentPdfPath = some s → nul ∉ s := by
  have hread : (∃ raw, (textSetting name (·.developmentPdfPath) set).read raw = .ok c.developmentPdfPath) ↔
      Readable (fun value => some (some value)) c.developmentPdfPath := setting_read_iff
  show c.developmentPdfPath = none ∨ c.developmentMode = true ∧
    (∃ raw, (textSetting name (·.developmentPdfPath) set).read raw = .ok c.developmentPdfPath) ↔ _
  rw [hread, ← readable_text]
  cases hpath : c.developmentPdfPath with
  | none => simp
  | some path => simp

theorem grantTtl_pos {config : AssetDeliveryConfig} (h : config.validate = some (.ok ())) :
    0 < config.grantTtlSeconds := by
  unfold AssetDeliveryConfig.validate at h
  split at h
  · cases h
  · split at h
    · cases h
    · split at h
      · cases h
      · split at h
        · cases h
        · omega

theorem grantTtl_expressible {name complaint : String} {set : Int → ServerConfig K → ServerConfig K} (h : Valid c) :
    (setting name (fun value => parseI64 (String.ofList value)) complaint (·.assetDelivery.grantTtlSeconds)
      set).Expressible (.default K) c ↔ c.assetDelivery.grantTtlSeconds ≤ i64Max := by
  rw [setting_expressible, readable_i64 (grantTtl_pos h.assetDelivery)]
  constructor
  · rintro (hsame | hle)
    · rw [hsame]
      exact show (600 : Int) ≤ i64Max by decide
    · exact hle
  · exact .inr

theorem readable_width : Readable parseF64 1920.0 := ⟨"1920.0".toList, by decide, rfl⟩

theorem readable_height : Readable parseF64 1080.0 := ⟨"1080.0".toList, by decide, rfl⟩

/-- A configuration is what some environment leads to exactly when it is valid, has the defaults
where no variable is for a field, and has in each of the others what its variable can say. -/
theorem loadable_iff (K : ConfigKernel) (c : ServerConfig K) : (∃ env, load K env = some (.ok c)) ↔ Loadable c := by
  simp only [load_ok_iff, exists_and_right, exists_overrideAll_iff (settings_table K) (settings_names K), eq_onto_iff]
  constructor
  · rintro ⟨⟨hsettings, hinherited⟩, hvalid⟩
    simp only [settings, processSettings, developmentSettings, listenerSettings, assetSettings, List.cons_append,
      List.nil_append, List.forall_mem_cons] at hsettings
    obtain ⟨hnode, hsubscription, hscan, hevents, hassets, hcatalog, hcommands, -, hpdf, hsession, hcanvas, hlayer,
      hwidth, hheight, -, hpath, hconnections, hhandshake, hgrace, -, -, hurl, hassetConnections, hdownloads, hchunk,
      hidle, httl, hgrants, horigins, -⟩ := hsettings
    have hdefault := default_numbers K
    simp only [ServerConfig.numbers, List.forall_mem_cons] at hdefault
    obtain ⟨d₁, d₂, d₃, d₄, d₅, d₆, d₇, d₈, d₉, d₁₀, d₁₁, -⟩ := hdefault
    refine ⟨hvalid, hinherited, (optional_expressible rfl).mp hnode, (optional_expressible rfl).mp hsession,
      (optional_expressible rfl).mp hcanvas, (optional_expressible rfl).mp hlayer,
      (default_expressible readable_width).mp hwidth, (default_expressible readable_height).mp hheight, ?_, ?_, ?_,
      (pdf_expressible.mp hpdf).1, readable_origins.mp ((default_expressible ?_).mp horigins)⟩
    · simp only [ServerConfig.numbers, List.forall_mem_cons]
      exact ⟨(number_expressible d₁).mp hsubscription, (number_expressible d₂).mp hscan,
        (number_expressible d₃).mp hcommands, (number_expressible d₄).mp hconnections,
        (number_expressible d₅).mp hhandshake, (number_expressible d₆).mp hgrace,
        (number_expressible d₇).mp hassetConnections, (number_expressible d₈).mp hdownloads,
        (number_expressible d₉).mp hchunk, (number_expressible d₁₀).mp hidle, (number_expressible d₁₁).mp hgrants,
        List.forall_mem_nil _⟩
    · exact (grantTtl_expressible hvalid).mp httl
    · simp only [ServerConfig.texts, List.forall_mem_cons]
      refine ⟨(text_expressible rfl).mp hevents, (text_expressible rfl).mp hassets, (text_expressible rfl).mp hcatalog,
        (pdf_expressible.mp hpdf).2, (text_expressible rfl).mp hurl, ?_, List.forall_mem_nil _⟩
      intro s hs
      rw [← Option.some.inj hs]
      exact readable_some.mp ((default_expressible (readable_some.mpr (show nul ∉ "/ws".toList by decide))).mp hpath)
    · exact readable_origins.mpr (List.forall_mem_nil _)
  · intro h
    have hdefault := default_numbers K
    have hnumbers := h.numbers
    have htexts := h.texts
    simp only [ServerConfig.numbers, List.forall_mem_cons] at hdefault hnumbers
    simp only [ServerConfig.texts, List.forall_mem_cons] at htexts
    obtain ⟨d₁, d₂, d₃, d₄, d₅, d₆, d₇, d₈, d₉, d₁₀, d₁₁, -⟩ := hdefault
    obtain ⟨n₁, n₂, n₃, n₄, n₅, n₆, n₇, n₈, n₉, n₁₀, n₁₁, -⟩ := hnumbers
    obtain ⟨hevents, hassets, hcatalog, hpdf, hurl, hpath, -⟩ := htexts
    refine ⟨⟨?_, h.inherited⟩, h.valid⟩
    simp only [settings, processSettings, developmentSettings, listenerSettings, assetSettings, List.cons_append,
      List.nil_append, List.forall_mem_cons]
    exact ⟨(optional_expressible rfl).mpr h.nodeId, (number_expressible d₁).mpr n₁, (number_expressible d₂).mpr n₂,
      (text_expressible rfl).mpr hevents, (text_expressible rfl).mpr hassets, (text_expressible rfl).mpr hcatalog,
      (number_expressible d₃).mpr n₃, total_expressible readable_bool, pdf_expressible.mpr ⟨h.pdf, hpdf⟩,
      (optional_expressible rfl).mpr h.sessionId, (optional_expressible rfl).mpr h.canvasId,
      (optional_expressible rfl).mpr h.layerId, (default_expressible readable_width).mpr h.width,
      (default_expressible readable_height).mpr h.height, total_expressible readable_socket,
      setting_expressible.mpr (.inr (readable_some.mpr (hpath _ rfl))), (number_expressible d₄).mpr n₄,
      (number_expressible d₅).mpr n₅, (number_expressible d₆).mpr n₆, total_expressible readable_bool,
      total_expressible readable_socket, (text_expressible rfl).mpr hurl, (number_expressible d₇).mpr n₇,
      (number_expressible d₈).mpr n₈, (number_expressible d₉).mpr n₉, (number_expressible d₁₀).mpr n₁₀,
      (grantTtl_expressible h.valid).mpr h.grantTtl, (number_expressible d₁₁).mpr n₁₁,
      setting_expressible.mpr (.inr (readable_origins.mpr h.origins)), List.forall_mem_nil _⟩

end OrbitRelay.Config
