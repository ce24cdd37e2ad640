import OrbitRelay.Config
import OrbitRelay.TextPieces

/-!
# What the environment says is what is configured

Every field of a loaded configuration is what its own variable says, whatever the
others say, and the valid configurations that some environment leads to are told by
their fields alone.
-/
namespace OrbitRelay.Config

open Codec MachineInt Net Overrides Server Text

variable {K : ConfigKernel} {env : String → Option OsString} {c d : ServerConfig K}

/-! ## Validation -/

/-- The bounds of a configuration. -/
structure Valid (c : ServerConfig K) : Prop where
  subscriptionQueue : 0 < c.subscriptionQueueCapacity
  scanLimit : 1 ≤ c.historyStoreScanLimit ∧ c.historyStoreScanLimit ≤ CanvasHistory.maxHistoryStoreScanLimit
  websocketPath : ['/'] <+: c.websocketListener.websocketPath
  maxConnections : 0 < c.websocketListener.maxConnections
  handshakeTimeout : 0 < c.websocketListener.handshakeTimeoutMilliseconds
  gracePeriod : 0 < c.websocketListener.shutdownGracePeriodMilliseconds
  adapter : K.adapterValid c.websocketAdapter = true
  width : c.developmentCanvas.width.isFinite = true ∧ ¬ c.developmentCanvas.width ≤ 0.0
  height : c.developmentCanvas.height.isFinite = true ∧ ¬ c.developmentCanvas.height ≤ 0.0
  assetDelivery : c.assetDelivery.validate = some (.ok ())
  paths : ∀ path ∈ [c.eventStorePath, c.assetStoreRoot, c.catalogStorePath], path ≠ some []
  commandQueue : 0 < c.sqliteCommandQueueCapacity

theorem listener_validate_ok {config : WebSocketListenerConfig} : config.validate = .ok () ↔
    ['/'] <+: config.websocketPath ∧ 0 < config.maxConnections ∧ 0 < config.handshakeTimeoutMilliseconds ∧
      0 < config.shutdownGracePeriodMilliseconds := by
  have hempty : config.websocketPath = [] → ¬ ['/'] <+: config.websocketPath := by
    intro hnil hslash
    rw [hnil] at hslash
    exact absurd (List.prefix_nil.mp hslash) (List.cons_ne_nil _ _)
  unfold WebSocketListenerConfig.validate
  split
  · rename_i hpath
    rcases hpath with hnil | hslash
    · simp [hempty hnil]
    · simp [hslash]
  · rename_i hpath
    rw [not_or, not_not] at hpath
    split
    · simp [*]
    · split
      · simp [*]
      · split
        · simp [*]
        · simp [hpath.2]
          omega

theorem canvas_validate_ok {config : DevelopmentCanvasConfig K} : config.validate = .ok () ↔
    (config.width.isFinite = true ∧ ¬ config.width ≤ 0.0) ∧
      (config.height.isFinite = true ∧ ¬ config.height ≤ 0.0) := by
  unfold DevelopmentCanvasConfig.validate
  split
  · rename_i hwidth
    constructor
    · intro h
      cases h
    · intro h
      rcases hwidth with hfinite | hzero
      · rw [h.1.1] at hfinite
        cases hfinite
      · exact absurd hzero h.1.2
  · rename_i hwidth
    rw [not_or, Bool.not_eq_false] at hwidth
    split
    · rename_i hheight
      constructor
      · intro h
        cases h
      · intro h
        rcases hheight with hfinite | hzero
        · rw [h.2.1] at hfinite
          cases hfinite
        · exact absurd hzero h.2.2
    · rename_i hheight
      rw [not_or, Bool.not_eq_false] at hheight
      exact ⟨fun _ => ⟨hwidth, hheight⟩, fun _ => rfl⟩

theorem stores_validate_ok : c.validateStores = .ok () ↔
    (∀ path ∈ [c.eventStorePath, c.assetStoreRoot, c.catalogStorePath], path ≠ some []) ∧
      0 < c.sqliteCommandQueueCapacity := by
  unfold ServerConfig.validateStores
  split
  · simp [*]
  · split
    · simp [*]
    · split
      · simp [*]
      · split
        · simp [*]
        · simp [*]
          omega

theorem Valid.listener (h : Valid c) : c.websocketListener.validate = .ok () :=
  listener_validate_ok.mpr ⟨h.websocketPath, h.maxConnections, h.handshakeTimeout, h.gracePeriod⟩

/-- The checks pass exactly for a valid configuration. -/
theorem validate_ok_iff : c.validate = some (.ok ()) ↔ Valid c := by
  constructor
  · intro h
    unfold ServerConfig.validate at h
    split at h
    · cases h
    · split at h
      · cases h
      · rename_i hqueue hlimit
        cases hlistener : c.websocketListener.validate with
        | error e =>
          rw [hlistener] at h
          cases h
        | ok u =>
          rw [hlistener] at h
          dsimp only at h
          split at h
          · cases h
          · rename_i hadapter
            cases hcanvas : c.developmentCanvas.validate with
            | error e =>
              rw [hcanvas] at h
              cases h
            | ok u =>
              rw [hcanvas] at h
              dsimp only at h
              split at h
              · cases h
              · cases h
              · rename_i hdelivery
                obtain ⟨hpath, hconnections, hhandshake, hgrace⟩ := listener_validate_ok.mp hlistener
                obtain ⟨hwidth, hheight⟩ := canvas_validate_ok.mp hcanvas
                obtain ⟨hpaths, hcommands⟩ := stores_validate_ok.mp (Option.some.inj h)
                rw [Bool.not_eq_false] at hadapter
                exact ⟨by omega, by omega, hpath, hconnections, hhandshake, hgrace, hadapter, hwidth, hheight,
                  hdelivery, hpaths, hcommands⟩
  · intro h
    have hlimit := h.scanLimit
    unfold ServerConfig.validate
    rw [if_neg h.subscriptionQueue.ne', if_neg (by omega), h.listener]
    dsimp only
    rw [h.adapter, if_neg (by decide), canvas_validate_ok.mpr ⟨h.width, h.height⟩]
    dsimp only
    rw [h.assetDelivery]
    exact congrArg some (stores_validate_ok.mpr ⟨h.paths, h.commandQueue⟩)

theorem validate_total (c : ServerConfig K) : c.validate ≠ none := by
  unfold ServerConfig.validate
  split
  · simp
  · split
    · simp
    · split
      · simp
      · split
        · simp
        · split
          · simp
          · split
            · rename_i hnone
              exact absurd hnone (AssetDelivery.validate_total c.assetDelivery)
            · simp
            · simp

/-- The defaults pass their own checks. -/
theorem default_valid (h : K.adapterValid K.defaultAdapter = true) : Valid (ServerConfig.default K) where
  subscriptionQueue := show 0 < defaultSubscriptionQueueCapacity by decide
  scanLimit := show 1 ≤ defaultHistoryStoreScanLimit ∧
    defaultHistoryStoreScanLimit ≤ CanvasHistory.maxHistoryStoreScanLimit by decide
  websocketPath := show ['/'] <+: "/ws".toList by decide
  maxConnections := show 0 < 1024 by decide
  handshakeTimeout := show 0 < 10000 by decide
  gracePeriod := show 0 < 5000 by decide
  adapter := h
  width := show (1920.0 : Float).isFinite = true ∧ ¬ (1920.0 : Float) ≤ 0.0 by decide +kernel
  height := show (1080.0 : Float).isFinite = true ∧ ¬ (1080.0 : Float) ≤ 0.0 by decide +kernel
  assetDelivery := rfl
  paths := show ∀ path ∈ [none, none, none], path ≠ some [] by decide
  commandQueue := show 0 < defaultCommandQueueCapacity by decide

/-! ## The table of the variables -/

theorem settings_lawful (K : ConfigKernel) : ∀ s ∈ settings K, s.Lawful := by
  simp only [settings, processSettings, developmentSettings, listenerSettings, assetSettings, List.cons_append,
    List.nil_append, List.forall_mem_cons]
  repeat' apply And.intro
  all_goals first
    | exact ⟨fun _ => rfl, fun _ _ => rfl, fun _ _ => rfl⟩
    | exact List.forall_mem_nil _

/-- No two variables are for one field. -/
theorem settings_apart (K : ConfigKernel) : (settings K).Pairwise Apart := by
  simp only [settings, processSettings, developmentSettings, listenerSettings, assetSettings, List.cons_append,
    List.nil_append, List.pairwise_cons, List.forall_mem_cons]
  repeat' apply And.intro
  all_goals first
    | exact ⟨fun _ _ => rfl, fun _ _ => rfl, fun _ _ => rfl⟩
    | exact List.forall_mem_nil _
    | exact .nil

theorem settings_table (K : ConfigKernel) : Table (settings K) := ⟨settings_lawful K, settings_apart K⟩

theorem settings_names (K : ConfigKernel) : ((settings K).map (·.name)).Nodup := by
  simp only [settings, processSettings, developmentSettings, listenerSettings, assetSettings, List.cons_append,
    List.nil_append, List.map_cons, List.map_nil, setting, optionalSetting, numberSetting, boolSetting, textSetting]
  decide +kernel

/-- What no variable is for. -/
structure Inherited (c : ServerConfig K) : Prop where
  metadata : c.nodeMetadata = K.newMetadata
  adapter : c.websocketAdapter = K.defaultAdapter
  limits : c.developmentPdfInspectionLimits = K.defaultLimits

theorem onto_settings (d c : ServerConfig K) : onto (settings K) d c = { d with
    nodeMetadata := c.nodeMetadata
    websocketAdapter := c.websocketAdapter
    developmentPdfInspectionLimits := c.developmentPdfInspectionLimits } := by
  simp only [onto, settings, processSettings, developmentSettings, listenerSettings, assetSettings, List.cons_append,
    List.nil_append, List.foldl_cons, List.foldl_nil, boolSetting, numberSetting, textSetting, optionalSetting, setting]

theorem eq_onto_iff : c = onto (settings K) c (.default K) ↔ Inherited c := by
  rw [onto_settings]
  constructor
  · intro h
    exact ⟨congrArg (·.nodeMetadata) h, congrArg (·.websocketAdapter) h,
      congrArg (·.developmentPdfInspectionLimits) h⟩
  · rintro ⟨hmetadata, hadapter, hlimits⟩
    have hdefault : (ServerConfig.default K).nodeMetadata = c.nodeMetadata ∧
        (ServerConfig.default K).websocketAdapter = c.websocketAdapter ∧
        (ServerConfig.default K).developmentPdfInspectionLimits = c.developmentPdfInspectionLimits :=
      ⟨hmetadata.symm, hadapter.symm, hlimits.symm⟩
    rw [hdefault.1, hdefault.2.1, hdefault.2.2]

theorem load_ok_iff : load K env = some (.ok c) ↔
    overrideAll (settings K) env (.default K) = .ok c ∧ Valid c := by
  unfold load
  cases hread : overrideAll (settings K) env (.default K) with
  | error e => simp
  | ok config =>
    dsimp only
    cases hvalid : config.validate with
    | none => exact absurd hvalid (validate_total config)
    | some result =>
      cases result with
      | error e =>
        have hinvalid : ¬ Valid config := by
          intro h
          rw [validate_ok_iff.mpr h] at hvalid
          cases hvalid
        constructor
        · intro h
          cases h
        · rintro ⟨h, hc⟩
          cases h
          exact absurd hc hinvalid
      | ok u =>
        constructor
        · intro h
          cases h
          exact ⟨rfl, validate_ok_iff.mp hvalid⟩
        · rintro ⟨h, -⟩
          cases h
          rfl

theorem load_empty (h : K.adapterValid K.defaultAdapter = true) :
    load K (fun _ => none) = some (.ok (.default K)) :=
  load_ok_iff.mpr ⟨rfl, default_valid h⟩

/-! ## What a variable is read as -/

/-- Some text without a null character is read as the value. -/
def Readable {α : Type} (parse : Str → Option α) (a : α) : Prop := ∃ s, nul ∉ s ∧ parse s = some a

section Setting

variable {α : Type} {name complaint : String} {parse : Str → Option α} {get : ServerConfig K → α}
  {set : α → ServerConfig K → ServerConfig K}

theorem readUtf8Env_error {raw : OsString} {e : ServerError} (h : readUtf8Env name raw = .error e) :
    ∃ complaint, e = .config (name ++ complaint) := by
  cases raw with
  | unicode text noNul => cases h
  | other =>
    cases h
    exact ⟨_, rfl⟩

/-- The error of a variable names it. -/
theorem setting_error {raw : OsString} {e : ServerError}
    (h : (setting name parse complaint get set).read raw = .error e) :
    ∃ complaint, e = .config (name ++ complaint) := by
  have hread : (readUtf8Env name raw >>= fun value => okOr (.config (name ++ complaint)) (parse value)) = .error e := h
  cases hutf8 : readUtf8Env name raw with
  | error e' =>
    rw [hutf8] at hread
    cases hread
    exact readUtf8Env_error hutf8
  | ok value =>
    rw [hutf8, ok_bind] at hread
    cases hparse : parse value with
    | none =>
      rw [hparse] at hread
      cases hread
      exact ⟨complaint, rfl⟩
    | some a =>
      rw [hparse] at hread
      cases hread

theorem setting_read_iff {a : α} :
    (∃ raw, (setting name parse complaint get set).read raw = .ok a) ↔ Readable parse a := by
  constructor
  · rintro ⟨raw, h⟩
    obtain ⟨value, hutf8, hparse⟩ := bind_ok h
    cases raw with
    | other => cases hutf8
    | unicode text noNul =>
      cases hutf8
      exact ⟨_, noNul, okOr_eq_ok.mp hparse⟩
  · rintro ⟨s, noNul, hparse⟩
    exact ⟨.unicode s noNul, okOr_eq_ok.mpr hparse⟩

theorem setting_expressible :
    (setting name parse complaint get set).Expressible c d ↔ get d = get c ∨ Readable parse (get d) :=
  or_congr Iff.rfl ((and_iff_right rfl).trans setting_read_iff)

end Setting

theorem settings_error (K : ConfigKernel) : ∀ s ∈ settings K, ∀ raw e, s.read raw = .error e →
    ∃ complaint, e = .config (s.name ++ complaint) := by
  simp only [settings, processSettings, developmentSettings, listenerSettings, assetSettings, List.cons_append,
    List.nil_append, List.forall_mem_cons]
  repeat' apply And.intro
  all_goals first
    | exact fun raw e h => setting_error h
    | exact List.forall_mem_nil _

/-- Loading ends, in a configuration exactly if every variable is read and the fields, each of
its own variable, are within their bounds; an error names a variable that is there or is one
of the validation. -/
theorem load_exact (K : ConfigKernel) (env : String → Option OsString) :
    load K env ≠ none ∧
    (∀ c, load K env = some (.ok c) ↔
      (∀ s ∈ settings K, s.Chosen (env s.name) (s.enabled c) (s.get (.default K)) (s.get c)) ∧
        Inherited c ∧ Valid c) ∧
    ∀ e, load K env = some (.error e) →
      (∃ s ∈ settings K, (env s.name).isSome = true ∧ ∃ complaint, e = .config (s.name ++ complaint)) ∨
      ∃ c, (∀ s ∈ settings K, s.Chosen (env s.name) (s.enabled c) (s.get (.default K)) (s.get c)) ∧
        Inherited c ∧ ¬ Valid c ∧ c.validate = some (.error e) := by
  refine ⟨?_, ?_, ?_⟩
  · unfold load
    split
    · simp
    · rename_i config _
      split
      · rename_i hnone
        exact absurd hnone (validate_total config)
      · simp
      · simp
  · intro c
    rw [load_ok_iff, overrideAll_ok_iff (settings_table K), eq_onto_iff, and_assoc]
  · intro e h
    unfold load at h
    cases hread : overrideAll (settings K) env (.default K) with
    | error e' =>
      rw [hread] at h
      cases h
      obtain ⟨s, hs, raw, hraw, herror⟩ := overrideAll_error hread
      exact .inl ⟨s, hs, by rw [hraw]; rfl, settings_error K s hs raw _ herror⟩
    | ok config =>
      rw [hread] at h
      dsimp only at h
      split at h
      · cases h
      · rename_i e' hvalidate
        cases h
        obtain ⟨hchosen, honto⟩ := (overrideAll_ok_iff (settings_table K)).mp hread
        refine .inr ⟨config, hchosen, eq_onto_iff.mp honto, ?_, hvalidate⟩
        intro hvalid
        rw [validate_ok_iff.mpr hvalid] at hvalidate
        cases hvalidate
      · cases h

end OrbitRelay.Config
