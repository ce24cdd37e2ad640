import OrbitRelay.Bootstrap
import OrbitRelay.CatalogContents

/-!
# Bootstrap is stable over restarts

However many runs there are, and wherever each of them ends: one binding with its
Canvas and one Document are written at most, they stay, and the asset of the Document
is published before the Document is.
-/
namespace OrbitRelay.Bootstrap

open AssetStore (SourceAssetDescriptor PublishedAs Preserves AllTold sampleDescriptor sampleIngest)
open Catalog (CanvasDescriptor DocumentDescriptor Contents Kept)
open Server (ServerError)
open Transition

variable {K : BootstrapKernel} {s t : Node K} {canvas : Option (CanvasDescriptor K.catalog)}
  {document : Option (DocumentDescriptor K.catalog)}

/-- The failures that find the two stores at odds with each other or with the binding. -/
def inconsistencies : List ServerError :=
  [.bootstrap "Document references a missing published Asset",
    .bootstrap "Development bootstrap binding references a missing Canvas",
    .bootstrap "Development bootstrap Session mismatch"]

def Published (assets : AssetStore.Store K.assets) (a : K.assets.AssetId) : Prop :=
  ∃ source, PublishedAs assets a source

/-- A development run reports the Canvas that is bound, any other run none. -/
structure Reports (config : ServerConfig K) (canvas reported : Option (CanvasDescriptor K.catalog)) : Prop where
  development : config.developmentMode = true → reported = canvas ∧ canvas ≠ none
  otherwise : config.developmentMode = false → reported = none

/-- The development Canvas of a run that has got this far. -/
structure Holds (config : ServerConfig K) (canvas : Option (CanvasDescriptor K.catalog))
    (c : CanvasDescriptor K.catalog) : Prop where
  development : config.developmentMode = true
  bound : canvas = some c

/-- What a run knows at each of its awaits of what the stores hold. -/
def PhaseOk (config : ServerConfig K) (assets : AssetStore.Store K.assets)
    (canvas : Option (CanvasDescriptor K.catalog)) (document : Option (DocumentDescriptor K.catalog)) :
    Phase K → Prop
  | .idle => assets.worker = none ∧ ∀ i, assets.ingests i = none
  | .openingAssets => assets.worker = none ∧ ∀ i, assets.ingests i = none
  | .openingCatalog => True
  | .lookingUpBinding => config.developmentMode = true
  | .lookingUpCanvas binding => ∃ c, Holds config canvas c ∧ binding = c.binding
  | .publishingCanvas _ => config.developmentMode = true ∧ canvas = none
  | .listing c => Holds config canvas c
  | .readingPdf c => Holds config canvas c ∧ document = none
  | .ingesting c source call => Holds config canvas c ∧ document = none ∧
      ∃ ing, assets.ingests call = some ing ∧ ing.descriptor = source
  | .inspecting c source => Holds config canvas c ∧ document = none ∧ Published assets source.assetId
  | .publishingDocument c composition => Holds config canvas c ∧ document = none ∧
      Published assets (K.asset composition.document.sourceAssetId)
  | .building reported => Reports config canvas reported
  | .validating reported => Reports config canvas reported
  | .checkingAsset reported d rest => Reports config canvas reported ∧ ∀ x ∈ d :: rest, document = some x
  | .viewing reported rest => Reports config canvas reported ∧ ∀ x ∈ rest, document = some x
  | .finished (.ok reported) => Reports config canvas reported
  | .finished (.error e) => e ∉ inconsistencies

/-- The invariant, for the Canvas that is bound and the Document that is stored. -/
structure Sound (s : Node K) (canvas : Option (CanvasDescriptor K.catalog))
    (document : Option (DocumentDescriptor K.catalog)) : Prop where
  assets : AssetStore.Invariant s.assets
  told : AllTold s.assets
  contents : Contents defaultBootstrapBindingKey s.catalog.db.tables canvas document
  sources : ∀ d, document = some d → Published s.assets (K.asset d.sourceAssetId)
  phase : PhaseOk s.config s.assets canvas document s.phase

/-- What is written stays, in a later state that is in order. -/
structure Leads (s t : Node K) (canvas : Option (CanvasDescriptor K.catalog))
    (document : Option (DocumentDescriptor K.catalog)) : Prop where
  sound : ∃ canvas' document', Sound t canvas' document' ∧ (∀ c, canvas = some c → canvas' = some c) ∧
    ∀ d, document = some d → document' = some d
  preserves : Preserves s.assets t.assets
  kept : Kept s.catalog.db.tables t.catalog.db.tables

theorem Published.kept {a : K.assets.AssetId} (h : Published s.assets a) (hkept : Preserves s.assets t.assets) :
    Published t.assets a := by
  obtain ⟨source, hsource⟩ := h
  exact ⟨source, hsource.kept hkept⟩

theorem Holds.reports {config : ServerConfig K} {c : CanvasDescriptor K.catalog} (h : Holds config canvas c) :
    Reports config canvas (some c) where
  development := fun _ => ⟨h.bound.symm, by simp [h.bound]⟩
  otherwise := by
    intro hoff
    rw [h.development] at hoff
    cases hoff

/-! ## One step -/

/-- A step of the asset store. -/
theorem Sound.assets_step (h : Sound s canvas document) (hstep : AssetStore.Step s.assets t.assets)
    (hquiet : t.assets.gen ≠ s.assets.gen → AssetStore.Quiet s.assets)
    (htables : t.catalog.db.tables = s.catalog.db.tables)
    (hphase : Preserves s.assets t.assets → PhaseOk t.config t.assets canvas document t.phase) :
    Leads s t canvas document := by
  obtain ⟨hinv, hkept⟩ := AssetStore.step_invariant h.assets hstep hquiet
  have htold := AssetStore.step_told h.assets h.told hstep hkept
  refine ⟨⟨canvas, document, ⟨hinv, htold, ?_, ?_, hphase hkept⟩, fun _ hc => hc, fun _ hd => hd⟩, hkept, ?_⟩
  · rw [htables]
    exact h.contents
  · intro d hd
    exact (h.sources d hd).kept hkept
  · rw [htables]
    exact .refl _

/-- A step that leaves the asset store as it is. -/
theorem Sound.catalog_step (h : Sound s canvas document) {canvas' : Option (CanvasDescriptor K.catalog)}
    {document' : Option (DocumentDescriptor K.catalog)} (hassets : t.assets = s.assets)
    (hcontents : Contents defaultBootstrapBindingKey t.catalog.db.tables canvas' document')
    (hcanvas : ∀ c, canvas = some c → canvas' = some c) (hdocument : ∀ d, document = some d → document' = some d)
    (hsources : ∀ d, document' = some d → Published s.assets (K.asset d.sourceAssetId))
    (hkept : Kept s.catalog.db.tables t.catalog.db.tables) (hphase : PhaseOk t.config t.assets canvas' document' t.phase) :
    Leads s t canvas document := by
  refine ⟨⟨canvas', document', ⟨?_, ?_, hcontents, ?_, hphase⟩, hcanvas, hdocument⟩, ?_, hkept⟩
  · rw [hassets]
    exact h.assets
  · rw [hassets]
    exact h.told
  · intro d hd
    unfold Published
    rw [hassets]
    exact hsources d hd
  · rw [hassets]
    exact .refl _

/-- A step that leaves both stores as they are. -/
theorem Sound.run_step (h : Sound s canvas document) (hassets : t.assets = s.assets)
    (htables : t.catalog.db.tables = s.catalog.db.tables) (hphase : PhaseOk t.config t.assets canvas document t.phase) :
    Leads s t canvas document := by
  have hcontents := h.contents
  have hkept := Kept.refl s.catalog.db.tables
  rw [← htables] at hcontents
  nth_rewrite 2 [← htables] at hkept
  exact h.catalog_step hassets hcontents (fun _ hc => hc) (fun _ hd => hd) h.sources hkept hphase

theorem failsWith_consistent {error : ServerError} {phase : Phase K} (h : phase.failsWith error) :
    error ∉ inconsistencies := by
  cases phase with
  | openingAssets =>
    rcases h with ⟨message, rfl⟩ | ⟨source, target, rfl⟩ | h
    · simp [inconsistencies]
    · simp [inconsistencies]
    · revert error
      decide
  | building canvas =>
    rcases h with ⟨message, rfl⟩ | h
    · simp [inconsistencies]
    · revert error
      decide
  | openingCatalog =>
    cases h
    decide
  | lookingUpBinding =>
    cases h
    decide
  | viewing canvas rest =>
    cases h
    decide
  | _ => cases h

theorem describePdf_consistent {config : ServerConfig K} {path : PdfPath} {metadata : Option Nat}
    {read : Option AssetStore.Bytes} {fresh : K.assets.AssetId} {error : ServerError}
    (h : describePdf config path metadata read fresh = .error error) : error ∉ inconsistencies := by
  unfold describePdf at h
  split at h
  · cases h
    decide
  · split at h
    · cases h
      decide
    · split at h
      · cases h
        decide
      · split at h
        · cases h
        · cases h
          decide

theorem composeDocument_consistent {session : K.catalog.SessionId} {source : SourceAssetDescriptor K.assets}
    {inspected : Option K.PdfMetadata} {draw : K.Draw} {error : ServerError}
    (h : composeDocument session source inspected draw = .error error) : error ∉ inconsistencies := by
  unfold composeDocument at h
  split at h
  · cases h
    decide
  · split at h
    · cases h
      decide
    · split at h
      · cases h
        decide
      · split at h
        · cases h
          decide
        · cases h

theorem composeDocument_source {session : K.catalog.SessionId} {source : SourceAssetDescriptor K.assets}
    {inspected : Option K.PdfMetadata} {draw : K.Draw} {composition : Catalog.DocumentComposition K.catalog}
    (h : composeDocument session source inspected draw = .ok composition) :
    K.asset composition.document.sourceAssetId = source.assetId := by
  unfold composeDocument at h
  split at h
  · cases h
  · split at h
    · cases h
    · split at h
      · cases h
      · rename_i hinput
        split at h
        · cases h
        · rename_i hcompose
          cases h
          exact K.compose_source hinput hcompose

theorem validateNext_ok {config : ServerConfig K} {assets : AssetStore.Store K.assets}
    {reported : Option (CanvasDescriptor K.catalog)} {rest : List (DocumentDescriptor K.catalog)}
    (h : Reports config canvas reported) (hrest : ∀ x ∈ rest, document = some x) :
    PhaseOk config assets canvas document (validateNext reported rest) := by
  cases rest with
  | nil => exact h
  | cons d rest => exact ⟨h, hrest⟩

/-- A command that failed, or seems to have, ends the run. -/
theorem answered_failed {phase : Phase K} {c : Catalog.Command K.catalog} (hr : phase.request = some c)
    (config : ServerConfig K) (fresh : FreshIds K.catalog) (e : Catalog.CatalogStoreError) :
    ∃ message, phase.answered config fresh (c.failed e) = failed message ∧
      .bootstrap message ∉ inconsistencies := by
  cases phase with
  | lookingUpBinding =>
    cases hr
    exact ⟨_, rfl, by decide⟩
  | lookingUpCanvas binding =>
    cases hr
    exact ⟨_, rfl, by decide⟩
  | publishingCanvas descriptor =>
    cases hr
    exact ⟨_, rfl, by decide⟩
  | listing c =>
    cases hr
    exact ⟨_, rfl, by decide⟩
  | publishingDocument c composition =>
    cases hr
    exact ⟨_, rfl, by decide⟩
  | validating reported =>
    cases hr
    exact ⟨_, rfl, by decide⟩
  | _ => cases hr

theorem lost_ok {phase : Phase K} {c : Catalog.Command K.catalog} (hr : phase.request = some c)
    (fresh : FreshIds K.catalog) (e : Catalog.CatalogStoreError) :
    PhaseOk s.config s.assets canvas document (phase.answered s.config fresh (c.failed e)) := by
  obtain ⟨message, hfailed, hconsistent⟩ := answered_failed hr s.config fresh e
  rw [hfailed]
  exact hconsistent

/-- What the catalog holds after the command of a phase, and that the run knows it when it
hears the reply. -/
structure Heard (s : Node K) (phase : Phase K) (fault : Option Relational.SqliteError)
    (fresh : FreshIds K.catalog) (c : Catalog.Command K.catalog) (canvas : Option (CanvasDescriptor K.catalog))
    (document : Option (DocumentDescriptor K.catalog)) : Prop where
  contents : Contents defaultBootstrapBindingKey (Catalog.execute fault s.catalog.db.tables c).2 canvas document
  sources : ∀ d, document = some d → Published s.assets (K.asset d.sourceAssetId)
  phase : PhaseOk s.config s.assets canvas document
    (phase.answered s.config fresh (Catalog.execute fault s.catalog.db.tables c).1)

/-- A command that reads. -/
theorem Sound.reads (h : Sound s canvas document) {phase : Phase K} {c : Catalog.Command K.catalog}
    (hr : phase.request = some c) (hreads : c.reads = true) (fault : Option Relational.SqliteError)
    (fresh : FreshIds K.catalog) (hphase : PhaseOk s.config s.assets canvas document
      (phase.answered s.config fresh (Catalog.execute none s.catalog.db.tables c).1)) :
    Heard s phase fault fresh c canvas document := by
  refine ⟨?_, h.sources, ?_⟩
  · rw [Catalog.execute_reads hreads]
    exact h.contents
  · cases fault with
    | some e => exact lost_ok hr fresh _
    | none => exact hphase

theorem Sound.executed (h : Sound s canvas document) {phase : Phase K} {c : Catalog.Command K.catalog}
    (hr : phase.request = some c) (hphase : PhaseOk s.config s.assets canvas document phase)
    (fault : Option Relational.SqliteError) (fresh : FreshIds K.catalog) :
    ∃ canvas' document', Heard s phase fault fresh c canvas' document' ∧
      (∀ x, canvas = some x → canvas' = some x) ∧ ∀ d, document = some d → document' = some d := by
  cases phase with
  | lookingUpBinding =>
    cases hr
    refine ⟨canvas, document, h.reads rfl rfl fault fresh ?_, fun _ hx => hx, fun _ hd => hd⟩
    simp only [Catalog.execute, h.contents.bound]
    cases canvas with
    | some c => exact ⟨c, ⟨hphase, rfl⟩, rfl⟩
    | none =>
      simp only [Option.map_none, Phase.answered]
      cases developmentCanvasDescriptor s.config.developmentCanvas fresh with
      | none => exact show ServerError.bootstrap _ ∉ inconsistencies by decide
      | some d => exact ⟨hphase, rfl⟩
  | lookingUpCanvas binding =>
    cases hr
    obtain ⟨c, hc, rfl⟩ := hphase
    refine ⟨canvas, document, h.reads rfl rfl fault fresh ?_, fun _ hx => hx, fun _ hd => hd⟩
    have hstored : Catalog.loadCanvas s.catalog.db.tables c.binding.canvasId = .ok (some c) :=
      h.contents.stored c hc.bound
    have hsession : ¬ c.sessionId ≠ c.binding.sessionId := not_not.mpr rfl
    simp only [Catalog.execute, hstored, Phase.answered, if_neg hsession]
    exact hc
  | publishingCanvas d =>
    cases hr
    obtain ⟨hdev, rfl⟩ := hphase
    cases h.contents.publishCanvas fault d with
    | failed e hreply htables =>
      refine ⟨none, document, ⟨by rw [htables]; exact h.contents, h.sources, ?_⟩, fun _ hx => hx, fun _ hd => hd⟩
      rw [hreply]
      exact lost_ok (c := .publishStandaloneWithBinding defaultBootstrapBindingKey d d.binding) rfl fresh e
    | done outcome hreply hcontents =>
      refine ⟨some d, document, ⟨hcontents, h.sources, ?_⟩, by simp, fun _ hd => hd⟩
      rw [hreply]
      cases outcome with
      | conflict => exact show ServerError.bootstrap _ ∉ inconsistencies by decide
      | inserted => exact ⟨hdev, rfl⟩
      | existing => exact ⟨hdev, rfl⟩
  | listing c =>
    cases hr
    refine ⟨canvas, document, h.reads rfl rfl fault fresh ?_, fun _ hx => hx, fun _ hd => hd⟩
    simp only [Catalog.execute, h.contents.listed, Phase.answered]
    split
    · rename_i hempty
      exact ⟨hphase, Option.toList_eq_nil_iff.mp hempty.1⟩
    · exact Holds.reports hphase
  | publishingDocument c composition =>
    cases hr
    obtain ⟨hc, rfl, hsource⟩ := hphase
    cases h.contents.publishDocument fault composition with
    | failed e hreply htables =>
      refine ⟨canvas, none, ⟨by rw [htables]; exact h.contents, h.sources, ?_⟩, fun _ hx => hx, fun _ hd => hd⟩
      rw [hreply]
      exact lost_ok (c := .publishDocument composition) rfl fresh e
    | done outcome hreply hcontents =>
      refine ⟨canvas, some composition.document, ⟨hcontents, ?_, ?_⟩, fun _ hx => hx, by simp⟩
      · intro d hd
        cases hd
        exact hsource
      · rw [hreply]
        cases outcome with
        | conflict => exact show ServerError.bootstrap _ ∉ inconsistencies by decide
        | inserted => exact hc.reports
        | existing => exact hc.reports
  | validating reported =>
    cases hr
    refine ⟨canvas, document, h.reads rfl rfl fault fresh ?_, fun _ hx => hx, fun _ hd => hd⟩
    simp only [Catalog.execute, h.contents.listed, Phase.answered]
    exact validateNext_ok hphase (fun x hx => Option.mem_toList.mp hx)
  | _ => cases hr

/-- A command of the run, whatever comes back. -/
theorem Sound.request_step (h : Sound s canvas document) {c : Catalog.Command K.catalog}
    (hr : s.phase.request = some c) (fault : Option Relational.SqliteError) (fresh : FreshIds K.catalog)
    {reply : Catalog.Reply K.catalog}
    (hreply : reply = (Catalog.execute fault s.catalog.db.tables c).1 ∨ ∃ e, reply = c.failed e) :
    Leads s { s with
      catalog := s.catalog.after fault c
      phase := s.phase.answered s.config fresh reply } canvas document := by
  obtain ⟨canvas', document', hheard, hcanvas, hdocument⟩ := h.executed hr h.phase fault fresh
  have hkept := (Catalog.execute_grown h.contents.consistent fault c).kept
  refine h.catalog_step rfl hheard.contents hcanvas hdocument hheard.sources hkept ?_
  rcases hreply with rfl | ⟨e, rfl⟩
  · exact hheard.phase
  · exact lost_ok hr fresh e

/-- What one step of a run keeps. -/
theorem step_leads (h : Sound s canvas document) (hst : Step s t) : Leads s t canvas document := by
  have hok := h.phase
  cases hst with
  | start config hphase =>
    rw [hphase] at hok
    exact h.run_step rfl rfl hok
  | fail error hfails => exact h.run_step rfl rfl (failsWith_consistent hfails)
  | openAssets f orphan disk hphase hrec =>
    rw [hphase] at hok
    refine h.assets_step (.opened s.assets f orphan disk hok.1 hrec) ?_ rfl (fun _ => trivial)
    intro _ i ing hi
    rw [hok.2 i] at hi
    cases hi
  | openAssetsFailed f orphan disk e hphase hrec =>
    rw [hphase] at hok
    exact h.assets_step (.openFailed s.assets f orphan e disk hok.1 hrec) (absurd rfl) rfl
      (fun _ => show ServerError.bootstrap _ ∉ inconsistencies by decide)
  | openCatalog f fresh quickCheck id hphase _ =>
    refine h.run_step rfl (Catalog.initializeStorage_tables f fresh quickCheck s.catalog.db) ?_
    show PhaseOk _ _ canvas document (if s.config.developmentMode then .lookingUpBinding else .building none)
    cases hdev : s.config.developmentMode with
    | true => exact hdev
    | false => exact ⟨fun hon => by simp [hdev] at hon, fun _ => rfl⟩
  | openCatalogFailed f fresh quickCheck e hphase _ =>
    exact h.run_step rfl (Catalog.initializeStorage_tables f fresh quickCheck s.catalog.db)
      (show ServerError.bootstrap _ ∉ inconsistencies by decide)
  | request fault fresh c reply hr hreply => exact h.request_step hr fault fresh hreply
  | readPdfFailed c path metadata read fresh error _ _ hfails =>
    exact h.run_step rfl rfl (describePdf_consistent hfails)
  | insertVerified c path metadata read source bytes reads call name hphase _ _ hnone _ _ hchunks hname hfile =>
    rw [hphase] at hok
    refine h.assets_step (.begin s.assets call s.assets.gen source reads name hnone le_rfl hchunks hname hfile)
      (absurd rfl) rfl ?_
    intro _
    exact ⟨hok.1, hok.2, _, Function.update_self _ _ _, rfl⟩
  | ingest c source call assets hphase hmoves =>
    rw [hphase] at hok
    obtain ⟨hc, hdocument, ing, hing, rfl⟩ := hok
    refine h.assets_step hmoves.step (fun hne => absurd hmoves.gen hne) rfl ?_
    intro _
    obtain ⟨ing', hing', -⟩ := hmoves.awaited
    have hsame := AssetStore.step_same hmoves.step hing hing'
    show PhaseOk _ _ canvas document s.phase
    rw [hphase]
    exact ⟨hc, hdocument, ing', hing', hsame.descriptor⟩
  | ingested c source call ing outcome hphase hing hfinished =>
    rw [hphase] at hok
    obtain ⟨hc, hdocument, x, hx, rfl⟩ := hok
    obtain rfl : ing = x := Option.some.inj (hing.symm.trans hx)
    have htold := h.told call ing hing
    simp only [AssetStore.Told, hfinished] at htold
    exact h.run_step rfl rfl ⟨hc, hdocument, _, htold⟩
  | ingestFailed c source call ing e hphase hing hfinished =>
    exact h.run_step rfl rfl (show ServerError.bootstrap _ ∉ inconsistencies by decide)
  | inspectFailed c source inspected draw error _ hfails =>
    exact h.run_step rfl rfl (composeDocument_consistent hfails)
  | composed c source inspected draw composition hphase hcomposed =>
    rw [hphase] at hok
    obtain ⟨hc, hdocument, hsource⟩ := hok
    rw [← composeDocument_source hcomposed] at hsource
    exact h.run_step rfl rfl ⟨hc, hdocument, hsource⟩
  | built reported hphase =>
    rw [hphase] at hok
    exact h.run_step rfl rfl hok
  | checkAsset reported d rest answer hphase hanswer =>
    rw [hphase] at hok
    obtain ⟨hreports, hall⟩ := hok
    obtain ⟨source, hsource⟩ := h.sources d (hall d List.mem_cons_self)
    have hfound := hsource.found hanswer
    refine h.run_step rfl rfl ?_
    cases hget : AssetStore.getAsset answer with
    | error e => exact show ServerError.bootstrap _ ∉ inconsistencies by decide
    | ok found =>
      cases found with
      | none => exact absurd hget hfound
      | some descriptor => exact ⟨hreports, fun x hx => hall x (List.mem_cons_of_mem d hx)⟩
  | viewed reported rest hphase =>
    rw [hphase] at hok
    exact h.run_step rfl rfl (validateNext_ok hok.1 hok.2)
  | stop =>
    exact h.assets_step (.crash s.assets) (absurd rfl) rfl (fun _ => ⟨rfl, fun _ => rfl⟩)

/-! ## Runs -/

theorem init_sound (h : (system K).init s) : Sound s none none := by
  obtain ⟨hdisk, hworker, hingests, hstaged, horigin, hcatalog, hphase⟩ := h
  refine ⟨.start ?_ hingests hstaged ?_, ?_, ?_, ?_, ?_⟩
  · intro id row hrow
    rw [hdisk] at hrow
    cases hrow
  · intro q hq
    rw [hworker] at hq
    cases hq
  · intro j x hx
    rw [hingests] at hx
    cases hx
  · rw [hcatalog]
    exact .empty K.catalog defaultBootstrapBindingKey
  · intro d hd
    cases hd
  · rw [hphase]
    exact ⟨hworker, hingests⟩

/-- A state in order leads to every later one. -/
theorem run_leads (h : Sound s canvas document) (hrun : (system K).Run s t) : Leads s t canvas document := by
  refine System.run_related (S := system K) (P := fun s => ∃ canvas document, Sound s canvas document)
    (R := fun s t => ∀ canvas document, Sound s canvas document → Leads s t canvas document)
    ?_ ?_ ?_ ?_ ⟨canvas, document, h⟩ hrun canvas document h
  · rintro s t ⟨canvas, document, h⟩ hst
    obtain ⟨canvas', document', hsound, -⟩ := (step_leads h hst).sound
    exact ⟨canvas', document', hsound⟩
  · intro s canvas document h
    exact ⟨⟨canvas, document, h, fun _ hc => hc, fun _ hd => hd⟩, .refl _, .refl _⟩
  · intro s t u hst htu canvas document h
    have hfirst := hst canvas document h
    obtain ⟨canvas', document', hsound, hcanvas, hdocument⟩ := hfirst.sound
    have hsecond := htu canvas' document' hsound
    obtain ⟨canvas'', document'', hsound', hcanvas', hdocument'⟩ := hsecond.sound
    exact ⟨⟨canvas'', document'', hsound', fun c hc => hcanvas' c (hcanvas c hc),
      fun d hd => hdocument' d (hdocument d hd)⟩, hfirst.preserves.trans hsecond.preserves,
      hfirst.kept.trans hsecond.kept⟩
  · intro s t _ hst canvas document h
    exact step_leads h hst

theorem reachable_sound (h : (system K).Reachable s) : ∃ canvas document, Sound s canvas document := by
  obtain ⟨s₀, h₀, hrun⟩ := h
  obtain ⟨canvas, document, hsound, -⟩ := (run_leads (init_sound h₀) hrun).sound
  exact ⟨canvas, document, hsound⟩

/-- What the two stores hold at every point: at most one binding, whose Canvas is stored, at
most one Document, whose asset is published with its bytes, and no run that failed over it. -/
structure Coherent (s : Node K) : Prop where
  bindings : s.catalog.db.tables.bindings.rows.length ≤ 1
  documents : s.catalog.db.tables.documents.rows.length ≤ 1
  binding : ∃ binding, Catalog.loadBinding s.catalog.db.tables defaultBootstrapBindingKey = .ok binding ∧
    ∀ b, binding = some b → ∃ c, Catalog.loadCanvas s.catalog.db.tables b.canvasId = .ok (some c) ∧ c.binding = b
  listing : ∃ listed, Catalog.listAllDocuments s.catalog.db.tables = .ok listed ∧ ∀ d ∈ listed,
    Catalog.loadDocument s.catalog.db.tables d.documentId = .ok (some d) ∧
    ∃ source bytes, PublishedAs s.assets (K.asset d.sourceAssetId) source ∧
      s.assets.disk.files.blobs.lookup (AssetStore.blobKey (K.asset d.sourceAssetId)) = some (.file bytes) ∧
      bytes.length = source.byteLength ∧ K.assets.sha256 bytes = source.contentHash
  failures : ∀ e, s.phase = .finished (.error e) → e ∉ inconsistencies

/-- What a later state has kept, and what its run reports. -/
structure Stable (s t : Node K) : Prop where
  assets : Preserves s.assets t.assets
  catalog : Kept s.catalog.db.tables t.catalog.db.tables
  listing : ∀ listed, Catalog.listAllDocuments s.catalog.db.tables = .ok listed → listed ≠ [] →
    Catalog.listAllDocuments t.catalog.db.tables = .ok listed
  binding : ∀ b c, Catalog.loadBinding s.catalog.db.tables defaultBootstrapBindingKey = .ok (some b) →
    Catalog.loadCanvas s.catalog.db.tables b.canvasId = .ok (some c) →
    Catalog.loadBinding t.catalog.db.tables defaultBootstrapBindingKey = .ok (some b) ∧
    Catalog.loadCanvas t.catalog.db.tables b.canvasId = .ok (some c) ∧
    ∀ reported, t.phase = .finished (.ok reported) → t.config.developmentMode = true → reported = some c

theorem Sound.coherent (h : Sound s canvas document) : Coherent s where
  bindings := h.contents.bindings_le
  documents := h.contents.documents_le
  binding := by
    refine ⟨_, h.contents.bound, ?_⟩
    intro b hb
    obtain ⟨c, hc, rfl⟩ := Option.map_eq_some_iff.mp hb
    exact ⟨c, h.contents.stored c hc, rfl⟩
  listing := by
    refine ⟨_, h.contents.listed, ?_⟩
    intro d hd
    have hdocument := Option.mem_toList.mp hd
    obtain ⟨source, hsource⟩ := h.sources d hdocument
    obtain ⟨bytes, hbytes, hlength, hhash⟩ := hsource.intact h.assets
    exact ⟨h.contents.loaded d hdocument, source, bytes, hsource, hbytes, hlength, hhash⟩
  failures := by
    intro e hphase
    have hok := h.phase
    rw [hphase] at hok
    exact hok

theorem Sound.stable (h : Sound s canvas document) (hleads : Leads s t canvas document) : Stable s t := by
  obtain ⟨canvas', document', ht, hcanvas, hdocument⟩ := hleads.sound
  refine ⟨hleads.preserves, hleads.kept, ?_, ?_⟩
  · intro listed hlisted hne
    rw [h.contents.listed] at hlisted
    cases hlisted
    cases document with
    | none => exact absurd rfl hne
    | some d =>
      rw [ht.contents.listed, hdocument d rfl]
  · intro b c hb hc
    rw [h.contents.bound] at hb
    obtain ⟨x, hx, rfl⟩ := Option.map_eq_some_iff.mp (Except.ok.inj hb)
    have hstored : Catalog.loadCanvas s.catalog.db.tables x.binding.canvasId = .ok (some x) :=
      h.contents.stored x hx
    obtain rfl : x = c := Option.some.inj (Except.ok.inj (hstored.symm.trans hc))
    refine ⟨?_, hleads.kept.loadCanvas _ _ hstored, ?_⟩
    · rw [ht.contents.bound, hcanvas x hx]
      rfl
    · intro reported hphase hdev
      have hok := ht.phase
      rw [hphase] at hok
      rw [(Reports.development hok hdev).1, hcanvas x hx]

/-- Bootstrap is stable over restarts: at every point of any number of runs the stores are
coherent, and whatever was written stays and is what later runs find. -/
theorem bootstrap_restart_stable (s : Node K) (hs : (system K).Reachable s) :
    Coherent s ∧ ∀ t, (system K).Run s t → Stable s t := by
  obtain ⟨canvas, document, h⟩ := reachable_sound hs
  exact ⟨h.coherent, fun t hrun => h.stable (run_leads h hrun)⟩

/-- A composition with one page, for any session and asset. -/
def composeOnePage (session asset : String) : Catalog.DocumentComposition Catalog.textCatalog where
  document := {
    documentId := "document-1"
    sessionId := session
    documentType := .pdf
    sourceAssetId := asset
    title := "Test"
    pages := [Catalog.samplePage "page-1" 0 "canvas-2"]
    pages_valid := by decide
    valid := rfl }
  pageCanvases := [Catalog.sampleCanvas "canvas-2" session]
  pages_ne := by simp
  pageIds := by simp
  canvasIds := by simp
  layerIds := by simpa using (Catalog.sampleCanvas "canvas-2" session).layerIds.nodup
  overlays := .cons ⟨rfl, rfl, rfl, rfl⟩ .nil

/-- The inspector reports the asset it was given, the composer one page. -/
def sampleKernel : BootstrapKernel where
  assets := AssetStore.textAssets
  catalog := Catalog.textCatalog
  asset := Equiv.refl String
  PdfMetadata := String
  ComposeInput := String × String
  Draw := Unit
  pdfAssetId := id
  composeInput session source _ := some (session, source.assetId)
  compose _ input := some (composeOnePage input.1 input.2)
  compose_source := by
    rintro session source pdf input draw composition hinput hcompose
    cases hinput
    cases hcompose
    rfl

def sampleConfig : ServerConfig sampleKernel where
  developmentMode := true
  developmentCanvas := ⟨some "session-1", some "canvas-1", some "canvas-1-ink", (10 : Nat), (20 : Nat)⟩
  developmentPdfPath := some ⟨none⟩
  maxAssetBytes := 1

def sampleFresh : FreshIds sampleKernel.catalog := ⟨"session-2", "canvas-3", "canvas-3-ink"⟩

def sampleStart : Node sampleKernel where
  assets := ⟨⟨∅, ⟨∅, ∅, ∅⟩⟩, 0, none, none, fun _ => none, fun _ => none, fun _ => none⟩
  catalog := ⟨⟨∅, Catalog.Tables.empty Catalog.textCatalog⟩, none⟩
  config := sampleConfig
  phase := .idle

theorem sampleStart_init : (system sampleKernel).init sampleStart :=
  ⟨rfl, rfl, fun _ => rfl, fun _ => rfl, fun _ => rfl, rfl, rfl⟩

theorem proceed {c : CanvasDescriptor K.catalog} {source : SourceAssetDescriptor K.assets} {call : Nat}
    {assets : AssetStore.Store K.assets} (h : (system K).Reachable s) (hphase : s.phase = .ingesting c source call)
    (hstep : AssetStore.Step s.assets assets) (hgen : assets.gen = s.assets.gen)
    (hrunning : assets.worker.isSome = true)
    (hawaited : ∃ ing, assets.ingests call = some ing ∧ ing.cancelled = false)
    (hothers : ∀ i, i ≠ call → assets.ingests i = s.assets.ingests i) :
    (system K).Reachable { s with assets } :=
  h.next (.ingest s c source call assets hphase ⟨hstep, hgen, hrunning, hawaited, hothers⟩)

/-- The first run over two new paths, to its end. -/
theorem sampleRun : ∃ s, (system sampleKernel).Reachable s ∧
    s.phase = .finished (.ok (some (Catalog.sampleCanvas "canvas-1" "session-1"))) ∧
    Catalog.loadBinding s.catalog.db.tables defaultBootstrapBindingKey = .ok (some ⟨"session-1", "canvas-1"⟩) ∧
    Catalog.listAllDocuments s.catalog.db.tables =
      .ok [(composeOnePage "session-1" "aaaaaaaa-asset").document] := by
  have h₀ : (system sampleKernel).Reachable sampleStart := .start sampleStart_init
  have h₁ := h₀.next (.start _ sampleConfig rfl)
  have h₂ := h₁.next (.openAssets _ AssetStore.Faults.none (fun _ => "") ⟨∅, ⟨∅, ∅, ∅⟩⟩ rfl rfl)
  have h₃ := h₂.next (.openCatalog _ Catalog.OpenFaults.none "store-1" "ok" "store-1" rfl rfl)
  have h₄ := h₃.next (.request _ none sampleFresh _ (.binding (.ok none)) rfl (.inl rfl))
  have h₅ := h₄.next (.request _ none sampleFresh _ (.published (.ok .inserted)) rfl (.inl rfl))
  have h₆ := h₅.next (.request _ none sampleFresh _ (.documents (.ok [])) rfl (.inl rfl))
  have h₇ := h₆.next (.insertVerified _ (Catalog.sampleCanvas "canvas-1" "session-1") ⟨none⟩ (some 1)
    (some [0x61]) sampleDescriptor [0x61] [some [0x61]] 0 "first" rfl rfl rfl rfl rfl (by simp)
    (by simp [AssetStore.readBufferSize]) (by simp [sampleStart]) rfl)
  have h₈ := proceed h₇ rfl (.send _ 0 (sampleIngest 1 "first" .waiting) [] _ _ _ rfl rfl rfl rfl rfl
    (fun _ => rfl)) rfl rfl ⟨_, rfl, rfl⟩ (fun i hi => Function.update_of_ne hi _ _)
  have h₉ := proceed h₈ rfl (.work _ AssetStore.Faults.none 0 (sampleIngest 1 "first" .looking) _ [] rfl rfl)
    rfl rfl ⟨_, rfl, rfl⟩ (fun i hi => Function.update_of_ne hi _ _)
  have h₁₀ := proceed h₉ rfl (.proceed _ 0 (sampleIngest 1 "first" (.looked (.ok none))) _ rfl rfl rfl)
    rfl rfl ⟨_, rfl, rfl⟩ (fun i hi => Function.update_of_ne hi _ _)
  have h₁₁ := proceed h₁₀ rfl (.create _ 0 (sampleIngest 1 "first" .creating) rfl rfl rfl)
    rfl rfl ⟨_, rfl, rfl⟩ (fun i hi => Function.update_of_ne hi _ _)
  have h₁₂ := proceed h₁₁ rfl (.write _ 0 (sampleIngest 1 "first" (.writing [] [some [0x61]])) [] [0x61] [] 1
    rfl rfl rfl) rfl rfl ⟨_, rfl, rfl⟩ (fun i hi => Function.update_of_ne hi _ _)
  have h₁₃ := proceed h₁₂ rfl (.send _ 0 (sampleIngest 1 "first" (.writing [0x61] [])) [] _ _ _ rfl rfl rfl rfl
    rfl (fun h => by cases h)) rfl rfl ⟨_, rfl, rfl⟩ (fun i hi => Function.update_of_ne hi _ _)
  have h₁₄ := proceed h₁₃ rfl (.work _ AssetStore.Faults.none 0 (sampleIngest 1 "first" .staging) _ [] rfl rfl)
    rfl rfl ⟨_, rfl, rfl⟩ (fun i hi => Function.update_of_ne hi _ _)
  have h₁₅ := proceed h₁₄ rfl (.proceed _ 0 (sampleIngest 1 "first" (.stageAnswered (.ok .inserted))) _
    rfl rfl rfl) rfl rfl ⟨_, rfl, rfl⟩ (fun i hi => Function.update_of_ne hi _ _)
  have h₁₆ := proceed h₁₅ rfl (.rename _ 0 (sampleIngest 1 "first" .renaming) (.file [0x61]) rfl rfl rfl)
    rfl rfl ⟨_, rfl, rfl⟩ (fun i hi => Function.update_of_ne hi _ _)
  have h₁₇ := proceed h₁₆ rfl (.send _ 0 (sampleIngest 1 "first" (.renamed (.ok ()))) [] _ _ _ rfl rfl rfl rfl
    rfl (fun h => by cases h)) rfl rfl ⟨_, rfl, rfl⟩ (fun i hi => Function.update_of_ne hi _ _)
  have h₁₈ := proceed h₁₇ rfl (.work _ AssetStore.Faults.none 0 (sampleIngest 1 "first" .publishing) _ [] rfl rfl)
    rfl rfl ⟨_, rfl, rfl⟩ (fun i hi => Function.update_of_ne hi _ _)
  have h₁₉ := proceed h₁₈ rfl (.proceed _ 0 (sampleIngest 1 "first" (.publishAnswered (.ok ()))) _ rfl rfl rfl)
    rfl rfl ⟨_, rfl, rfl⟩ (fun i hi => Function.update_of_ne hi _ _)
  have h₂₀ := h₁₉.next (.ingested _ (Catalog.sampleCanvas "canvas-1" "session-1") sampleDescriptor 0
    (sampleIngest 1 "first" (.finished (.ok .inserted))) .inserted rfl rfl rfl)
  have h₂₁ := h₂₀.next (.composed _ (Catalog.sampleCanvas "canvas-1" "session-1") sampleDescriptor
    (some "aaaaaaaa-asset") () (composeOnePage "session-1" "aaaaaaaa-asset") rfl rfl)
  have h₂₂ := h₂₁.next (.request _ none sampleFresh _ (.published (.ok .inserted)) rfl (.inl rfl))
  have h₂₃ := h₂₂.next (.built _ (some (Catalog.sampleCanvas "canvas-1" "session-1")) rfl)
  have h₂₄ := h₂₃.next (.request _ none sampleFresh _
    (.documents (.ok [(composeOnePage "session-1" "aaaaaaaa-asset").document])) rfl (.inl rfl))
  have h₂₅ := h₂₄.next (.checkAsset _ (some (Catalog.sampleCanvas "canvas-1" "session-1"))
    (composeOnePage "session-1" "aaaaaaaa-asset").document [] _ rfl (.inl ⟨AssetStore.Faults.none, rfl⟩))
  have h₂₆ := h₂₅.next (.viewed _ (some (Catalog.sampleCanvas "canvas-1" "session-1")) [] rfl)
  exact ⟨_, h₂₆, rfl, rfl, rfl⟩

theorem bootstrap_restart_stable_sample : ∃ s : Node sampleKernel,
    Catalog.loadBinding s.catalog.db.tables defaultBootstrapBindingKey = .ok (some ⟨"session-1", "canvas-1"⟩) ∧
    Catalog.listAllDocuments s.catalog.db.tables = .ok [(composeOnePage "session-1" "aaaaaaaa-asset").document] ∧
    Coherent s ∧ ∀ t, (system sampleKernel).Run s t → Stable s t := by
  obtain ⟨s, hs, -, hbinding, hlisting⟩ := sampleRun
  exact ⟨s, hbinding, hlisting, bootstrap_restart_stable s hs⟩

end OrbitRelay.Bootstrap
