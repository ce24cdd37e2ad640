import OrbitRelay.BootstrapRestart
import OrbitRelay.CatalogLinear

/-!
# Runs that choose where their assets are

Over one catalog path, every run of `Bootstrap::initialize` may keep its assets in the
local store or in the memory of its process. A run that ends well has the asset of every
Document, and a Document whose asset is nowhere ends every later run.
-/
namespace OrbitRelay.Bootstrap

open AssetStore (SourceAssetDescriptor sampleDescriptor)
open Catalog (CanvasDescriptor DocumentDescriptor Shelf Represents)
open Server (ServerError)
open Transition

variable {K : BootstrapKernel}

/-- A node, and what its run has inserted into a memory store if it has one. -/
structure ModeNode (K : BootstrapKernel) where
  node : Node K
  memory : Option (List (SourceAssetDescriptor K.assets))

/-- The awaits that are for the asset store. -/
def Phase.asksAssets : Phase K → Bool
  | .openingAssets => true
  | .readingPdf _ => true
  | .ingesting _ _ _ => true
  | .checkingAsset _ _ _ => true
  | _ => false

def Phase.running : Phase K → Bool
  | .idle => false
  | _ => true

/-- Where the validation goes on once `get_asset` has answered. -/
def lookedUp (reported : Option (CanvasDescriptor K.catalog)) (rest : List (DocumentDescriptor K.catalog)) :
    Except String (Option (SourceAssetDescriptor K.assets)) → Phase K
  | .error _ => failed "Document source Asset lookup failed"
  | .ok none => failed "Document references a missing published Asset"
  | .ok (some _) => .viewing reported rest

inductive ModeStep : ModeNode K → ModeNode K → Prop where
  /-- A run over the local store. -/
  | persistent (s : ModeNode K) (node : Node K) : s.memory = none → Step s.node node → ModeStep s ⟨node, none⟩
  | startMemory (s : ModeNode K) (config : ServerConfig K) : s.memory = none → s.node.phase = .idle →
      ModeStep s ⟨{ s.node with config, phase := .openingAssets }, some []⟩
  /-- What a run does in the same way over either store. -/
  | shared (s : ModeNode K) (node : Node K) (inserted : List (SourceAssetDescriptor K.assets)) :
      s.memory = some inserted → s.node.phase.asksAssets = false → Step s.node node → node.phase.running = true →
      ModeStep s ⟨node, some inserted⟩
  | failMemory (s : ModeNode K) (inserted : List (SourceAssetDescriptor K.assets)) (error : ServerError) :
      s.memory = some inserted → s.node.phase = .openingAssets → s.node.phase.failsWith error →
      error ≠ .bootstrap "persistent Asset store initialization failed" →
      ModeStep s ⟨{ s.node with phase := .finished (.error error) }, some inserted⟩
  | openMemory (s : ModeNode K) (inserted : List (SourceAssetDescriptor K.assets)) :
      s.memory = some inserted → s.node.phase = .openingAssets →
      ModeStep s ⟨{ s.node with phase := .openingCatalog }, some inserted⟩
  | readPdfFailed (s : ModeNode K) (inserted : List (SourceAssetDescriptor K.assets))
      (canvas : CanvasDescriptor K.catalog) (path : PdfPath) (metadata : Option Nat)
      (read : Option AssetStore.Bytes) (fresh : K.assets.AssetId) (error : ServerError) :
      s.memory = some inserted → s.node.phase = .readingPdf canvas →
      s.node.config.developmentPdfPath = some path →
      describePdf s.node.config path metadata read fresh = .error error →
      ModeStep s ⟨{ s.node with phase := .finished (.error error) }, some inserted⟩
  | insertMemory (s : ModeNode K) (inserted : List (SourceAssetDescriptor K.assets))
      (canvas : CanvasDescriptor K.catalog) (path : PdfPath) (metadata : Option Nat)
      (read : Option AssetStore.Bytes) (source : SourceAssetDescriptor K.assets) (bytes : AssetStore.Bytes) :
      s.memory = some inserted → s.node.phase = .readingPdf canvas →
      s.node.config.developmentPdfPath = some path →
      describePdf s.node.config path metadata read source.assetId = .ok (source, bytes) →
      ModeStep s ⟨{ s.node with phase := .inspecting canvas source }, some (source :: inserted)⟩
  | insertMemoryFailed (s : ModeNode K) (inserted : List (SourceAssetDescriptor K.assets))
      (canvas : CanvasDescriptor K.catalog) (path : PdfPath) (metadata : Option Nat)
      (read : Option AssetStore.Bytes) (source : SourceAssetDescriptor K.assets) (bytes : AssetStore.Bytes) :
      s.memory = some inserted → s.node.phase = .readingPdf canvas →
      s.node.config.developmentPdfPath = some path →
      describePdf s.node.config path metadata read source.assetId = .ok (source, bytes) →
      ModeStep s ⟨{ s.node with phase := failed "development PDF asset verification failed" }, some inserted⟩
  /-- A memory store finds what was inserted into it, and nothing else. -/
  | checkMemory (s : ModeNode K) (inserted : List (SourceAssetDescriptor K.assets))
      (reported : Option (CanvasDescriptor K.catalog)) (document : DocumentDescriptor K.catalog)
      (rest : List (DocumentDescriptor K.catalog))
      (answer : Except String (Option (SourceAssetDescriptor K.assets))) :
      s.memory = some inserted → s.node.phase = .checkingAsset reported document rest →
      (answer = .ok (inserted.find? (fun x => x.assetId = K.asset document.sourceAssetId)) ∨
        ∃ detail, answer = .error detail) →
      ModeStep s ⟨{ s.node with phase := lookedUp reported rest answer }, some inserted⟩
  /-- The process stops, and its memory is gone. -/
  | stopMemory (s : ModeNode K) (inserted : List (SourceAssetDescriptor K.assets)) : s.memory = some inserted →
      ModeStep s ⟨{ s.node with
        assets := killed s.node.assets
        catalog := { s.node.catalog with opened := none }
        phase := .idle }, none⟩

/-- Any number of runs over one catalog path and one asset root, of which every run uses
the asset root or leaves it alone. -/
def modeSystem (K : BootstrapKernel) : System (ModeNode K) where
  init s := (system K).init s.node ∧ s.memory = none
  step := ModeStep

/-- The asset of a Document is where the run looks for it. -/
def Serves (memory : Option (List (SourceAssetDescriptor K.assets))) (assets : AssetStore.Store K.assets)
    (d : DocumentDescriptor K.catalog) : Prop :=
  match memory with
  | none => Published assets (K.asset d.sourceAssetId)
  | some inserted => ∃ x ∈ inserted, x.assetId = K.asset d.sourceAssetId

/-- What a run knows of the Documents at each of its awaits. -/
def Backed (serves : DocumentDescriptor K.catalog → Prop) (documents : List (DocumentDescriptor K.catalog)) :
    Phase K → Prop
  | .readingPdf _ => documents = []
  | .ingesting _ _ _ => documents = []
  | .inspecting _ _ => documents = []
  | .publishingDocument _ _ => documents = []
  | .checkingAsset _ d rest => ∃ checked, documents = checked ++ d :: rest ∧ ∀ x ∈ checked, serves x
  | .viewing _ rest => ∃ checked, documents = checked ++ rest ∧ ∀ x ∈ checked, serves x
  | .finished (.ok _) => ∀ x ∈ documents, serves x
  | _ => True

variable {n n' : Node K} {s t : ModeNode K} {shelf : Shelf K.catalog}
  {serves : DocumentDescriptor K.catalog → Prop} {documents : List (DocumentDescriptor K.catalog)}

theorem backed_validateNext {reported : Option (CanvasDescriptor K.catalog)}
    {checked rest : List (DocumentDescriptor K.catalog)} (hchecked : ∀ x ∈ checked, serves x) :
    Backed serves (checked ++ rest) (validateNext reported rest) := by
  cases rest with
  | nil =>
    rw [List.append_nil]
    exact hchecked
  | cons d rest => exact ⟨checked, rfl, hchecked⟩

theorem backed_failed (message : String) : Backed serves documents (failed message : Phase K) := trivial

theorem backed_lookedUp {reported : Option (CanvasDescriptor K.catalog)} {d : DocumentDescriptor K.catalog}
    {rest : List (DocumentDescriptor K.catalog)} {answer : Except String (Option (SourceAssetDescriptor K.assets))}
    (h : Backed serves documents (.checkingAsset reported d rest))
    (hfound : ∀ x, answer = .ok (some x) → serves d) : Backed serves documents (lookedUp reported rest answer) := by
  cases answer with
  | error detail => exact backed_failed _
  | ok found =>
    cases found with
    | none => exact backed_failed _
    | some x =>
      obtain ⟨checked, hdocuments, hchecked⟩ := h
      refine ⟨checked ++ [d], by rw [hdocuments, List.append_assoc, List.singleton_append], ?_⟩
      intro y hy
      rcases List.mem_append.mp hy with hy | hy
      · exact hchecked y hy
      · rw [List.mem_singleton.mp hy]
        exact hfound x rfl

/-! ## One step -/

/-- A command that SQLite carries out, and what the run knows when it hears the reply. -/
theorem backed_executed (h : Represents n.catalog.db.tables shelf) {phase : Phase K}
    {c : Catalog.Command K.catalog} (hr : phase.request = some c) (hok : Backed serves shelf.documents phase)
    (config : ServerConfig K) (fresh : FreshIds K.catalog) (hkept : c.reads = true → documents = shelf.documents) :
    Backed serves documents (phase.answered config fresh (Catalog.execute none n.catalog.db.tables c).1) := by
  cases phase with
  | lookingUpBinding =>
    cases hr
    simp only [Catalog.execute, h.loadBinding, Phase.answered]
    cases shelf.binding defaultBootstrapBindingKey with
    | some binding => trivial
    | none =>
      dsimp only
      cases developmentCanvasDescriptor config.developmentCanvas fresh with
      | none => exact backed_failed _
      | some d => trivial
  | lookingUpCanvas binding =>
    cases hr
    simp only [Catalog.execute, h.loadCanvas, Phase.answered]
    cases shelf.canvas binding.canvasId with
    | none => exact backed_failed _
    | some d =>
      dsimp only
      split
      · exact backed_failed _
      · trivial
  | publishingCanvas d =>
    cases hr
    simp only [Catalog.execute]
    cases (Catalog.transact n.catalog.db.tables
        (Catalog.publishStandaloneWithBinding n.catalog.db.tables defaultBootstrapBindingKey d d.binding)).1 with
    | error e => exact backed_failed _
    | ok outcome => cases outcome <;> trivial
  | listing canvas =>
    cases hr
    obtain rfl := hkept rfl
    simp only [Catalog.execute, h.listAllDocuments, Phase.answered]
    split
    · rename_i hempty
      exact hempty.1
    · trivial
  | publishingDocument canvas composition =>
    cases hr
    simp only [Catalog.execute]
    cases (Catalog.transact n.catalog.db.tables
        (Catalog.publishDocument n.catalog.db.tables composition)).1 with
    | error e => exact backed_failed _
    | ok outcome => cases outcome <;> trivial
  | validating reported =>
    cases hr
    obtain rfl := hkept rfl
    simp only [Catalog.execute, h.listAllDocuments, Phase.answered]
    exact @backed_validateNext K serves reported [] shelf.documents (List.forall_mem_nil _)
  | _ => cases hr

/-- What a step leaves of the Documents and of what is published. -/
structure Onward (serves : DocumentDescriptor K.catalog → Prop) (n n' : Node K) (shelf shelf' : Shelf K.catalog) :
    Prop where
  represents : Represents n'.catalog.db.tables shelf'
  documents : shelf.documents <+: shelf'.documents
  backed : Backed serves shelf'.documents n'.phase
  unpublished : shelf.documents ≠ [] → ∀ a, Published n'.assets a → Published n.assets a

/-- A step that leaves both stores as they are. -/
theorem Onward.same (h : Represents n.catalog.db.tables shelf) (htables : n'.catalog.db.tables = n.catalog.db.tables)
    (hassets : n'.assets.disk.assets = n.assets.disk.assets) (hbacked : Backed serves shelf.documents n'.phase) :
    Onward serves n n' shelf shelf where
  represents := by
    rw [htables]
    exact h
  documents := List.prefix_rfl
  backed := hbacked
  unpublished := by
    rintro - a ⟨source, row, hrow, hdecode⟩
    rw [hassets] at hrow
    exact ⟨source, row, hrow, hdecode⟩

theorem request_onward (h : Represents n.catalog.db.tables shelf) {c : Catalog.Command K.catalog}
    (hr : n.phase.request = some c) (hok : Backed serves shelf.documents n.phase)
    (fault : Option Relational.SqliteError) (fresh : FreshIds K.catalog) {reply : Catalog.Reply K.catalog}
    (hreply : reply = (Catalog.execute fault n.catalog.db.tables c).1 ∨ ∃ e, reply = c.failed e) :
    ∃ shelf', Onward serves n { n with
      catalog := n.catalog.after fault c
      phase := n.phase.answered n.config fresh reply } shelf shelf' := by
  obtain ⟨shelf', hstep, hshelf⟩ := h.execute_step fault c
  refine ⟨shelf', hshelf, hstep.grows.1, ?_, fun _ _ ha => ha⟩
  have hlost : ∀ e, Backed serves shelf'.documents (n.phase.answered n.config fresh (c.failed e)) := by
    intro e
    obtain ⟨message, hfailed, -⟩ := answered_failed hr n.config fresh e
    rw [hfailed]
    exact backed_failed _
  rcases hreply with rfl | ⟨e, rfl⟩
  · cases fault with
    | some e => exact hlost (.backend e)
    | none =>
      refine backed_executed h hr hok n.config fresh ?_
      intro hreads
      rw [Catalog.execute_reads hreads] at hshelf
      exact Except.ok.inj (hshelf.listAllDocuments.symm.trans h.listAllDocuments)
  · exact hlost e

/-- One step of a run, whatever it is that serves it. -/
theorem step_onward (h : Represents n.catalog.db.tables shelf) (hst : Step n n')
    (serves : AssetStore.Store K.assets → DocumentDescriptor K.catalog → Prop)
    (hok : Backed (serves n.assets) shelf.documents n.phase)
    (hfound : ∀ reported d rest answer x, n.phase = .checkingAsset reported d rest →
      AssetStore.Answers n.assets (K.asset d.sourceAssetId) answer → AssetStore.getAsset answer = .ok (some x) →
      serves n.assets d) : ∃ shelf', Onward (serves n'.assets) n n' shelf shelf' := by
  cases hst with
  | start config hphase => exact ⟨shelf, .same h rfl rfl trivial⟩
  | fail error hfails => exact ⟨shelf, .same h rfl rfl trivial⟩
  | openAssets f orphan disk hphase hrec =>
    refine ⟨shelf, h, List.prefix_rfl, trivial, ?_⟩
    rintro - a ⟨source, row, hrow, hdecode⟩
    have hrows := (AssetStore.recoverStorage_spec (K := K.assets) f orphan n.assets.disk).1.rows
    rw [hrec] at hrows
    exact ⟨source, row, hrows _ row hrow, hdecode⟩
  | openAssetsFailed f orphan disk e hphase hrec =>
    refine ⟨shelf, h, List.prefix_rfl, backed_failed _, ?_⟩
    rintro - a ⟨source, row, hrow, hdecode⟩
    have hrows := (AssetStore.recoverStorage_spec (K := K.assets) f orphan n.assets.disk).1.rows
    rw [hrec] at hrows
    exact ⟨source, row, hrows _ row hrow, hdecode⟩
  | openCatalog f fresh quickCheck id hphase _ =>
    refine ⟨shelf, .same h (Catalog.initializeStorage_tables f fresh quickCheck n.catalog.db) rfl ?_⟩
    show Backed _ _ (if n.config.developmentMode then .lookingUpBinding else .building none)
    split <;> trivial
  | openCatalogFailed f fresh quickCheck e hphase _ =>
    exact ⟨shelf, .same h (Catalog.initializeStorage_tables f fresh quickCheck n.catalog.db) rfl (backed_failed _)⟩
  | request fault fresh c reply hr hreply => exact request_onward h hr hok fault fresh hreply
  | readPdfFailed canvas path metadata read fresh error hphase _ _ => exact ⟨shelf, .same h rfl rfl trivial⟩
  | insertVerified canvas path metadata read source bytes reads call name hphase _ _ _ _ _ _ _ _ =>
    rw [hphase] at hok
    exact ⟨shelf, .same h rfl rfl hok⟩
  | ingest canvas source call assets hphase hmoves =>
    rw [hphase] at hok
    refine ⟨shelf, h, List.prefix_rfl, ?_, fun hne => absurd hok hne⟩
    show Backed _ _ n.phase
    rw [hphase]
    exact hok
  | ingested canvas source call ing outcome hphase _ _ =>
    rw [hphase] at hok
    exact ⟨shelf, .same h rfl rfl hok⟩
  | ingestFailed canvas source call ing e hphase _ _ => exact ⟨shelf, .same h rfl rfl (backed_failed _)⟩
  | inspectFailed canvas source inspected draw error hphase _ => exact ⟨shelf, .same h rfl rfl trivial⟩
  | composed canvas source inspected draw composition hphase _ =>
    rw [hphase] at hok
    exact ⟨shelf, .same h rfl rfl hok⟩
  | built canvas hphase => exact ⟨shelf, .same h rfl rfl trivial⟩
  | checkAsset reported d rest answer hphase hanswer =>
    rw [hphase] at hok
    have hlooked : Backed (serves n.assets) shelf.documents (lookedUp reported rest (AssetStore.getAsset answer)) :=
      backed_lookedUp hok (fun x hx => hfound reported d rest answer x hphase hanswer hx)
    refine ⟨shelf, .same h rfl rfl ?_⟩
    cases hget : AssetStore.getAsset answer with
    | error e => exact backed_failed _
    | ok found =>
      rw [hget] at hlooked
      cases found with
      | none => exact backed_failed _
      | some x => exact hlooked
  | viewed reported rest hphase =>
    rw [hphase] at hok
    obtain ⟨checked, hdocuments, hchecked⟩ := hok
    refine ⟨shelf, .same h rfl rfl ?_⟩
    rw [hdocuments]
    exact backed_validateNext hchecked
  | stop => exact ⟨shelf, .same h rfl rfl trivial⟩

/-- The invariant, for what the catalog holds. -/
structure InMode (s : ModeNode K) (shelf : Shelf K.catalog) : Prop where
  represents : Represents s.node.catalog.db.tables shelf
  backed : Backed (Serves s.memory s.node.assets) shelf.documents s.node.phase
  idle : s.node.phase = .idle → s.memory = none

def NoneInserted (memory : Option (List (SourceAssetDescriptor K.assets))) : Prop :=
  ∀ inserted, memory = some inserted → inserted = []

/-- Documents stay, and once there is one nothing new is published or inserted. -/
structure ModeLeads (s t : ModeNode K) (shelf shelf' : Shelf K.catalog) : Prop where
  sound : InMode t shelf'
  documents : shelf.documents <+: shelf'.documents
  unpublished : shelf.documents ≠ [] → ∀ a, Published t.node.assets a → Published s.node.assets a
  memory : shelf.documents ≠ [] → NoneInserted s.memory → NoneInserted t.memory

theorem Onward.inMode {memory : Option (List (SourceAssetDescriptor K.assets))} {shelf' : Shelf K.catalog}
    (h : Onward (Serves memory n'.assets) s.node n' shelf shelf') (hidle : n'.phase = .idle → memory = none)
    (hmemory : shelf.documents ≠ [] → NoneInserted s.memory → NoneInserted memory) :
    ModeLeads s ⟨n', memory⟩ shelf shelf' :=
  ⟨⟨h.represents, h.backed, hidle⟩, h.documents, h.unpublished, hmemory⟩

theorem mode_step (h : InMode s shelf) (hst : ModeStep s t) : ∃ shelf', ModeLeads s t shelf shelf' := by
  have hok := h.backed
  cases hst with
  | persistent node hmemory hst =>
    rw [hmemory] at hok
    obtain ⟨shelf', honward⟩ := step_onward h.represents hst (Serves none) hok (by
      intro reported d rest answer x _ hanswer hx
      exact ⟨x, AssetStore.getAsset_published hanswer hx⟩)
    exact ⟨shelf', honward.inMode (fun _ => rfl) (fun _ _ _ hnone => by cases hnone)⟩
  | startMemory config hmemory hphase =>
    refine ⟨shelf, Onward.inMode (.same h.represents rfl rfl trivial) (fun hidle => by cases hidle) ?_⟩
    intro _ _ inserted hinserted
    exact (Option.some.inj hinserted).symm
  | shared node inserted hmemory hasks hst hphase =>
    rw [hmemory] at hok
    obtain ⟨shelf', honward⟩ := step_onward h.represents hst (Serves (some inserted)) hok (by
      intro reported d rest answer x hchecking _ _
      rw [hchecking] at hasks
      cases hasks)
    exact ⟨shelf', honward.inMode (fun hidle => by cases hidle ▸ hphase) (fun _ hempty => hmemory ▸ hempty)⟩
  | failMemory inserted error hmemory hphase _ _ =>
    exact ⟨shelf, Onward.inMode (.same h.represents rfl rfl trivial) (fun hidle => by cases hidle)
      (fun _ hempty => hmemory ▸ hempty)⟩
  | openMemory inserted hmemory hphase =>
    exact ⟨shelf, Onward.inMode (.same h.represents rfl rfl trivial) (fun hidle => by cases hidle)
      (fun _ hempty => hmemory ▸ hempty)⟩
  | readPdfFailed inserted canvas path metadata read fresh error hmemory hphase _ _ =>
    exact ⟨shelf, Onward.inMode (.same h.represents rfl rfl trivial) (fun hidle => by cases hidle)
      (fun _ hempty => hmemory ▸ hempty)⟩
  | insertMemory inserted canvas path metadata read source bytes hmemory hphase _ _ =>
    rw [hphase] at hok
    exact ⟨shelf, Onward.inMode (.same h.represents rfl rfl hok) (fun hidle => by cases hidle)
      (fun hne => absurd hok hne)⟩
  | insertMemoryFailed inserted canvas path metadata read source bytes hmemory hphase _ _ =>
    exact ⟨shelf, Onward.inMode (.same h.represents rfl rfl (backed_failed _)) (fun hidle => by cases hidle)
      (fun _ hempty => hmemory ▸ hempty)⟩
  | checkMemory inserted reported d rest answer hmemory hphase hanswer =>
    rw [hphase, hmemory] at hok
    have hlooked : Backed (Serves (some inserted) s.node.assets) shelf.documents (lookedUp reported rest answer) := by
      refine backed_lookedUp hok ?_
      rintro x rfl
      rcases hanswer with hfind | ⟨detail, hdetail⟩
      · have hx := (Except.ok.inj hfind).symm
        exact ⟨x, List.mem_of_find?_eq_some hx, by simpa using List.find?_some hx⟩
      · cases hdetail
    refine ⟨shelf, Onward.inMode (.same h.represents rfl rfl hlooked) ?_ (fun _ hempty => hmemory ▸ hempty)⟩
    intro hidle
    cases answer with
    | error detail => cases hidle
    | ok found => cases found <;> cases hidle
  | stopMemory inserted hmemory =>
    exact ⟨shelf, Onward.inMode (.same h.represents rfl rfl trivial) (fun _ => rfl)
      (fun _ _ _ hnone => by cases hnone)⟩

/-! ## Runs -/

theorem ModeLeads.refl (h : InMode s shelf) : ModeLeads s s shelf shelf :=
  ⟨h, List.prefix_rfl, fun _ _ ha => ha, fun _ hempty => hempty⟩

theorem ModeLeads.trans {u : ModeNode K} {shelf' shelf'' : Shelf K.catalog} (h : ModeLeads s t shelf shelf')
    (h' : ModeLeads t u shelf' shelf'') : ModeLeads s u shelf shelf'' := by
  have hne : shelf.documents ≠ [] → shelf'.documents ≠ [] := by
    intro hne hnil
    exact hne (List.prefix_nil.mp (hnil ▸ h.documents))
  exact ⟨h'.sound, h.documents.trans h'.documents,
    fun hdocuments a ha => h.unpublished hdocuments a (h'.unpublished (hne hdocuments) a ha),
    fun hdocuments hempty => h'.memory (hne hdocuments) (h.memory hdocuments hempty)⟩

theorem mode_run (h : InMode s shelf) (hrun : (modeSystem K).Run s t) : ∃ shelf', ModeLeads s t shelf shelf' := by
  refine System.run_related (S := modeSystem K) (P := fun s => ∃ shelf, InMode s shelf)
    (R := fun s t => ∀ shelf, InMode s shelf → ∃ shelf', ModeLeads s t shelf shelf')
    ?_ ?_ ?_ ?_ ⟨shelf, h⟩ hrun shelf h
  · rintro s t ⟨shelf, h⟩ hst
    obtain ⟨shelf', hleads⟩ := mode_step h hst
    exact ⟨shelf', hleads.sound⟩
  · intro s shelf h
    exact ⟨shelf, .refl h⟩
  · intro s t u hst htu shelf h
    obtain ⟨shelf', hfirst⟩ := hst shelf h
    obtain ⟨shelf'', hsecond⟩ := htu shelf' hfirst.sound
    exact ⟨shelf'', hfirst.trans hsecond⟩
  · intro s t _ hst shelf h
    exact mode_step h hst

theorem init_inMode (h : (modeSystem K).init s) : InMode s (Shelf.empty K.catalog) := by
  obtain ⟨⟨-, -, -, -, -, hcatalog, hphase⟩, hmemory⟩ := h
  refine ⟨?_, ?_, fun _ => hmemory⟩
  · rw [hcatalog]
    exact Catalog.represents_empty K.catalog
  · rw [hphase]
    trivial

theorem reachable_inMode (h : (modeSystem K).Reachable s) : ∃ shelf, InMode s shelf := by
  obtain ⟨s₀, h₀, hrun⟩ := h
  obtain ⟨shelf, hleads⟩ := mode_run (init_inMode h₀) hrun
  exact ⟨shelf, hleads.sound⟩

/-- The first run of `sampleConfig` over a memory store, to its end. -/
theorem memoryRun : ∃ s, (modeSystem sampleKernel).Reachable s ∧ s.memory = some [sampleDescriptor] ∧
    s.node.assets = sampleStart.assets ∧
    s.node.phase = .finished (.ok (some (Catalog.sampleCanvas "canvas-1" "session-1"))) ∧
    Catalog.listAllDocuments s.node.catalog.db.tables =
      .ok [(composeOnePage "session-1" "aaaaaaaa-asset").document] := by
  have h₀ : (modeSystem sampleKernel).Reachable ⟨sampleStart, none⟩ := .start ⟨sampleStart_init, rfl⟩
  have h₁ := h₀.next (.startMemory _ sampleConfig rfl rfl)
  have h₂ := h₁.next (.openMemory _ [] rfl rfl)
  have h₃ := h₂.next (.shared _ _ [] rfl rfl
    (.openCatalog _ Catalog.OpenFaults.none "store-1" "ok" "store-1" rfl rfl) rfl)
  have h₄ := h₃.next (.shared _ _ [] rfl rfl (.request _ none sampleFresh _ (.binding (.ok none)) rfl (.inl rfl)) rfl)
  have h₅ := h₄.next (.shared _ _ [] rfl rfl
    (.request _ none sampleFresh _ (.published (.ok .inserted)) rfl (.inl rfl)) rfl)
  have h₆ := h₅.next (.shared _ _ [] rfl rfl (.request _ none sampleFresh _ (.documents (.ok [])) rfl (.inl rfl)) rfl)
  have h₇ := h₆.next (.insertMemory _ [] (Catalog.sampleCanvas "canvas-1" "session-1") ⟨none⟩ (some 1)
    (some [0x61]) sampleDescriptor [0x61] rfl rfl rfl rfl)
  have h₈ := h₇.next (.shared _ _ [sampleDescriptor] rfl rfl
    (.composed _ (Catalog.sampleCanvas "canvas-1" "session-1") sampleDescriptor (some "aaaaaaaa-asset") ()
      (composeOnePage "session-1" "aaaaaaaa-asset") rfl rfl) rfl)
  have h₉ := h₈.next (.shared _ _ [sampleDescriptor] rfl rfl
    (.request _ none sampleFresh _ (.published (.ok .inserted)) rfl (.inl rfl)) rfl)
  have h₁₀ := h₉.next (.shared _ _ [sampleDescriptor] rfl rfl
    (.built _ (some (Catalog.sampleCanvas "canvas-1" "session-1")) rfl) rfl)
  have h₁₁ := h₁₀.next (.shared _ _ [sampleDescriptor] rfl rfl (.request _ none sampleFresh _
    (.documents (.ok [(composeOnePage "session-1" "aaaaaaaa-asset").document])) rfl (.inl rfl)) rfl)
  have h₁₂ := h₁₁.next (.checkMemory _ [sampleDescriptor] (some (Catalog.sampleCanvas "canvas-1" "session-1"))
    (composeOnePage "session-1" "aaaaaaaa-asset").document [] (.ok (some sampleDescriptor)) rfl rfl (.inl rfl))
  have h₁₃ := h₁₂.next (.shared _ _ [sampleDescriptor] rfl rfl
    (.viewed _ (some (Catalog.sampleCanvas "canvas-1" "session-1")) [] rfl) rfl)
  exact ⟨_, h₁₃, rfl, rfl, rfl, rfl⟩

/-- A run that ends well has the asset of every Document in the catalog, in the store that it
serves from; over a memory store it is one that this very run has inserted. -/
theorem ready_runs_serve (s : ModeNode K) (hs : (modeSystem K).Reachable s)
    (reported : Option (CanvasDescriptor K.catalog)) (hphase : s.node.phase = .finished (.ok reported)) :
    ∃ listed, Catalog.listAllDocuments s.node.catalog.db.tables = .ok listed ∧
      ∀ d ∈ listed, Serves s.memory s.node.assets d := by
  obtain ⟨shelf, h⟩ := reachable_inMode hs
  have hok := h.backed
  rw [hphase] at hok
  exact ⟨shelf.documents, h.represents.listAllDocuments, hok⟩

theorem ready_runs_serve_sample : ∃ s : ModeNode sampleKernel,
    s.node.phase = .finished (.ok (some (Catalog.sampleCanvas "canvas-1" "session-1"))) ∧
    ∃ listed, Catalog.listAllDocuments s.node.catalog.db.tables = .ok listed ∧
      ∀ d ∈ listed, Serves s.memory s.node.assets d := by
  obtain ⟨s, hs, -, -, hphase, -⟩ := memoryRun
  exact ⟨s, hphase, ready_runs_serve s hs _ hphase⟩

/-- A Document whose asset is not published in the local store. -/
def Stranded (s : ModeNode K) : Prop :=
  ∃ listed, Catalog.listAllDocuments s.node.catalog.db.tables = .ok listed ∧
    ∃ d ∈ listed, ¬ Published s.node.assets (K.asset d.sourceAssetId)

/-- Between two runs, a stranded Document ends every later run, whatever store it chooses,
and stays stranded. -/
theorem stranded_forever (s t : ModeNode K) (hs : (modeSystem K).Reachable s) (hidle : s.node.phase = .idle)
    (hstranded : Stranded s) (hrun : (modeSystem K).Run s t) :
    Stranded t ∧ ∀ reported, t.node.phase ≠ .finished (.ok reported) := by
  obtain ⟨shelf, h⟩ := reachable_inMode hs
  obtain ⟨listed, hlisted, d, hd, hmissing⟩ := hstranded
  obtain rfl : shelf.documents = listed := Except.ok.inj (h.represents.listAllDocuments.symm.trans hlisted)
  have hne : shelf.documents ≠ [] := List.ne_nil_of_mem hd
  obtain ⟨shelf', hleads⟩ := mode_run h hrun
  have hd' : d ∈ shelf'.documents := hleads.documents.subset hd
  have hmissing' : ¬ Published t.node.assets (K.asset d.sourceAssetId) :=
    fun hpublished => hmissing (hleads.unpublished hne _ hpublished)
  have hempty : NoneInserted t.memory := by
    refine hleads.memory hne ?_
    rw [h.idle hidle]
    intro inserted hsome
    cases hsome
  refine ⟨⟨shelf'.documents, hleads.sound.represents.listAllDocuments, d, hd', hmissing'⟩, ?_⟩
  intro reported hphase
  have hok := hleads.sound.backed
  rw [hphase] at hok
  have hserves : Serves t.memory t.node.assets d := hok d hd'
  unfold Serves at hserves
  split at hserves
  · exact hmissing' hserves
  · rename_i inserted hmemory
    obtain ⟨x, hx, -⟩ := hserves
    rw [hempty inserted hmemory] at hx
    cases hx


theorem stranded_forever_sample : ∃ s : ModeNode sampleKernel, (modeSystem sampleKernel).Reachable s ∧
    Catalog.listAllDocuments s.node.catalog.db.tables = .ok [(composeOnePage "session-1" "aaaaaaaa-asset").document] ∧
    ∀ t, (modeSystem sampleKernel).Run s t → Stranded t ∧ ∀ reported, t.node.phase ≠ .finished (.ok reported) := by
  obtain ⟨s, hs, hmemory, hassets, -, hlisted⟩ := memoryRun
  have hstopped := hs.next (.stopMemory s [sampleDescriptor] hmemory)
  refine ⟨_, hstopped, hlisted, ?_⟩
  intro t hrun
  refine stranded_forever _ t hstopped rfl ⟨_, hlisted, _, List.mem_cons_self, ?_⟩ hrun
  rintro ⟨source, row, hrow, -⟩
  rw [hassets] at hrow
  cases hrow

end OrbitRelay.Bootstrap
