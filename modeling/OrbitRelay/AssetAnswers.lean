import OrbitRelay.AssetLedger

/-!
# What an ingest has been told

An ingest that learned that its asset is published, or found a published row, was
told the truth, and nothing makes it untrue later: when `ingest` returns `Ok`, the
asset is published.
-/
namespace OrbitRelay.AssetStore

open Codec MachineInt Transition

variable {K : AssetKernel} {s t : Store K} {i : Nat} {ing : Ingest K} {p : Phase K} {f : Faults}

theorem PublishedAs.kept {a : K.AssetId} {d : SourceAssetDescriptor K} (h : PublishedAs s a d)
    (hkept : Preserves s t) : PublishedAs t a d := by
  obtain ⟨row, hrow, hd⟩ := h
  exact ⟨row, (hkept _ row _ hrow hd rfl).1, hd⟩

/-- The bytes of a published asset. -/
theorem PublishedAs.intact (hs : Invariant s) {a : K.AssetId} {d : SourceAssetDescriptor K}
    (h : PublishedAs s a d) : ∃ bytes, s.disk.files.blobs.lookup (blobKey a) = some (.file bytes) ∧
      bytes.length = d.byteLength ∧ K.sha256 bytes = d.contentHash := by
  obtain ⟨row, hrow, hd⟩ := h
  obtain ⟨record, hd', hintact⟩ := hs.rows _ row hrow
  obtain rfl : _ = record := Except.ok.inj (hd.symm.trans hd')
  obtain ⟨bytes, hbytes, hlen, hhash, -⟩ := hintact rfl
  exact ⟨bytes, hbytes, hlen, hhash⟩

/-- A lookup of a published asset finds it or fails. -/
theorem PublishedAs.found {a : K.AssetId} {d : SourceAssetDescriptor K} (h : PublishedAs s a d)
    {answer : Except (LocalAssetStoreError K) (Option (AssetRecord K))} (hanswer : Answers s a answer) :
    getAsset answer ≠ .ok none := by
  obtain ⟨row, hrow, hd⟩ := h
  rcases hanswer with ⟨f, rfl⟩ | ⟨e, rfl⟩
  · unfold lookupAsset
    cases hcall : call (K := K) f .lookup with
    | error e => simp [getAsset]
    | ok u => simp [getAsset, hrow, hd]
  · simp [getAsset]

/-- What the results that an ingest holds say about its asset. -/
def Told (s : Store K) (ing : Ingest K) : Prop :=
  match ing.phase with
  | .looked (.ok (some record)) => record.state = .published → PublishedAs s ing.assetId record.descriptor
  | .stageAnswered (.ok .existing) => PublishedAs s ing.assetId ing.descriptor
  | .publishAnswered (.ok ()) => PublishedAs s ing.assetId ing.descriptor
  | .removing (.ok _) => PublishedAs s ing.assetId ing.descriptor
  | .finished (.ok _) => PublishedAs s ing.assetId ing.descriptor
  | _ => True

theorem Told.kept (h : Told s ing) (hkept : Preserves s t) : Told t ing := by
  unfold Told at h ⊢
  split at h
  · exact fun hp => (h hp).kept hkept
  · exact h.kept hkept
  · exact h.kept hkept
  · exact h.kept hkept
  · exact h.kept hkept
  · trivial

theorem Told.goOn (h : Told s { ing with phase := p }) : Told s (ing.goOn p) := by
  unfold Ingest.goOn
  cases ing.cancelled with
  | true => trivial
  | false => exact h

/-- Going on to the next await keeps what the ingest was told. -/
theorem Told.become (h : Told s ing) (hr : resume ing = some (.become p)) :
    Told s { ing with phase := p } := by
  cases resume_becomes hr with
  | @found existing result hphase hpublished hstaged =>
    simp only [Told, hphase] at h
    cases hstate : existing.state with
    | staged =>
      rw [hstaged hstate]
      trivial
    | published =>
      rw [hpublished hstate]
      by_cases hd : existing.descriptor = ing.descriptor
      · have hp := h hstate
        rw [hd] at hp
        simp only [if_pos hd]
        exact hp
      · simp only [Told, if_neg hd]
  | existing hphase | published hphase =>
    simp only [Told, hphase] at h
    exact h
  | lookupFailed _ | absent _ | mismatched _ _ | stageFailed _ | inserted _ | publishFailed _ | unstaged _
  | withdrawn _ => trivial

/-- A command on its way tells nothing, and neither does a refused one. -/
theorem resume_silent {c : Command K} {sent : Phase K} {refused : LocalAssetStoreError K → Phase K}
    (hr : resume ing = some (.send c sent refused)) (e : LocalAssetStoreError K) :
    Told s { ing with phase := sent } ∧ Told s { ing with phase := refused e } := by
  cases resume_sends hr with
  | lookup _ | stage _ _ | publish _ | unstage _ | withdraw _ => exact ⟨trivial, trivial⟩

/-- `stage_asset` answers `Existing` for a published asset of the same descriptor only. -/
theorem stageAsset_existing {d : SourceAssetDescriptor K} {u : AssetTable}
    (h : stageAsset f s.disk.assets d (blobKey d.assetId) = .ok (.existing, u)) : PublishedAs s d.assetId d := by
  unfold stageAsset at h
  obtain ⟨-, -, h⟩ := bind_ok h
  obtain ⟨-, -, h⟩ := bind_ok h
  split at h
  · rename_i row hrow
    obtain ⟨existing, hdecode, h⟩ := bind_ok h
    split at h
    · rename_i hstate
      split at h
      · rename_i hsame
        obtain ⟨hid, -, -, -, -, hkey, hkey', -⟩ := decodeRow_eq_ok.mp hdecode
        have hblob : existing.blobKey = blobKey d.assetId := by rw [hkey', hkey, hsame]
        refine ⟨row, hrow, ?_⟩
        rw [hdecode, ← hblob, ← hsame, ← hstate]
      · cases h
    · cases h
  · obtain ⟨n, -, h⟩ := bind_ok h
    obtain ⟨-, -, h⟩ := bind_ok h
    obtain ⟨-, -, h⟩ := bind_ok h
    cases h

theorem publishAsset_published {d : SourceAssetDescriptor K}
    (h : publishAsset f s.disk.assets d (blobKey d.assetId) = .ok t.disk.assets) : PublishedAs t d.assetId d := by
  obtain ⟨row, -, hdecode, hassets⟩ := publishAsset_ok h
  refine ⟨_, ?_, decodeRow_published hdecode⟩
  rw [hassets]
  exact AList.lookup_insert _

/-- The worker tells the ingest that waits for it what is so after its turn. -/
theorem Told.worked {c : Command K} (h : Told s ing) (ha : awaited ing = some c)
    (hassets : t.disk.assets = (execute f s.disk.assets c).2) (hkept : Preserves s t) :
    Told t (ing.deliver (execute f s.disk.assets c).1) := by
  cases hc : ing.cancelled with
  | true =>
    have hsame : ing.deliver (execute f s.disk.assets c).1 = ing := by simp [Ingest.deliver, hc]
    rw [hsame]
    exact h.kept hkept
  | false =>
    cases c with
    | lookup a =>
      have hphase := awaited_lookup ha
      have hid : a = ing.assetId := by
        simp only [awaited, hphase] at ha
        cases ha
        rfl
      subst hid
      have htold : Told s { ing with phase := .looked (lookupAsset f s.disk.assets ing.assetId) } := by
        unfold Told
        split
        · rename_i record heq
          intro hp
          have hanswer : Answers s ing.assetId (.ok (some record)) := .inl ⟨f, (Phase.looked.inj heq).symm⟩
          exact (hanswer.found hp).1
        all_goals simp_all
      simpa [Ingest.deliver, hc, hphase, execute] using htold.kept hkept
    | stage d key =>
      obtain ⟨hphase, rfl, rfl⟩ := awaited_stage ha
      cases hr : stageAsset f s.disk.assets ing.descriptor ing.key with
      | error e => simp [Ingest.deliver, hc, hphase, execute, hr, Told]
      | ok result =>
        obtain ⟨outcome, u⟩ := result
        cases outcome with
        | inserted => simp [Ingest.deliver, hc, hphase, execute, hr, Told]
        | existing =>
          have hpub : PublishedAs s ing.assetId ing.descriptor := stageAsset_existing hr
          simp only [Ingest.deliver, hc, hphase, execute, hr, Bool.false_eq_true, if_false]
          exact hpub.kept hkept
    | publish d key =>
      obtain ⟨hphase, rfl, rfl⟩ := awaited_publish ha
      cases hr : publishAsset f s.disk.assets ing.descriptor ing.key with
      | error e => simp [Ingest.deliver, hc, hphase, execute, hr, Told]
      | ok u =>
        have hpub : PublishedAs t ing.assetId ing.descriptor := by
          refine publishAsset_published (s := s) (f := f) ?_
          rw [hassets]
          simp only [execute]
          exact hr.trans (by rw [hr])
        simp only [Ingest.deliver, hc, hphase, execute, hr, Bool.false_eq_true, if_false]
        exact hpub
    | removeStaged a =>
      obtain ⟨⟨e, b, hphase⟩, rfl⟩ := awaited_removeStaged ha
      cases hr : removeStaged f s.disk.assets ing.assetId with
      | error e' => simp [Ingest.deliver, hc, hphase, execute, hr, Told]
      | ok u => simp [Ingest.deliver, hc, hphase, execute, hr, Told]

/-- A dropped reply tells nothing. -/
theorem Told.lost {c : Command K} (h : Told s ing) (ha : awaited ing = some c) :
    Told s (ing.deliver (AssetStore.lost c)) := by
  cases hc : ing.cancelled with
  | true =>
    have hsame : ing.deliver (AssetStore.lost c) = ing := by simp [Ingest.deliver, hc]
    rw [hsame]
    exact h
  | false =>
    cases awaited_awaits ha with
    | lookup hphase | stage hphase | publish hphase | removeStaged hphase =>
      simp [Ingest.deliver, hc, hphase, AssetStore.lost, Told]

/-- All ingests were told the truth. -/
def AllTold (s : Store K) : Prop := ∀ i ing, s.ingests i = some ing → Told s ing

theorem AllTold.put (h : AllTold s) (hkept : Preserves s t) {ing' : Ingest K}
    (ht : t.ingests = Function.update s.ingests i (some ing')) (hown : Told t ing') : AllTold t := by
  exact forall_moved ht hown (fun j x _ hx => (h j x hx).kept hkept)

theorem AllTold.same (h : AllTold s) (hkept : Preserves s t) (ht : t.ingests = s.ingests) : AllTold t := by
  intro j x hx
  rw [ht] at hx
  exact (h j x hx).kept hkept

theorem step_told (hs : Invariant s) (htold : AllTold s) (h : Step s t) (hkept : Preserves s t) : AllTold t := by
  cases h with
  | begin i gen d reads name hi hgen _ _ _ =>
    refine htold.put hkept rfl ?_
    by_cases hlen : i64Max < d.byteLength
    · simp [Told, hlen]
    · simp [Told, hlen]
  | send i ing q c sent refused hi hc hr _ _ _ =>
    exact htold.put hkept rfl (resume_silent hr (.assetConflict ing.assetId)).1
  | refuse i ing e c sent refused hi hc hr _ => exact htold.put hkept rfl (resume_silent hr e).2
  | proceed i ing p hi hc hr => exact htold.put hkept rfl (((htold i ing hi).become hr).kept hkept)
  | cancel i ing hi =>
    have hsame : Told s { ing with cancelled := true } := htold i ing hi
    exact htold.put hkept rfl (hsame.kept hkept)
  | work f i ing c q hq hi =>
    obtain ⟨x, hx, -, hawaits, -⟩ := hs.queued _ i c hq List.mem_cons_self
    obtain rfl : ing = x := Option.some.inj (hi.symm.trans hx)
    exact htold.put hkept rfl ((htold i ing hi).worked hawaits rfl hkept)
  | replyLost i ing c hi ha _ => exact htold.put hkept rfl (((htold i ing hi).lost ha).kept hkept)
  | close q hq _ => exact htold.same hkept rfl
  | shutdown q hq => exact htold.same hkept rfl
  | drained hq => exact htold.same hkept rfl
  | create i ing hi hphase _ => exact htold.put hkept rfl (Told.goOn trivial)
  | createFailed i ing hi hphase => exact htold.put hkept rfl (Told.goOn trivial)
  | write i ing written chunk rest length hi hphase _ => exact htold.put hkept rfl (Told.goOn trivial)
  | writeFailed i ing written rest e hi hphase _ => exact htold.put hkept rfl (Told.goOn trivial)
  | rename i ing node hi hphase _ => exact htold.put hkept rfl trivial
  | renameFailed i ing e hi hphase _ => exact htold.put hkept rfl trivial
  | quarantine i ing e node orphan hi hphase _ => exact htold.put hkept rfl trivial
  | quarantineFailed i ing e hi hphase => exact htold.put hkept rfl trivial
  | remove i ing result hi hphase =>
    have hsame : Told s { ing with phase := .finished result } := by
      have h := htold i ing hi
      cases result with
      | error e => trivial
      | ok outcome =>
        simp only [Told, hphase] at h
        exact h
    exact htold.put hkept rfl (hsame.kept hkept)
  | removeFailed i ing result hi hphase => exact htold.put hkept rfl trivial
  | crash =>
    intro j x hx
    cases hx
  | opened f fresh disk hw hrec => exact htold.same hkept rfl
  | openFailed f fresh e disk hw hrec => exact htold.same hkept rfl

theorem reachable_told (h : (quietSystem K).Reachable s) : Invariant s ∧ AllTold s := by
  refine System.invariant (S := quietSystem K) (P := fun s => Invariant s ∧ AllTold s) ?_ ?_ h
  · intro s hs
    refine ⟨init_invariant hs, ?_⟩
    obtain ⟨_, _, _, _, _, _, _, hnone, _⟩ := hs
    intro i ing hi
    rw [hnone] at hi
    cases hi
  · intro s t hs hst
    obtain ⟨hinv, hkept⟩ := quiet_step hs.1 hst
    exact ⟨hinv, step_told hs.1 hs.2 hst.1 hkept⟩

/-- An ingest that has returned `Ok` has its asset published, from then on. -/
theorem ingest_ok_published (hs : (quietSystem K).Reachable s) (hi : s.ingests i = some ing)
    {outcome : AssetInsertOutcome} (hphase : ing.phase = .finished (.ok outcome))
    (hrun : (quietSystem K).Run s t) : PublishedAs t ing.assetId ing.descriptor := by
  obtain ⟨hinv, htold⟩ := reachable_told hs
  have h := htold i ing hi
  simp only [Told, hphase] at h
  exact h.kept (run_preserves hinv hrun)

/-- A call stays what it is until the process stops. -/
theorem step_same (h : Step s t) (hi : s.ingests i = some ing) {ing' : Ingest K} (ht : t.ingests i = some ing') :
    SameCall ing ing' := by
  have hrefl : SameCall ing ing := ⟨rfl, rfl, rfl⟩
  have hput : ∀ {j : Nat} {x x' : Ingest K}, s.ingests j = some x →
      t.ingests = Function.update s.ingests j (some x') → SameCall x x' → SameCall ing ing' := by
    intro j x x' hx hupdate hsame
    rw [hupdate] at ht
    by_cases hj : i = j
    · subst hj
      rw [Function.update_self] at ht
      cases ht
      cases hi.symm.trans hx
      exact hsame
    · rw [Function.update_of_ne hj, hi] at ht
      cases ht
      exact hrefl
  have hkept : t.ingests = s.ingests → SameCall ing ing' := by
    intro heq
    rw [heq, hi] at ht
    cases ht
    exact hrefl
  cases step_change h with
  | advanced j x x' h => exact hput h.found h.ingests h.same
  | sent j x q c sent refused hx _ _ _ _ hupdate _ _ => exact hput hx hupdate ⟨rfl, rfl, rfl⟩
  | worked f j x c q _ hx hupdate _ _ _ _ => exact hput hx hupdate (deliver_same _)
  | begun j x hnone _ _ hupdate _ _ =>
    have hj : i ≠ j := by
      rintro rfl
      cases hi.symm.trans hnone
    rw [hupdate, Function.update_of_ne hj, hi] at ht
    cases ht
    exact hrefl
  | closing q _ _ heq _ => exact hkept heq
  | stopped _ heq => exact hkept (by rw [heq]; rfl)
  | crashed heq =>
    rw [heq] at ht
    cases ht
  | recovered _ heq _ _ _ => exact hkept heq

end OrbitRelay.AssetStore
