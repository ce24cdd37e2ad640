import OrbitRelay.AssetAnswers

/-!
# Whose bytes an asset has

An ingest that returned `Inserted` has published the bytes of its own source, and no
later ingest puts others in their place.
-/
namespace OrbitRelay.AssetStore

open Codec MachineInt Transition

variable {K : AssetKernel} {s t : Store K} {i : Nat} {ing : Ingest K} {p : Phase K} {f : Faults}

/-- An ingest that knows that it published its asset published its own bytes. -/
def Wrote (s : Store K) (ing : Ingest K) : Prop :=
  match ing.phase with
  | .publishAnswered (.ok ()) => s.origin ing.assetId = some ing.content
  | .finished (.ok .inserted) => s.origin ing.assetId = some ing.content
  | .removing (.ok .inserted) => False
  | _ => True

theorem publishAsset_unpublished {d : SourceAssetDescriptor K} {key : String} {u : AssetTable}
    (h : publishAsset f s.disk.assets d key = .ok u) {d' : SourceAssetDescriptor K} :
    ¬ PublishedAs s d.assetId d' := by
  rintro ⟨row, hrow, hd⟩
  obtain ⟨row', hrow', hd', -⟩ := publishAsset_ok h
  rw [hrow] at hrow'
  cases hrow'
  rw [hd] at hd'
  cases hd'

theorem recordExecution_origin (s : Store K) (i : Nat) {c : Command K} (hawaits : awaited ing = some c)
    {a : K.AssetId} {d : SourceAssetDescriptor K} (hpublished : PublishedAs s a d) :
    (recordExecution s i ing (execute f s.disk.assets c).1).2 a = s.origin a := by
  cases c with
  | lookup _ => rfl
  | stage d' key =>
    unfold execute
    dsimp only
    cases stageAsset f s.disk.assets d' key with
    | error e => rfl
    | ok result =>
      obtain ⟨outcome, u⟩ := result
      cases outcome with
      | inserted => rfl
      | existing => rfl
  | removeStaged a' =>
    unfold execute
    dsimp only
    cases removeStaged f s.disk.assets a' with
    | error e => rfl
    | ok u => rfl
  | publish d' key =>
    obtain ⟨-, rfl, rfl⟩ := awaited_publish hawaits
    unfold execute
    dsimp only
    cases hpublish : publishAsset f s.disk.assets ing.descriptor ing.key with
    | error e => rfl
    | ok u =>
      have hne : a ≠ ing.assetId := by
        rintro rfl
        exact publishAsset_unpublished hpublish hpublished
      exact Function.update_of_ne hne _ _

/-- The bytes of a published asset are those of the ingest that published it. -/
theorem step_origin (hs : Invariant s) (h : Step s t) {a : K.AssetId} {d : SourceAssetDescriptor K}
    (hpublished : PublishedAs s a d) : t.origin a = s.origin a := by
  cases h with
  | work f i ing c q hq hi =>
    obtain ⟨x, hx, -, hawaits, -⟩ := hs.queued _ i c hq List.mem_cons_self
    cases hi.symm.trans hx
    exact recordExecution_origin s i hawaits hpublished
  | begin _ _ _ _ _ _ _ _ _ _ | send _ _ _ _ _ _ _ _ _ _ _ _ | refuse _ _ _ _ _ _ _ _ _ _ | proceed _ _ _ _ _ _
  | cancel _ _ _ | replyLost _ _ _ _ _ _ | close _ _ _ | shutdown _ _ | drained _ | create _ _ _ _ _
  | createFailed _ _ _ _ | write _ _ _ _ _ _ _ _ _ | writeFailed _ _ _ _ _ _ _ _ | rename _ _ _ _ _ _
  | renameFailed _ _ _ _ _ _ | quarantine _ _ _ _ _ _ _ _ | quarantineFailed _ _ _ _ _ | remove _ _ _ _ _
  | removeFailed _ _ _ _ _ | crash | opened _ _ _ _ _ | openFailed _ _ _ _ _ _ => rfl

theorem Wrote.kept (h : Wrote s ing) (htold : Told s ing) (hs : Invariant s) (hst : Step s t) : Wrote t ing := by
  unfold Wrote at h ⊢
  unfold Told at htold
  split at h
  · rename_i hphase
    rw [hphase] at htold
    rw [step_origin hs hst htold]
    exact h
  · rename_i hphase
    rw [hphase] at htold
    rw [step_origin hs hst htold]
    exact h
  · exact h.elim
  · trivial

theorem Wrote.goOn (h : Wrote s { ing with phase := p }) : Wrote s (ing.goOn p) := by
  unfold Ingest.goOn
  cases ing.cancelled with
  | true => trivial
  | false => exact h

theorem Wrote.become (h : Wrote s ing) (hr : resume ing = some (.become p)) : Wrote s { ing with phase := p } := by
  cases resume_becomes hr with
  | @found existing result hphase hpublished hstaged =>
    cases hstate : existing.state with
    | staged =>
      rw [hstaged hstate]
      trivial
    | published =>
      rw [hpublished hstate]
      by_cases hd : existing.descriptor = ing.descriptor
      · rw [if_pos hd]
        trivial
      · rw [if_neg hd]
        trivial
  | published hphase =>
    simp only [Wrote, hphase] at h
    exact h
  | existing _ | lookupFailed _ | absent _ | mismatched _ _ | stageFailed _ | inserted _ | publishFailed _
  | unstaged _ | withdrawn _ => trivial

theorem resume_unwritten {c : Command K} {sent : Phase K} {refused : LocalAssetStoreError K → Phase K}
    (hr : resume ing = some (.send c sent refused)) (e : LocalAssetStoreError K) :
    Wrote s { ing with phase := sent } ∧ Wrote s { ing with phase := refused e } := by
  cases resume_sends hr with
  | lookup _ | stage _ _ | publish _ | unstage _ | withdraw _ => exact ⟨trivial, trivial⟩

/-- The worker books the bytes of the ingest that it answers. -/
theorem Wrote.worked {c : Command K} (h : Wrote s ing) (ha : awaited ing = some c)
    (horigin : t.origin = (recordExecution s i ing (execute f s.disk.assets c).1).2)
    (hkept : Wrote s ing → Wrote t ing) : Wrote t (ing.deliver (execute f s.disk.assets c).1) := by
  cases hc : ing.cancelled with
  | true =>
    have hsame : ing.deliver (execute f s.disk.assets c).1 = ing := by simp [Ingest.deliver, hc]
    rw [hsame]
    exact hkept h
  | false =>
    cases awaited_awaits ha with
    | lookup hphase => simp [Ingest.deliver, hc, hphase, execute, Wrote]
    | stage hphase =>
      cases hr : stageAsset f s.disk.assets ing.descriptor ing.key with
      | error e => simp [Ingest.deliver, hc, hphase, execute, hr, Wrote]
      | ok result => simp [Ingest.deliver, hc, hphase, execute, hr, Wrote]
    | removeStaged hphase =>
      cases hr : removeStaged f s.disk.assets ing.assetId with
      | error e => simp [Ingest.deliver, hc, hphase, execute, hr, Wrote]
      | ok u => simp [Ingest.deliver, hc, hphase, execute, hr, Wrote]
    | publish hphase =>
      cases hr : publishAsset f s.disk.assets ing.descriptor ing.key with
      | error e => simp [Ingest.deliver, hc, hphase, execute, hr, Wrote]
      | ok u =>
        simp only [execute, hr, recordExecution] at horigin
        simp only [Ingest.deliver, hc, hphase, execute, hr, Bool.false_eq_true, if_false, Wrote, horigin]
        exact Function.update_self _ _ _

theorem Wrote.lost {c : Command K} (h : Wrote s ing) (ha : awaited ing = some c) :
    Wrote s (ing.deliver (AssetStore.lost c)) := by
  cases hc : ing.cancelled with
  | true =>
    have hsame : ing.deliver (AssetStore.lost c) = ing := by simp [Ingest.deliver, hc]
    rw [hsame]
    exact h
  | false =>
    cases awaited_awaits ha with
    | lookup hphase | stage hphase | publish hphase | removeStaged hphase =>
      simp [Ingest.deliver, hc, hphase, AssetStore.lost, Wrote]

def AllWrote (s : Store K) : Prop := ∀ i ing, s.ingests i = some ing → Wrote s ing

theorem step_wrote (hs : Invariant s) (htold : AllTold s) (hwrote : AllWrote s) (h : Step s t) : AllWrote t := by
  have hkept : ∀ {j : Nat} {x : Ingest K}, s.ingests j = some x → Wrote t x :=
    fun hx => (hwrote _ _ hx).kept (htold _ _ hx) hs h
  have hput : ∀ {j : Nat} {x : Ingest K}, t.ingests = Function.update s.ingests j (some x) → Wrote t x → AllWrote t :=
    fun ht hown => forall_moved ht hown (fun _ _ _ hx => hkept hx)
  have hsame : t.ingests = s.ingests → AllWrote t := by
    intro ht j x hx
    rw [ht] at hx
    exact hkept hx
  cases h with
  | begin i gen d reads name hi hgen _ _ _ =>
    refine hput rfl ?_
    by_cases hlen : i64Max < d.byteLength
    · simp [Wrote, hlen]
    · simp [Wrote, hlen]
  | send i ing q c sent refused hi hc hr _ _ _ => exact hput rfl (resume_unwritten hr (.assetConflict ing.assetId)).1
  | refuse i ing e c sent refused hi hc hr _ => exact hput rfl (resume_unwritten hr e).2
  | proceed i ing p hi hc hr => exact hput rfl ((hwrote i ing hi).become hr)
  | cancel i ing hi => exact hput rfl (hwrote i ing hi)
  | work f i ing c q hq hi =>
    obtain ⟨x, hx, -, hawaits, -⟩ := hs.queued _ i c hq List.mem_cons_self
    obtain rfl : ing = x := Option.some.inj (hi.symm.trans hx)
    exact hput rfl ((hwrote i ing hi).worked hawaits rfl (fun _ => hkept hi))
  | replyLost i ing c hi ha _ => exact hput rfl ((hwrote i ing hi).lost ha)
  | create _ _ _ _ _ | createFailed _ _ _ _ | write _ _ _ _ _ _ _ _ _ | writeFailed _ _ _ _ _ _ _ _ =>
    exact hput rfl (Wrote.goOn trivial)
  | rename _ _ _ _ _ _ | renameFailed _ _ _ _ _ _ | quarantine _ _ _ _ _ _ _ _ | quarantineFailed _ _ _ _ _
  | removeFailed _ _ _ _ _ => exact hput rfl trivial
  | remove i ing result hi hphase =>
    have h := hwrote i ing hi
    refine hput rfl ?_
    match result with
    | .error e => trivial
    | .ok .existing => trivial
    | .ok .inserted =>
      simp only [Wrote, hphase] at h
  | close _ _ _ | shutdown _ _ | drained _ | opened _ _ _ _ _ | openFailed _ _ _ _ _ _ => exact hsame rfl
  | crash =>
    intro j x hx
    cases hx

theorem reachable_wrote (h : (quietSystem K).Reachable s) : Invariant s ∧ AllTold s ∧ AllWrote s := by
  refine System.invariant (S := quietSystem K) (P := fun s => Invariant s ∧ AllTold s ∧ AllWrote s) ?_ ?_ h
  · intro s hs
    obtain ⟨_, _, _, _, _, _, _, hnone, _⟩ := id hs
    refine ⟨init_invariant hs, ?_, ?_⟩
    · intro i ing hi
      rw [hnone] at hi
      cases hi
    · intro i ing hi
      rw [hnone] at hi
      cases hi
  · rintro s t ⟨hs, htold, hwrote⟩ hst
    obtain ⟨hinv, hkept⟩ := quiet_step hs hst
    exact ⟨hinv, step_told hs htold hst.1 hkept, step_wrote hs htold hwrote hst.1⟩

/-- What an ingest that returned `Inserted` published is what it was given. -/
theorem inserted_content (hs : (quietSystem K).Reachable s) (hi : s.ingests i = some ing)
    (hphase : ing.phase = .finished (.ok .inserted)) :
    s.disk.files.blobs.lookup (blobKey ing.assetId) = some (.file ing.content) := by
  obtain ⟨hinv, htold, hwrote⟩ := reachable_wrote hs
  have hpublished := htold i ing hi
  have horigin := hwrote i ing hi
  simp only [Told, Wrote, hphase] at hpublished horigin
  obtain ⟨row, hrow, hd⟩ := hpublished
  obtain ⟨record, hd', hintact⟩ := hinv.rows _ row hrow
  rw [hd] at hd'
  cases hd'
  obtain ⟨bytes, hbytes, -, -, hcontent⟩ := hintact rfl
  rw [← hcontent ing.content horigin]
  exact hbytes

end OrbitRelay.AssetStore
