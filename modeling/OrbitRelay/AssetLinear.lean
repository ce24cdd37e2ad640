import OrbitRelay.AssetConcurrent
import Mathlib.Algebra.BigOperators.Group.Finset.Basic
import Mathlib.Algebra.Order.BigOperators.Group.Finset
import Mathlib.Data.List.TakeWhile
import Mathlib.Data.Prod.Lex

/-!
# Concurrent ingests are linearised

Of the ingests of one asset one inserts it and the others are told what that means
for them. They all return as long as the work of ingests and worker goes on, however
many reads get in between.
-/
namespace OrbitRelay.AssetStore

open Codec MachineInt Transition

variable {K : AssetKernel} {s t : Store K} {i : Nat} {ing : Ingest K}

/-- An upper bound of the steps that an ingest still takes. -/
def Ingest.weight (ing : Ingest K) : Nat :=
  match ing.phase with
  | .waiting => 12 + ing.reads.length
  | .looking => 11 + ing.reads.length
  | .looked _ => 10 + ing.reads.length
  | .creating => 9 + ing.reads.length
  | .writing _ rest => 8 + rest.length
  | .staging => 7
  | .stageAnswered _ => 6
  | .renaming => 5
  | .renamed _ => 4
  | .publishing => 2
  | .publishAnswered _ => 1
  | .quarantining _ => 0
  | .quarantined _ => 4
  | .unstaging _ _ => 3
  | .unstaged _ _ => 2
  | .removing _ => 1
  | .finished _ => 0
  | .dropped => 0

theorem resume_send_weight {c : Command K} {sent : Phase K} {refused : LocalAssetStoreError K → Phase K}
    (h : resume ing = some (.send c sent refused)) : { ing with phase := sent }.weight < ing.weight := by
  cases resume_sends h with
  | lookup hphase | stage hphase _ | publish hphase | unstage hphase | withdraw hphase =>
    simp [Ingest.weight, hphase]

theorem resume_become_weight {p : Phase K} (h : resume ing = some (.become p)) :
    { ing with phase := p }.weight < ing.weight := by
  cases resume_becomes h with
  | lookupFailed hphase | absent hphase | found hphase _ _ | mismatched hphase _ | stageFailed hphase
  | existing hphase | inserted hphase | published hphase | publishFailed hphase | unstaged hphase
  | withdrawn hphase => simp [Ingest.weight, hphase]

/-- The reply that an ingest waits for takes it on. -/
theorem deliver_weight (f : Faults) (assets : AssetTable) {c : Command K} (hc : ing.cancelled = false)
    (h : awaited ing = some c) : ∃ p, ing.deliver (execute f assets c).1 = { ing with phase := p } ∧
      { ing with phase := p }.weight < ing.weight := by
  cases awaited_awaits h with
  | lookup hphase =>
    refine ⟨.looked (lookupAsset f assets ing.assetId), ?_, ?_⟩
    · simp [Ingest.deliver, execute, hc, hphase]
    · simp [Ingest.weight, hphase]
  | stage hphase =>
    obtain ⟨r, hr⟩ : ∃ r, (execute f assets (.stage ing.descriptor ing.key)).1 = .stage r := by
      rw [execute]
      split <;> exact ⟨_, rfl⟩
    refine ⟨.stageAnswered r, ?_, ?_⟩
    · simp [Ingest.deliver, hr, hc, hphase]
    · simp [Ingest.weight, hphase]
  | publish hphase =>
    obtain ⟨r, hr⟩ : ∃ r, (execute f assets (.publish ing.descriptor ing.key)).1 = .publish r := by
      rw [execute]
      split <;> exact ⟨_, rfl⟩
    refine ⟨.publishAnswered r, ?_, ?_⟩
    · simp [Ingest.deliver, hr, hc, hphase]
    · simp [Ingest.weight, hphase]
  | @removeStaged e b hphase =>
    obtain ⟨r, hr⟩ : ∃ r, (execute f assets (.removeStaged ing.assetId)).1 = .removeStaged r := by
      rw [execute]
      split <;> exact ⟨_, rfl⟩
    refine ⟨.unstaged e b, ?_, ?_⟩
    · simp [Ingest.deliver, hr, hc, hphase]
    · simp [Ingest.weight, hphase]

/-- Every step takes one ingest on and leaves the others where they are. -/
theorem calm_progress (hs : Inv s) (h : Calm s t) : ∃ i ing p, s.ingests i = some ing ∧
    t.ingests = Function.update s.ingests i (some { ing with phase := p }) ∧
    { ing with phase := p }.weight < ing.weight := by
  cases h with
  | send i ing q c sent refused hi hc hr hg hq hw => exact ⟨i, ing, sent, hi, rfl, resume_send_weight hr⟩
  | proceed i ing p hi hc hr => exact ⟨i, ing, p, hi, rfl, resume_become_weight hr⟩
  | work i ing c q hq hi =>
    obtain ⟨q', hq', hqueued⟩ := hs.queue
    obtain rfl : q' = .command i c :: q := Option.some.inj (hq'.symm.trans hq)
    obtain ⟨p, hdeliver, hlt⟩ := deliver_weight Faults.none s.disk.assets
      (hs.calls i ing hi).1 (hqueued.head hi).2.1
    refine ⟨i, ing, p, hi, ?_, hlt⟩
    rw [← hdeliver]
    rfl
  | create i ing hi hp hn =>
    refine ⟨i, ing, .writing [] ing.reads, hi, ?_, by simp [Ingest.weight, hp]⟩
    rw [← goOn_calm (hs.calls i ing hi).1]
    rfl
  | write i ing written chunk rest length hi hp ha =>
    refine ⟨i, ing, .writing (written ++ chunk) rest, hi, ?_, by simp [Ingest.weight, hp]⟩
    rw [← goOn_calm (hs.calls i ing hi).1]
    rfl
  | rename i ing node hi hp hn => exact ⟨i, ing, .renamed (.ok ()), hi, rfl, by simp [Ingest.weight, hp]⟩
  | remove i ing result hi hp => exact ⟨i, ing, .finished result, hi, rfl, by simp [Ingest.weight, hp]⟩

theorem read_ingests (h : Read s t) : t.ingests = s.ingests := by
  cases h <;> rfl

/-! ## All of them return -/

def Done (s : Store K) : Prop := ∀ i ing, s.ingests i = some ing → ing.phase.isFinished = true

/-- The work of ingests and worker: their own steps, and reads that are answered while an
ingest waits behind them. -/
inductive Work : Store K → Store K → Prop where
  | calm (s t : Store K) : Calm s t → Work s t
  | serve (s : Store K) (r : Nat) (a : K.AssetId) (q : List (Request K)) : s.ingests r = none →
      s.worker = some (.command r (.lookup a) :: q) → pending s ≠ [] → Work s { s with worker := some q }

def total (n : Nat) (s : Store K) : Nat := ∑ i ∈ Finset.range n, (s.ingests i).elim 0 Ingest.weight

/-- The requests that the worker answers before the command of an ingest. -/
def behind (s : Store K) : Nat :=
  if (pending s).isEmpty then 0 else ((s.worker.getD []).takeWhile (fun r => (owned s r).isNone)).length

def distance (n : Nat) (s : Store K) : Nat ×ₗ Nat := toLex (total n s, behind s)

/-- Calls have numbers below `n`. -/
def Below (n : Nat) (s : Store K) : Prop := ∀ i, n ≤ i → s.ingests i = none

theorem total_lt {n : Nat} (hn : Below n s) {p : Phase K} (hi : s.ingests i = some ing)
    (ht : t.ingests = Function.update s.ingests i (some { ing with phase := p }))
    (hlt : { ing with phase := p }.weight < ing.weight) : total n t < total n s := by
  have hmem : i ∈ Finset.range n := by
    rw [Finset.mem_range]
    by_contra hge
    rw [hn i (Nat.le_of_not_lt hge)] at hi
    cases hi
  apply Finset.sum_lt_sum
  · intro j _
    by_cases hj : j = i
    · subst hj
      rw [ht, Function.update_self, hi]
      exact Nat.le_of_lt hlt
    · rw [ht, Function.update_of_ne hj]
  · refine ⟨i, hmem, ?_⟩
    rw [ht, Function.update_self, hi]
    exact hlt

theorem below_step {n : Nat} (hs : Inv s) (hn : Below n s) (h : (calmSystem K).step s t) : Below n t := by
  intro j hj
  rcases h with h | h
  · obtain ⟨i, ing, p, hi, ht, -⟩ := calm_progress hs h
    have hne : j ≠ i := by
      rintro rfl
      rw [hn j hj] at hi
      cases hi
    rw [ht, Function.update_of_ne hne]
    exact hn j hj
  · rw [read_ingests h]
    exact hn j hj

theorem calm_nearer {n : Nat} (hs : Inv s) (hn : Below n s) (h : Calm s t) : distance n t < distance n s := by
  obtain ⟨i, ing, p, hi, ht, hlt⟩ := calm_progress hs h
  exact Prod.Lex.toLex_lt_toLex.mpr (.inl (total_lt hn hi ht hlt))

theorem owned_congr (h : t.ingests = s.ingests) : owned t = owned s := by
  funext r
  cases r with
  | command j c => simp only [owned, h]
  | shutdown => rfl

theorem pending_congr (h : t.ingests = s.ingests) (hh : t.holder = s.holder) : pending t = pending s := by
  rw [pending, pending, hh]
  simp only [h]

/-- A read that is answered brings the command behind it to the front. -/
theorem behind_answer {r : Nat} {a : K.AssetId} {q : List (Request K)} (hr : s.ingests r = none)
    (hq : s.worker = some (.command r (.lookup a) :: q)) (hpending : pending s ≠ []) :
    behind s = behind { s with worker := some q } + 1 := by
  have hempty : (pending s).isEmpty = false := by simpa using hpending
  have hpend : pending { s with worker := some q } = pending s := pending_congr rfl rfl
  have hown : owned { s with worker := some q } = owned s := owned_congr rfl
  simp only [behind, hpend, hown, hempty, hq, Bool.false_eq_true, if_false, Option.getD_some]
  rw [List.takeWhile_cons_of_pos (by simp [owned, hr])]
  rfl

theorem takeWhile_append_of_found {α : Type} {p : α → Bool} {l : List α} (h : ∃ x ∈ l, p x = false) (l' : List α) :
    (l ++ l').takeWhile p = l.takeWhile p := by
  rw [List.takeWhile_append, if_neg]
  intro hlen
  obtain ⟨x, hx, hp⟩ := h
  rw [← (List.takeWhile_sublist p).eq_of_length hlen] at hx
  rw [List.mem_takeWhile_imp hx] at hp
  cases hp

theorem Queued.found {q : List (Request K)} (hq : Queued s q) (hpending : pending s ≠ []) :
    ∃ r ∈ q, (owned s r).isNone = false := by
  rw [← hq.commands] at hpending
  obtain ⟨x, hx⟩ := List.exists_mem_of_ne_nil _ hpending
  obtain ⟨r, hr, howned⟩ := List.mem_filterMap.mp hx
  exact ⟨r, hr, by rw [howned]; rfl⟩

/-- No read gets in the way of what is already queued. -/
theorem read_keeps {n : Nat} (hs : Inv s) (h : Read s t) : distance n t ≤ distance n s := by
  have htotal : total n t = total n s := by
    rw [total, total, read_ingests h]
  have hle : behind t ≤ behind s := by
    obtain ⟨q', hq', hqueued⟩ := hs.queue
    cases h with
    | ask r a q hr hq =>
      obtain rfl : q' = q := Option.some.inj (hq'.symm.trans hq)
      have hpend : pending { s with worker := some (q' ++ [.command r (.lookup a)]) } = pending s :=
        pending_congr rfl rfl
      have hown : owned { s with worker := some (q' ++ [.command r (.lookup a)]) } = owned s := owned_congr rfl
      by_cases hpending : pending s = []
      · simp [behind, hpend, hpending]
      · have hempty : (pending s).isEmpty = false := by simpa using hpending
        simp only [behind, hpend, hown, hempty, hq, Bool.false_eq_true, if_false, Option.getD_some]
        rw [takeWhile_append_of_found (hqueued.found hpending)]
    | answer r a q hr hq =>
      by_cases hpending : pending s = []
      · have hpend : pending { s with worker := some q } = [] := (pending_congr rfl rfl).trans hpending
        simp [behind, hpend]
      · rw [behind_answer hr hq hpending]
        exact Nat.le_succ _
  rw [distance, distance, htotal]
  exact Prod.Lex.toLex_le_toLex.mpr (.inr ⟨rfl, hle⟩)

theorem work_nearer {n : Nat} (hs : Inv s) (hn : Below n s) (h : Work s t) : distance n t < distance n s := by
  cases h with
  | calm _ h => exact calm_nearer hs hn h
  | serve r a q hr hq hpending =>
    have htotal : total n { s with worker := some q } = total n s := rfl
    rw [distance, distance, htotal, behind_answer hr hq hpending]
    exact Prod.Lex.toLex_lt_toLex.mpr (.inr ⟨rfl, Nat.lt_succ_self _⟩)

/-- A matching source never gives more than was announced. -/
theorem acceptRead_matches (hm : Matches ing) {written chunk : Bytes} {rest : List (Option Bytes)}
    (hcontent : written ++ streamed (some chunk :: rest) = ing.content) :
    ∃ length, acceptRead ing.descriptor written.length chunk.length = .ok length := by
  have hlength := hm.length
  have hmax := ing.descriptor.length_le
  have hstreamed : streamed (some chunk :: rest) = chunk ++ streamed rest := rfl
  rw [← hcontent, hstreamed, List.length_append, List.length_append] at hlength
  refine ⟨written.length + chunk.length, ?_⟩
  rw [acceptRead, checkedAddU64, if_pos (by omega)]
  simp only
  rw [if_neg (by omega)]

/-- Who has the lock can go on, or is served, or a read before it is. -/
theorem At.enabled (hs : Inv s) (hh : s.holder = some i) (hi : s.ingests i = some ing) (hat : At s i ing) :
    ∃ t, Work s t := by
  obtain ⟨q, hq, hqueued⟩ := hs.queue
  obtain ⟨hc, hgen, hm⟩ := hs.calls i ing hi
  cases hawaited : awaited ing with
  | some c =>
    have hpending : pending s ≠ [] := by
      rw [pending_held hh hi, hawaited]
      simp
    cases q with
    | nil =>
      obtain ⟨r, hr, -⟩ := hqueued.found hpending
      cases hr
    | cons r q =>
      obtain ⟨hshutdown, hlookup⟩ := hqueued.reads r List.mem_cons_self
      cases r with
      | shutdown => exact absurd rfl hshutdown
      | command j c' =>
        cases hj : s.ingests j with
        | some y => exact ⟨_, .calm _ _ (.work s j y c' q hq hj)⟩
        | none =>
          obtain ⟨a, rfl⟩ := hlookup j c' rfl hj
          exact ⟨_, .serve s j a q hj hq hpending⟩
  | none =>
    rcases hat.cases hawaited with ⟨r, hphase⟩ | hphase | ⟨written, rest, hphase⟩ | ⟨r, hphase⟩ | hphase |
      ⟨r, hphase⟩ | ⟨r, hphase⟩
    all_goals simp only [At, hphase] at hat
    · rcases hat with ⟨rfl, -⟩ | ⟨w, winner, -, rfl⟩
      · exact ⟨_, .calm _ _ (.proceed s i ing .creating hi hc (by simp [resume, hphase]))⟩
      · exact ⟨_, .calm _ _ (.proceed s i ing _ hi hc (by simp only [resume, hphase]; rfl))⟩
    · exact ⟨_, .calm _ _ (.create s i ing hi hphase hat.2)⟩
    · obtain ⟨-, hfile, hrest, hcontent⟩ := hat
      cases rest with
      | nil =>
        obtain rfl : written = ing.content := by simpa [streamed] using hcontent
        exact ⟨_, .calm _ _ (.send s i ing q _ _ _ hi hc (by simp only [resume, hphase, hm.verified]; rfl) hgen hq
          (by simp [hphase]))⟩
      | cons read rest =>
        cases read with
        | none => exact absurd List.mem_cons_self hrest
        | some chunk =>
          obtain ⟨length, haccept⟩ := acceptRead_matches hm hcontent
          exact ⟨_, .calm _ _ (.write s i ing written chunk rest length hi hphase haccept)⟩
    · obtain ⟨rfl, -⟩ := hat
      exact ⟨_, .calm _ _ (.proceed s i ing .renaming hi hc (by simp [resume, hphase]))⟩
    · exact ⟨_, .calm _ _ (.rename s i ing _ hi hphase hat.2.2)⟩
    · obtain ⟨rfl, -⟩ := hat
      exact ⟨_, .calm _ _ (.send s i ing q _ _ _ hi hc (by simp only [resume, hphase]; rfl) hgen hq
        (by simp [hphase]))⟩
    · obtain ⟨rfl, -⟩ := hat
      exact ⟨_, .calm _ _ (.proceed s i ing (.finished (.ok .inserted)) hi hc (by simp [resume, hphase]))⟩

theorem work_enabled (hs : Inv s) (h : ¬ Done s) : ∃ t, Work s t := by
  cases hholder : s.holder with
  | some i =>
    obtain ⟨ing, hi, -, hat⟩ := hs.held i hholder
    exact hat.enabled hs hholder hi
  | none =>
    unfold Done at h
    push Not at h
    obtain ⟨i, ing, hi, hfinished⟩ := h
    have hwaiting : ing.phase = .waiting :=
      (hs.rests hi (by simp [hholder])).idle.resolve_right hfinished
    obtain ⟨q, hq, -⟩ := hs.queue
    obtain ⟨hc, hgen, -⟩ := hs.calls i ing hi
    exact ⟨_, .calm _ _ (.send s i ing q _ _ _ hi hc (by simp only [resume, hwaiting]; rfl) hgen hq
      (fun _ => hholder))⟩

/-- However many reads there are, all ingests return. -/
theorem ingests_return (hstart : Start s) {f : Nat → Store K} (hf : (calmSystem K).Execution f)
    (hfair : Fair Work f) (h₀ : f 0 = s) : ∃ n, Done (f n) := by
  obtain ⟨n, hn⟩ := hstart.finite
  refine hf.eventually (P := fun s => Inv s ∧ Below n s) (distance n) hfair ?_ ?_ ?_ ?_ ?_
  · intro s t hs h
    exact ⟨calmSystem_step hs.1 h, below_step hs.1 hs.2 h⟩
  · intro s hs h
    exact work_enabled hs.1 h
  · intro s t hs _ h
    rcases h with h | h
    · exact le_of_lt (calm_nearer hs.1 hs.2 h)
    · exact read_keeps hs.1 h
  · intro s t hs _ h
    exact work_nearer hs.1 hs.2 h
  · rw [h₀]
    exact ⟨start_inv hstart, hn⟩

theorem Work.step (h : Work s t) : (calmSystem K).step s t := by
  cases h with
  | calm _ h => exact .inl h
  | serve r a q hr hq hpending => exact .inr (.answer s r a q hr hq)

/-- From every state that is reached all ingests can return. -/
theorem can_return {n : Nat} (hs : Inv s) (hn : Below n s) : ∃ t, (calmSystem K).Run s t ∧ Done t := by
  induction hd : distance n s using WellFoundedLT.induction generalizing s with
  | ind d ih =>
    by_cases hdone : Done s
    · exact ⟨s, .refl, hdone⟩
    · obtain ⟨u, hu⟩ := work_enabled hs hdone
      obtain ⟨t, hrun, ht⟩ := ih (distance n u) (by rw [← hd]; exact work_nearer hs hn hu)
        (calmSystem_step hs hu.step) (below_step hs hn hu.step) rfl
      exact ⟨t, .head hu.step hrun, ht⟩

/-! ## What they return -/

/-- Both states are about the same calls. -/
def SameCalls (s t : Store K) : Prop :=
  ∀ i, (t.ingests i).map (fun y => (y.descriptor, y.reads)) = (s.ingests i).map (fun y => (y.descriptor, y.reads))

theorem step_calls (hs : Inv s) (h : (calmSystem K).step s t) : SameCalls s t := by
  intro j
  rcases h with h | h
  · obtain ⟨i, ing, p, hi, ht, -⟩ := calm_progress hs h
    by_cases hj : j = i
    · subst hj
      rw [ht, Function.update_self, hi]
      rfl
    · rw [ht, Function.update_of_ne hj]
  · rw [read_ingests h]

theorem run_calls (hs : Inv s) (h : (calmSystem K).Run s t) : SameCalls s t :=
  System.run_related (P := Inv) (R := SameCalls) (fun _ _ => calmSystem_step) (fun _ _ => rfl)
    (fun _ _ _ h h' i => (h' i).trans (h i)) (fun _ _ => step_calls) hs h

/-- Of the ingests of the asset that count, one has inserted it, the others were told what its
descriptor means for them, and its descriptor and bytes are stored. -/
def Linearised (counts : Ingest K → Prop) (s : Store K) (a : K.AssetId) : Prop :=
  ∃ w winner, s.ingests w = some winner ∧ winner.assetId = a ∧ winner.phase = .finished (.ok .inserted) ∧
    (∀ j ing, s.ingests j = some ing → ing.assetId = a → counts ing → j ≠ w →
      ing.phase = .finished (if winner.descriptor = ing.descriptor then .ok .existing
        else .error (.assetConflict a))) ∧
    lookupAsset Faults.none s.disk.assets a = .ok (some ⟨winner.descriptor, blobKey a, .published⟩) ∧
    s.disk.files.blobs.lookup (blobKey a) = some (.file winner.content)

theorem Inv.not_inProgress (hs : Inv s) (hi : s.ingests i = some ing) (a : K.AssetId) :
    ing.phase ≠ .finished (.error (.assetInProgress a)) := by
  intro hphase
  have hh : s.holder ≠ some i := by
    intro hh
    obtain ⟨y, hy, -, hat⟩ := hs.held i hh
    rw [Option.some.inj (hy.symm.trans hi)] at hat
    simp [At, hphase] at hat
  rcases hs.rests hi hh with h | h | ⟨d, h⟩
  · rw [Resting, hphase] at h
    split at h <;> simp [overflowed] at h
  · rw [hphase] at h
    cases h
  · rw [hphase, verdict] at h
    split at h <;> simp at h

theorem Done.holder (hs : Inv s) (h : Done s) : s.holder = none := by
  cases hholder : s.holder with
  | none => rfl
  | some i =>
    obtain ⟨ing, hi, -, hat⟩ := hs.held i hholder
    have hfinished := h i ing hi
    cases hphase : ing.phase with
    | finished r => simp [At, hphase] at hat
    | _ =>
      rw [hphase] at hfinished
      cases hfinished

theorem Resting.overflowed (h : Resting ing) (hfinished : ing.phase.isFinished = true) :
    ¬ Fits ing ∧ ing.phase = .finished (overflowed ing) := by
  unfold Resting at h
  split at h
  · exact ⟨Nat.not_le_of_lt ‹_›, h⟩
  · rw [h] at hfinished
    cases hfinished

/-- When all have returned, every asset is settled in one way. -/
theorem Done.settled (hs : Inv s) (h : Done s) (hi : s.ingests i = some ing) :
    if Fits ing then Linearised Fits s ing.assetId else ing.phase = .finished (overflowed ing) := by
  have hfinished := h i ing hi
  rcases hs.settled i ing hi (by simp [h.holder hs]) with ⟨-, hal⟩ | ⟨w, winner, hw⟩
  · obtain ⟨hfits, hphase⟩ := (hal i ing hi rfl (by simp)).overflowed hfinished
    rw [if_neg hfits]
    exact hphase
  · have hkey : winner.key = blobKey ing.assetId := by rw [Ingest.key, hw.asset]
    split
    · refine ⟨w, winner, hw.ingest, hw.asset, hw.inserted, ?_, ?_, ?_⟩
      · intro j y hj ha hcounts hne
        rcases hw.judged j y hj ha hne (by simp) with hrest | ⟨-, hphase⟩
        · exact absurd hcounts (hrest.overflowed (h j y hj)).1
        · rw [hphase, verdict, ha]
      · have hlookup := lookupAsset_stored hw.stored
        rw [hw.asset, hkey] at hlookup
        exact hlookup
      · obtain ⟨row, -, -, hblob⟩ := hw.stored
        rw [hkey] at hblob
        exact hblob
    · rename_i hfits
      by_cases he : i = w
      · subst he
        rw [Option.some.inj (hi.symm.trans hw.ingest)] at hfits
        exact absurd hw.fits hfits
      · rcases hw.judged i ing hi rfl he (by simp) with hrest | ⟨hfits', -⟩
        · exact (hrest.overflowed hfinished).2
        · exact absurd hfits' hfits

/-- Ingests on the clones of one store, in any order of their steps and of reads. -/
theorem ingests_linearised (s : Store K) (hstart : Start s) :
    (∀ t, (calmSystem K).Run s t → SameCalls s t ∧
      (∀ i ing a, t.ingests i = some ing → ing.phase ≠ .finished (.error (.assetInProgress a))) ∧
      (Done t → ∀ i ing, t.ingests i = some ing →
        if Fits ing then Linearised Fits t ing.assetId else ing.phase = .finished (overflowed ing)) ∧
      ∃ u, (calmSystem K).Run t u ∧ Done u) ∧
    ∀ f, (calmSystem K).Execution f → Fair Work f → f 0 = s → ∃ n, Done (f n) := by
  have hs := start_inv hstart
  constructor
  · intro t ht
    have hinv := calmSystem_run hs ht
    obtain ⟨n, hn⟩ := hstart.finite
    have hbelow : Inv t ∧ Below n t := System.preserved (S := calmSystem K) (P := fun s => Inv s ∧ Below n s)
      (fun _ _ h hst => ⟨calmSystem_step h.1 hst, below_step h.1 h.2 hst⟩) ⟨hs, hn⟩ ht
    exact ⟨run_calls hs ht, fun i ing a hi => hinv.not_inProgress hi a,
      fun hdone i ing hi => hdone.settled hinv hi, can_return hbelow.1 hbelow.2⟩
  · intro f hf hfair h₀
    exact ingests_return hstart hf hfair h₀

/-- Two equal ingests on a new store. -/
def twoIngests : Store textAssets :=
  { sampleEmpty with
    ingests := fun i => if i = 0 then some (sampleIngest 1 "first" .waiting)
      else if i = 1 then some (sampleIngest 1 "second" .waiting) else none }

theorem twoIngests_cases {i : Nat} {ing : Ingest textAssets} (h : twoIngests.ingests i = some ing) :
    (i = 0 ∧ ing = sampleIngest 1 "first" .waiting) ∨ (i = 1 ∧ ing = sampleIngest 1 "second" .waiting) := by
  simp only [twoIngests] at h
  split at h
  · exact .inl ⟨‹_›, (Option.some.inj h).symm⟩
  · split at h
    · exact .inr ⟨‹_›, (Option.some.inj h).symm⟩
    · cases h

theorem sampleIngest_matches (name : String) : Matches (sampleIngest 1 name .waiting) where
  readable := by simp [sampleIngest]
  chunks := by simp [sampleIngest, readBufferSize]
  length := rfl
  hash := rfl

theorem twoIngests_start : Start twoIngests where
  finite := ⟨2, fun i hi => by simp [twoIngests, show i ≠ 0 by omega, show i ≠ 1 by omega]⟩
  calls := by
    intro i ing hi
    rcases twoIngests_cases hi with ⟨-, rfl⟩ | ⟨-, rfl⟩
    · exact ⟨rfl, rfl, sampleIngest_matches "first", rfl⟩
    · exact ⟨rfl, rfl, sampleIngest_matches "second", rfl⟩
  absent _ _ _ := rfl
  names := by
    intro i j x y hi hj hname
    rcases twoIngests_cases hi with ⟨rfl, rfl⟩ | ⟨rfl, rfl⟩
    · rcases twoIngests_cases hj with ⟨rfl, rfl⟩ | ⟨rfl, rfl⟩
      · rfl
      · exact absurd hname (by decide)
    · rcases twoIngests_cases hj with ⟨rfl, rfl⟩ | ⟨rfl, rfl⟩
      · exact absurd hname (by decide)
      · rfl
  unused _ _ _ := rfl
  worker := rfl
  holder := rfl

theorem ingests_linearised_sample :
    Start twoIngests ∧ ∃ t, (calmSystem textAssets).Run twoIngests t ∧ Done t ∧
      Linearised Fits t "aaaaaaaa-asset" := by
  obtain ⟨hruns, -⟩ := ingests_linearised twoIngests twoIngests_start
  obtain ⟨-, -, -, t, ht, hdone⟩ := hruns twoIngests .refl
  refine ⟨twoIngests_start, t, ht, hdone, ?_⟩
  obtain ⟨hcalls, -, hsettled, -⟩ := hruns t ht
  have hsame := hcalls 0
  cases hi : t.ingests 0 with
  | none =>
    rw [hi] at hsame
    cases hsame
  | some ing =>
    rw [hi] at hsame
    have hdesc : ing.descriptor = sampleDescriptor := (Prod.mk.inj (Option.some.inj hsame)).1
    have hfits : Fits ing := by
      rw [Fits, hdesc]
      decide
    have hlinear := hsettled hdone 0 ing hi
    rw [if_pos hfits, Ingest.assetId, hdesc] at hlinear
    exact hlinear

/-! ## Lengths that do not fit -/

theorem length_streamed_replicate (n : Nat) (chunk : Bytes) :
    (streamed (List.replicate n (some chunk))).length = n * chunk.length := by
  induction n with
  | zero => simp [streamed]
  | succ n ih =>
    rw [List.replicate_succ]
    show (chunk ++ streamed (List.replicate n (some chunk))).length = _
    rw [List.length_append, ih, Nat.succ_mul, Nat.add_comm]

/-- As many bytes as a signed length cannot count, in full buffers. -/
def hugeReads : List (Option Bytes) := List.replicate (2 ^ 47) (some (List.replicate readBufferSize 0))

theorem hugeReads_length : (streamed hugeReads).length = i64Max + 1 := by
  rw [hugeReads, length_streamed_replicate, List.length_replicate]
  decide

def hugeIngest : Ingest textAssets where
  gen := 1
  descriptor :=
    { assetId := "aaaaaaaa-asset"
      mediaType := "application/pdf"
      byteLength := i64Max + 1
      contentHash := textAssets.sha256 (streamed hugeReads)
      originalFilename := none
      length_le := by decide
      valid := rfl }
  reads := hugeReads
  name := "first"
  phase := .finished (.error (.lengthOverflow "aaaaaaaa-asset" (i64Max + 1)))
  cancelled := false

def hugeStart : Store textAssets :=
  { sampleEmpty with ingests := fun i => if i = 0 then some hugeIngest else none }

theorem hugeStart_cases {i : Nat} {ing : Ingest textAssets} (h : hugeStart.ingests i = some ing) :
    i = 0 ∧ ing = hugeIngest := by
  simp only [hugeStart] at h
  split at h
  · exact ⟨‹_›, (Option.some.inj h).symm⟩
  · cases h

theorem hugeIngest_matches : Matches hugeIngest where
  readable := by
    intro h
    cases List.eq_of_mem_replicate h
  chunks := by
    intro chunk h
    obtain rfl := Option.some.inj (List.eq_of_mem_replicate h)
    rw [List.length_replicate]
    decide
  length := hugeReads_length
  hash := rfl

theorem hugeStart_start : Start hugeStart where
  finite := ⟨1, fun i hi => by simp [hugeStart, show i ≠ 0 by omega]⟩
  calls := by
    intro i ing hi
    obtain ⟨-, rfl⟩ := hugeStart_cases hi
    have hlong : i64Max < hugeIngest.descriptor.byteLength := Nat.lt_succ_self i64Max
    refine ⟨rfl, rfl, hugeIngest_matches, ?_⟩
    rw [Resting, if_pos hlong]
    rfl
  absent _ _ _ := rfl
  names := by
    intro i j x y hi hj _
    rw [(hugeStart_cases hi).1, (hugeStart_cases hj).1]
  unused _ _ _ := rfl
  worker := rfl
  holder := rfl

/-- An ingest of more bytes than the column can count returns without inserting them,
so that nobody inserts the asset. -/
theorem long_ingest_not_linearised :
    ∃ s : Store textAssets, Start s ∧ Done s ∧ ∃ i ing, s.ingests i = some ing ∧
      ¬ Linearised (fun _ => True) s ing.assetId := by
  refine ⟨hugeStart, hugeStart_start, ?_, 0, hugeIngest, rfl, ?_⟩
  · intro i ing hi
    obtain ⟨-, rfl⟩ := hugeStart_cases hi
    rfl
  · rintro ⟨w, winner, hw, -, hinserted, -⟩
    obtain ⟨-, rfl⟩ := hugeStart_cases hw
    cases hinserted

end OrbitRelay.AssetStore
