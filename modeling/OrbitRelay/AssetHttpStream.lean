import OrbitRelay.AssetHttpGuard

/-!
# The streaming loop

`stream_asset` trusts its reader with nothing: whatever the reader answers, the
loop stays inside the window that was announced.
-/
namespace OrbitRelay.AssetHttp

open AssetStore Grant MachineInt Text Transition

variable {K : AssetKernel} {G : GrantKernel K.AssetId}

/-- The loop between two iterations, with the chunks that it has written. -/
structure Loop where
  index : Nat
  offset : Nat
  remaining : Nat
  sent : List AssetByteChunk

def Loop.written (s : Loop) : Bytes := s.sent.flatMap AssetByteChunk.bytes

section Pass

variable (link : Link G) (reader : Reader K) (assetId : K.AssetId) (chunkSize : Nat)

/-- The range that the next iteration asks for, if it comes to that. -/
def requested (s : Loop) : Option AssetByteRange :=
  if s.remaining = 0 ∨ link.cancelled s.index = true ∨ link.interrupted s.index = true then none
  else AssetByteRange.new s.offset (min s.remaining chunkSize)

/-- One iteration of `stream_asset`: either the loop goes on, or it ends with what this iteration wrote. -/
def pass (s : Loop) : Loop ⊕ Outcome :=
  if s.remaining = 0 then .inr .done
  else if link.cancelled s.index then .inr .done
  else
    match AssetByteRange.new s.offset (min s.remaining chunkSize) with
    | none => .inr (.failed .backend)
    | some range =>
      if link.interrupted s.index then .inr .done
      else match reader s.index assetId range with
        | .error _ => .inr (.failed .backend)
        | .ok chunk =>
          if chunk.offset ≠ s.offset ∨ chunk.bytes = [] ∨ chunk.bytes.length > min s.remaining chunkSize ∨
              chunk.bytes.length > s.remaining then .inr (.failed .backend)
          else match link.fails (s.index + 1) with
            | some n => .inr ⟨chunk.bytes.take n, .error .request⟩
            | none => match checkedAddU64 s.offset chunk.bytes.length with
              | none => .inr ⟨chunk.bytes, .error .backend⟩
              | some offset => .inl ⟨s.index + 1, offset, s.remaining - chunk.bytes.length, s.sent ++ [chunk]⟩

def loop (offset remaining : Nat) : System Loop where
  init s := s = ⟨0, offset, remaining, []⟩
  step s t := pass link reader assetId chunkSize s = .inl t

end Pass

/-- An empty, an oversized or a misplaced answer to a request. -/
def Misfit (range : AssetByteRange) (chunk : AssetByteChunk) : Prop :=
  chunk.bytes = [] ∨ range.length < chunk.bytes.length ∨ chunk.offset ≠ range.offset

/-- The chunks follow one another without a gap, from `offset` on. -/
def Consecutive : Nat → List AssetByteChunk → Prop
  | _, [] => True
  | offset, chunk :: rest => chunk.offset = offset ∧ Consecutive (offset + chunk.bytes.length) rest

theorem consecutive_append {offset : Nat} {chunks rest : List AssetByteChunk} :
    Consecutive offset (chunks ++ rest) ↔
      Consecutive offset chunks ∧ Consecutive (offset + (chunks.flatMap AssetByteChunk.bytes).length) rest := by
  induction chunks generalizing offset with
  | nil => simp [Consecutive]
  | cons chunk chunks ih =>
    simp only [List.cons_append, Consecutive, ih, List.flatMap_cons, List.length_append, and_assoc, Nat.add_assoc]

section Iteration

variable {link : Link G} {reader : Reader K} {assetId : K.AssetId} {chunkSize : Nat} {s t : Loop}

theorem requested_eq_some {range : AssetByteRange} :
    requested link chunkSize s = some range ↔
      (s.remaining ≠ 0 ∧ link.cancelled s.index = false ∧ link.interrupted s.index = false) ∧
        range.offset = s.offset ∧ range.length = min s.remaining chunkSize := by
  unfold requested AssetByteRange.new
  cases hcancelled : link.cancelled s.index <;> cases hinterrupted : link.interrupted s.index <;>
    by_cases hrem : s.remaining = 0 <;> simp [hrem]
  constructor
  · rintro ⟨-, rfl⟩
    exact ⟨rfl, rfl⟩
  · rintro ⟨hoffset, hlength⟩
    have hpos := range.length_pos
    have hend := range.end_le
    refine ⟨by omega, ?_⟩
    cases range
    cases hoffset
    cases hlength
    rfl

/-- A misfit ends the loop with nothing of it written. -/
theorem pass_misfit {range : AssetByteRange} {chunk : AssetByteChunk} (hrange : requested link chunkSize s = some range)
    (hread : reader s.index assetId range = .ok chunk) (hmisfit : Misfit range chunk) :
    pass link reader assetId chunkSize s = .inr (.failed .backend) := by
  obtain ⟨⟨hrem, hcancelled, hinterrupted⟩, hoffset, hlength⟩ := requested_eq_some.mp hrange
  unfold requested at hrange
  rw [if_neg (by simp [hrem, hcancelled, hinterrupted])] at hrange
  have hbad : chunk.offset ≠ s.offset ∨ chunk.bytes = [] ∨ chunk.bytes.length > min s.remaining chunkSize ∨
      chunk.bytes.length > s.remaining := by
    rw [← hoffset, ← hlength]
    rcases hmisfit with hempty | hlong | hplace
    · exact .inr (.inl hempty)
    · exact .inr (.inr (.inl hlong))
    · exact .inl hplace
  simp only [pass, if_neg hrem, hcancelled, hinterrupted, Bool.false_eq_true, if_false, hrange, hread, if_pos hbad]

/-- What an iteration can do. -/
theorem pass_cases (link : Link G) (reader : Reader K) (assetId : K.AssetId) (chunkSize : Nat) (s : Loop) :
    (pass link reader assetId chunkSize s = .inr .done ∧
      (s.remaining = 0 ∨ link.cancelled s.index = true ∨ link.interrupted s.index = true)) ∨
    pass link reader assetId chunkSize s = .inr (.failed .backend) ∨
    ∃ range chunk, requested link chunkSize s = some range ∧ reader s.index assetId range = .ok chunk ∧
      ¬ Misfit range chunk ∧
      ((∃ n, pass link reader assetId chunkSize s = .inr ⟨chunk.bytes.take n, .error .request⟩) ∨
        pass link reader assetId chunkSize s = .inl ⟨s.index + 1, s.offset + chunk.bytes.length,
          s.remaining - chunk.bytes.length, s.sent ++ [chunk]⟩) := by
  unfold pass
  split
  · exact .inl ⟨rfl, .inl ‹_›⟩
  · rename_i hrem
    split
    · exact .inl ⟨rfl, .inr (.inl ‹_›)⟩
    · rename_i hcancelled
      split
      · exact .inr (.inl rfl)
      · rename_i range hrange
        split
        · exact .inl ⟨rfl, .inr (.inr ‹_›)⟩
        · rename_i hinterrupted
          have hrequest : requested link chunkSize s = some range := by
            rw [requested, if_neg (by simp [hrem, hcancelled, hinterrupted]), hrange]
          obtain ⟨-, hoffset, hlength⟩ := requested_eq_some.mp hrequest
          split
          · exact .inr (.inl rfl)
          · rename_i chunk hread
            split
            · exact .inr (.inl rfl)
            · rename_i hfit
              have hmisfit : ¬ Misfit range chunk := by
                rw [Misfit, hoffset, hlength]
                tauto
              refine .inr (.inr ⟨range, chunk, hrequest, hread, hmisfit, ?_⟩)
              split
              · exact .inl ⟨_, rfl⟩
              · -- the requested range ends within 64 bits, so the addition does not fail
                have hend := range.end_le
                have hadd : checkedAddU64 s.offset chunk.bytes.length = some (s.offset + chunk.bytes.length) :=
                  if_pos (by simp only [Misfit, not_or] at hmisfit; omega)
                rw [hadd]
                exact .inr rfl

/-- An iteration that goes on has written one fitting chunk. -/
theorem pass_next (h : pass link reader assetId chunkSize s = .inl t) :
    ∃ range chunk, requested link chunkSize s = some range ∧ reader s.index assetId range = .ok chunk ∧
      ¬ Misfit range chunk ∧ t = ⟨s.index + 1, s.offset + chunk.bytes.length,
        s.remaining - chunk.bytes.length, s.sent ++ [chunk]⟩ := by
  rcases pass_cases link reader assetId chunkSize s with ⟨hpass, -⟩ | hpass |
    ⟨range, chunk, hrequest, hread, hfit, hpass⟩
  · cases h.symm.trans hpass
  · cases h.symm.trans hpass
  · rcases hpass with ⟨n, hpass⟩ | hpass
    · cases h.symm.trans hpass
    · exact ⟨range, chunk, hrequest, hread, hfit, Sum.inl.inj (h.symm.trans hpass)⟩

variable (link reader assetId chunkSize) in
/-- What the loop will have written in the end, and how it will end. -/
def Loop.outcome (s : Loop) : Outcome :=
  (Outcome.mk s.written (.ok ())).andThen
    (streamAsset link reader assetId chunkSize s.index s.offset s.remaining)

/-- `stream_asset` is its iterations, one after the other. -/
theorem pass_outcome (link : Link G) (reader : Reader K) (assetId : K.AssetId) (chunkSize : Nat) (s : Loop) :
    s.outcome link reader assetId chunkSize =
      match pass link reader assetId chunkSize s with
      | .inl t => t.outcome link reader assetId chunkSize
      | .inr outcome => ⟨s.written ++ outcome.written, outcome.result⟩ := by
  simp only [Loop.outcome, Outcome.andThen]
  rw [streamAsset, pass]
  by_cases hrem : s.remaining = 0
  · rw [if_pos hrem, if_pos hrem]
  rw [if_neg hrem, if_neg hrem]
  cases hcancelled : link.cancelled s.index with
  | true => rfl
  | false =>
    cases hrange : AssetByteRange.new s.offset (min s.remaining chunkSize) with
    | none => rfl
    | some range =>
      cases hinterrupted : link.interrupted s.index with
      | true => rfl
      | false =>
        cases hread : reader s.index assetId range with
        | error e => simp only [Bool.false_eq_true, if_false, hread]
        | ok chunk =>
          simp only [Bool.false_eq_true, if_false, hread]
          by_cases hmisfit : chunk.offset ≠ s.offset ∨ chunk.bytes = [] ∨
              chunk.bytes.length > min s.remaining chunkSize ∨ chunk.bytes.length > s.remaining
          · rw [dif_pos hmisfit, if_pos hmisfit]
          · rw [dif_neg hmisfit, if_neg hmisfit, writeAll]
            cases hfails : link.fails (s.index + 1) with
            | some n => rfl
            | none =>
              cases hadd : checkedAddU64 s.offset chunk.bytes.length with
              | none => simp [Outcome.andThen, Outcome.failed]
              | some offset => simp [Outcome.andThen, Loop.written]

end Iteration

section Run

variable {link : Link G} {reader : Reader K} {assetId : K.AssetId} {chunkSize offset remaining : Nat}

/-- What every state of the loop keeps, from the offset and the length it began with. -/
structure Tracks (reader : Reader K) (assetId : K.AssetId) (offset remaining : Nat) (s : Loop) : Prop where
  index : s.index = s.sent.length
  bounded : s.index + s.remaining ≤ remaining
  balance : s.written.length + s.remaining = remaining
  place : s.offset = offset + s.written.length
  order : Consecutive offset s.sent
  answers : ∀ i chunk, s.sent[i]? = some chunk →
    ∃ range, reader i assetId range = .ok chunk ∧ ¬ Misfit range chunk

theorem Tracks.next {s t : Loop} (hs : Tracks reader assetId offset remaining s)
    (h : pass link reader assetId chunkSize s = .inl t) : Tracks reader assetId offset remaining t := by
  obtain ⟨range, chunk, hrequest, hread, hfit, rfl⟩ := pass_next h
  obtain ⟨-, hoffset, hlength⟩ := requested_eq_some.mp hrequest
  obtain ⟨hne, hshort, hplace⟩ : chunk.bytes ≠ [] ∧ chunk.bytes.length ≤ range.length ∧
      chunk.offset = range.offset := by
    simpa [Misfit] using hfit
  have hpos := List.length_pos_iff.mpr hne
  have hbounded := hs.bounded
  have hbalance := hs.balance
  have hwritten : (Loop.mk (s.index + 1) (s.offset + chunk.bytes.length) (s.remaining - chunk.bytes.length)
      (s.sent ++ [chunk])).written = s.written ++ chunk.bytes := by
    simp [Loop.written]
  constructor
  · simp [hs.index]
  · dsimp only
    omega
  · rw [hwritten, List.length_append]
    dsimp only
    omega
  · rw [hwritten, List.length_append, hs.place, Nat.add_assoc]
  · exact consecutive_append.mpr ⟨hs.order, by rw [hplace, hoffset, hs.place]; rfl, trivial⟩
  · intro i found hfound
    rw [List.getElem?_append] at hfound
    split at hfound
    · exact hs.answers i found hfound
    · rename_i hlt
      rw [List.getElem?_singleton] at hfound
      split at hfound
      · rename_i hzero
        cases hfound
        have hi : i = s.index := by
          rw [hs.index]
          omega
        exact ⟨range, hi ▸ hread, hfit⟩
      · cases hfound

theorem reachable_tracks {s : Loop} (h : (loop link reader assetId chunkSize offset remaining).Reachable s) :
    Tracks reader assetId offset remaining s := by
  refine System.invariant ?_ ?_ h
  · rintro s rfl
    exact ⟨rfl, by simp, by simp [Loop.written], by simp [Loop.written], trivial, by simp⟩
  · intro s t hs hst
    exact hs.next hst

/-- The loop ends, and every state on the way already shows how. -/
theorem exists_end (link : Link G) (reader : Reader K) (assetId : K.AssetId) (chunkSize offset remaining : Nat)
    (s : Loop) :
    ∃ t ending, (loop link reader assetId chunkSize offset remaining).Run s t ∧
      pass link reader assetId chunkSize t = .inr ending ∧
      s.outcome link reader assetId chunkSize = ⟨t.written ++ ending.written, ending.result⟩ := by
  induction hrem : s.remaining using Nat.strong_induction_on generalizing s with
  | _ n ih =>
    have houtcome := pass_outcome link reader assetId chunkSize s
    cases hpass : pass link reader assetId chunkSize s with
    | inr ending =>
      rw [hpass] at houtcome
      exact ⟨s, ending, .refl, hpass, houtcome⟩
    | inl t =>
      rw [hpass] at houtcome
      obtain ⟨range, chunk, hrequest, hread, hfit, ht⟩ := pass_next hpass
      have hpos := List.length_pos_iff.mpr (not_or.mp hfit).1
      have hsome := (requested_eq_some.mp hrequest).1.1
      obtain ⟨u, ending, hrun, hend, hu⟩ := ih t.remaining (by rw [ht]; dsimp only; omega) t rfl
      exact ⟨u, ending, .head hpass hrun, hend, houtcome.trans hu⟩

/-- The iteration that ends the loop writes nothing, or the beginning of a chunk whose write fails. -/
theorem pass_ending {s : Loop} {ending : Outcome} (h : pass link reader assetId chunkSize s = .inr ending) :
    (ending.written = [] ∧ (ending.result = .ok () →
        s.remaining = 0 ∨ link.cancelled s.index = true ∨ link.interrupted s.index = true)) ∨
      ending.result = .error .request ∧ ∃ range chunk, requested link chunkSize s = some range ∧
        reader s.index assetId range = .ok chunk ∧ ¬ Misfit range chunk ∧ ending.written <+: chunk.bytes := by
  rcases pass_cases link reader assetId chunkSize s with ⟨hpass, hwhy⟩ | hpass |
    ⟨range, chunk, hrequest, hread, hfit, hpass⟩
  · cases h.symm.trans hpass
    exact .inl ⟨rfl, fun _ => hwhy⟩
  · cases h.symm.trans hpass
    exact .inl ⟨rfl, fun hok => by cases hok⟩
  · rcases hpass with ⟨n, hpass⟩ | hpass
    · cases h.symm.trans hpass
      exact .inr ⟨rfl, range, chunk, hrequest, hread, hfit, List.take_prefix _ _⟩
    · cases h.symm.trans hpass

end Run

/-- The length that the loop starts with is the one in the head of the response. -/
theorem answer_announced {config : Config} {link : Link G} {server : Server G} {request : HttpRequest}
    {headers : Headers} {assetId : K.AssetId} {status offset remaining : Nat}
    (h : (answer config link server request).1 = .content status headers assetId offset remaining) :
    ("Content-Length".toList, number remaining) ∈ headers := by
  rcases answer_cases config link server request with hplain | ⟨found, asset, -, -, hanswer⟩
  · rw [h] at hplain
    cases hplain
  · rw [hanswer] at h
    exact (answerAsset_content h).2

/-- Whatever the reader does, the loop ends in time and stays inside its window, and what it
writes are the chunks of that window in order, never more than announced. -/
theorem stream_safe (link : Link G) (reader : Reader K) (assetId : K.AssetId) (chunkSize offset remaining : Nat) :
    (∀ s, (loop link reader assetId chunkSize offset remaining).Reachable s →
      Tracks reader assetId offset remaining s ∧
      ∀ range, requested link chunkSize s = some range →
        (offset ≤ range.offset ∧ range.offset + range.length ≤ offset + remaining) ∧
        ∀ chunk, reader s.index assetId range = .ok chunk → Misfit range chunk →
          pass link reader assetId chunkSize s = .inr ⟨[], .error .backend⟩) ∧
    (∃ s ending, (loop link reader assetId chunkSize offset remaining).Reachable s ∧
      pass link reader assetId chunkSize s = .inr ending ∧
      streamAsset link reader assetId chunkSize 0 offset remaining =
        ⟨s.written ++ ending.written, ending.result⟩ ∧
      (ending.written = [] ∨
        ending.result = .error .request ∧ ∃ range chunk, requested link chunkSize s = some range ∧
          reader s.index assetId range = .ok chunk ∧ ¬ Misfit range chunk ∧ ending.written <+: chunk.bytes) ∧
      (s.written ++ ending.written).length ≤ remaining ∧
      (ending.result = .ok () → link.cancelled s.index = false → link.interrupted s.index = false →
        (s.written ++ ending.written).length = remaining)) ∧
    ∀ config server request status headers,
      (answer config link server request).1 = .content status headers assetId offset remaining →
      ("Content-Length".toList, number remaining) ∈ headers := by
  refine ⟨?_, ?_, fun config server request status headers => answer_announced⟩
  · intro s hs
    have htracks := reachable_tracks hs
    refine ⟨htracks, fun range hrange => ⟨?_, fun chunk hread hmisfit => pass_misfit hrange hread hmisfit⟩⟩
    obtain ⟨-, hoffset, hlength⟩ := requested_eq_some.mp hrange
    have hplace := htracks.place
    have hbalance := htracks.balance
    omega
  · obtain ⟨s, ending, hrun, hend, houtcome⟩ :=
      exists_end link reader assetId chunkSize offset remaining ⟨0, offset, remaining, []⟩
    have hs : (loop link reader assetId chunkSize offset remaining).Reachable s := ⟨_, rfl, hrun⟩
    have hbalance := (reachable_tracks hs).balance
    refine ⟨s, ending, hs, hend, ?_, ?_, ?_, ?_⟩
    · exact houtcome
    · exact (pass_ending hend).imp_left And.left
    · rw [List.length_append]
      rcases pass_ending hend with ⟨hnil, -⟩ | ⟨-, range, chunk, hrequest, -, hfit, hbegin⟩
      · rw [hnil, List.length_nil]
        omega
      · have hlength := (requested_eq_some.mp hrequest).2.2
        have hle := hbegin.length_le
        simp only [Misfit, not_or] at hfit
        omega
    · intro hok hcancelled hinterrupted
      rw [List.length_append]
      rcases pass_ending hend with ⟨hnil, hwhy⟩ | ⟨herror, -⟩
      · have hrem : s.remaining = 0 := by simpa [hcancelled, hinterrupted] using hwhy hok
        rw [hnil, List.length_nil]
        omega
      · cases hok.symm.trans herror

end OrbitRelay.AssetHttp
