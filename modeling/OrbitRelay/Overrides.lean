import OrbitRelay.Codec
import Mathlib.Data.List.Nodup
import Mathlib.Logic.Function.Basic

/-!
# A record overridden field by field

A record starts from its defaults and is overridden by named sources, each of which
is for one field. When no field is written twice, the order is of no account: every field
is what its own source says.
-/
namespace Overrides

open Codec

variable {σ ω ε : Type}

/-- A source by its name, how it is read, and the field that it is for. It is only asked for while
the record enables it. -/
structure Setting (σ ω ε : Type) where
  name : String
  Value : Type
  enabled : σ → Bool
  read : ω → Except ε Value
  get : σ → Value
  set : Value → σ → σ

/-- One source. -/
def Setting.override (s : Setting σ ω ε) (env : String → Option ω) (c : σ) : Except ε σ :=
  if s.enabled c then
    match env s.name with
    | none => .ok c
    | some raw => do
      let value ← s.read raw
      .ok (s.set value c)
  else .ok c

/-- All sources, in order. -/
def overrideAll (settings : List (Setting σ ω ε)) (env : String → Option ω) (c : σ) : Except ε σ :=
  settings.foldlM (fun c s => s.override env c) c

/-- What a field is, given what it was before. -/
def Setting.Chosen (s : Setting σ ω ε) (source : Option ω) (enabled : Bool) (old new : s.Value) : Prop :=
  match source, enabled with
  | some raw, true => s.read raw = .ok new
  | _, _ => new = old

structure Setting.Lawful (s : Setting σ ω ε) : Prop where
  set_get : ∀ c, s.set (s.get c) c = c
  get_set : ∀ v c, s.get (s.set v c) = v
  enabled_set : ∀ v c, s.enabled (s.set v c) = s.enabled c

/-- Two sources for two fields, of which the second has no say in whether the first is asked for. -/
structure Apart (s t : Setting σ ω ε) : Prop where
  before : ∀ v c, s.get (t.set v c) = s.get c
  after : ∀ v c, t.get (s.set v c) = t.get c
  enabled : ∀ v c, s.enabled (t.set v c) = s.enabled c

structure Table (settings : List (Setting σ ω ε)) : Prop where
  lawful : ∀ s ∈ settings, s.Lawful
  apart : settings.Pairwise Apart

/-- The fields of `d` on top of `c`. -/
def onto (settings : List (Setting σ ω ε)) (d c : σ) : σ := settings.foldl (fun c s => s.set (s.get d) c) c

variable {settings : List (Setting σ ω ε)} {env : String → Option ω} {c d : σ}

theorem Table.tail {s : Setting σ ω ε} (h : Table (s :: settings)) : Table settings :=
  ⟨fun t ht => h.lawful t (List.mem_cons_of_mem s ht), (List.pairwise_cons.mp h.apart).2⟩

theorem onto_before {s : Setting σ ω ε} (h : ∀ t ∈ settings, Apart s t) (d c : σ) :
    s.get (onto settings d c) = s.get c ∧ s.enabled (onto settings d c) = s.enabled c := by
  induction settings generalizing c with
  | nil => exact ⟨rfl, rfl⟩
  | cons t settings ih =>
    have ht := h t List.mem_cons_self
    obtain ⟨hget, henabled⟩ := ih (fun u hu => h u (List.mem_cons_of_mem t hu)) (t.set (t.get d) c)
    exact ⟨hget.trans (ht.before _ _), henabled.trans (ht.enabled _ _)⟩

/-- A source overrides its field with a value exactly when it is what the field is to be. -/
theorem override_ok_iff {s : Setting σ ω ε} (h : s.Lawful) :
    s.override env c = .ok d ↔ s.Chosen (env s.name) (s.enabled c) (s.get c) (s.get d) ∧ d = s.set (s.get d) c := by
  unfold Setting.override Setting.Chosen
  cases henabled : s.enabled c with
  | false =>
    rw [if_neg Bool.false_ne_true]
    constructor
    · intro hd
      cases hd
      refine ⟨?_, (h.set_get c).symm⟩
      cases env s.name <;> rfl
    · rintro ⟨hget, hd⟩
      have hsame : s.get d = s.get c := by
        cases hsource : env s.name <;> simpa [hsource] using hget
      rw [hd, hsame, h.set_get]
  | true =>
    rw [if_pos rfl]
    cases env s.name with
    | none =>
      constructor
      · intro hd
        cases hd
        exact ⟨rfl, (h.set_get c).symm⟩
      · rintro ⟨hsame, hd⟩
        rw [hd, hsame, h.set_get]
    | some raw =>
      dsimp only
      rw [bind_eq_ok]
      constructor
      · rintro ⟨value, hread, hd⟩
        cases hd
        rw [h.get_set]
        exact ⟨hread, rfl⟩
      · rintro ⟨hread, hd⟩
        exact ⟨s.get d, hread, congrArg Except.ok hd.symm⟩

/-- Every field is what its own source says, and nothing else is changed. -/
theorem overrideAll_ok_iff (h : Table settings) :
    overrideAll settings env c = .ok d ↔
      (∀ s ∈ settings, s.Chosen (env s.name) (s.enabled d) (s.get c) (s.get d)) ∧ d = onto settings d c := by
  induction settings generalizing c with
  | nil =>
    constructor
    · intro hd
      cases hd
      exact ⟨List.forall_mem_nil _, rfl⟩
    · rintro ⟨-, hd⟩
      rw [hd]
      rfl
  | cons s settings ih =>
    have hs := h.lawful s List.mem_cons_self
    have hapart := (List.pairwise_cons.mp h.apart).1
    show (s.override env c >>= overrideAll settings env) = .ok d ↔ _
    rw [bind_eq_ok]
    constructor
    · rintro ⟨c', hc', hd⟩
      obtain ⟨hchosen, hset⟩ := (override_ok_iff hs).mp hc'
      obtain ⟨hrest, honto⟩ := (ih h.tail).mp hd
      obtain ⟨hget, henabled⟩ := onto_before hapart d c'
      rw [← honto] at hget henabled
      have henabled' : s.enabled c' = s.enabled c := by
        rw [hset]
        exact hs.enabled_set _ _
      rw [← hget] at hchosen hset
      rw [← henabled', ← henabled] at hchosen
      refine ⟨?_, ?_⟩
      · intro t ht
        rcases List.mem_cons.mp ht with rfl | ht
        · exact hchosen
        · have hkept := (hapart t ht).after (s.get d) c
          rw [← hset] at hkept
          rw [← hkept]
          exact hrest t ht
      · show d = onto settings d (s.set (s.get d) c)
        rw [← hset]
        exact honto
    · rintro ⟨hchosen, honto⟩
      have honto' : d = onto settings d (s.set (s.get d) c) := honto
      obtain ⟨-, henabled⟩ := onto_before hapart d (s.set (s.get d) c)
      rw [← honto', hs.enabled_set] at henabled
      refine ⟨s.set (s.get d) c, (override_ok_iff hs).mpr ?_, (ih h.tail).mpr ⟨?_, honto'⟩⟩
      · rw [hs.get_set, ← henabled]
        exact ⟨hchosen s List.mem_cons_self, rfl⟩
      · intro t ht
        rw [(hapart t ht).after]
        exact hchosen t (List.mem_cons_of_mem s ht)

/-- An error is one that a source has in the text it gives. -/
theorem overrideAll_error {e : ε} (h : overrideAll settings env c = .error e) :
    ∃ s ∈ settings, ∃ raw, env s.name = some raw ∧ s.read raw = .error e := by
  induction settings generalizing c with
  | nil => cases h
  | cons s settings ih =>
    have hstep : (s.override env c >>= overrideAll settings env) = .error e := h
    cases hs : s.override env c with
    | ok c' =>
      rw [hs] at hstep
      obtain ⟨t, ht, hread⟩ := ih hstep
      exact ⟨t, List.mem_cons_of_mem s ht, hread⟩
    | error e' =>
      rw [hs] at hstep
      cases hstep
      unfold Setting.override at hs
      split at hs
      · split at hs
        · cases hs
        · rename_i raw hraw
          cases hread : s.read raw with
          | error e' =>
            rw [hread] at hs
            cases hs
            exact ⟨s, List.mem_cons_self, raw, hraw, hread⟩
          | ok value =>
            rw [hread] at hs
            cases hs
      · cases hs

/-- Sources with different names can each be given what they need. -/
theorem exists_sources {P : Setting σ ω ε → Option ω → Prop} (hnames : (settings.map (·.name)).Nodup)
    (h : ∀ s ∈ settings, ∃ source, P s source) : ∃ env : String → Option ω, ∀ s ∈ settings, P s (env s.name) := by
  induction settings with
  | nil => exact ⟨fun _ => none, List.forall_mem_nil _⟩
  | cons s settings ih =>
    rw [List.map_cons, List.nodup_cons] at hnames
    obtain ⟨env, henv⟩ := ih hnames.2 (fun t ht => h t (List.mem_cons_of_mem s ht))
    obtain ⟨source, hsource⟩ := h s List.mem_cons_self
    refine ⟨Function.update env s.name source, ?_⟩
    intro t ht
    rcases List.mem_cons.mp ht with rfl | ht
    · rw [Function.update_self]
      exact hsource
    · have hne : t.name ≠ s.name := by
        intro heq
        exact hnames.1 (heq ▸ List.mem_map_of_mem ht)
      rw [Function.update_of_ne hne]
      exact henv t ht

/-- A field is as it was, or some text is read as what it is. -/
def Setting.Expressible (s : Setting σ ω ε) (c d : σ) : Prop :=
  s.get d = s.get c ∨ (s.enabled d = true ∧ ∃ raw, s.read raw = .ok (s.get d))

/-- Which records some sources lead to. -/
theorem exists_overrideAll_iff (h : Table settings) (hnames : (settings.map (·.name)).Nodup) :
    (∃ env, overrideAll settings env c = .ok d) ↔
      (∀ s ∈ settings, s.Expressible c d) ∧ d = onto settings d c := by
  constructor
  · rintro ⟨env, hd⟩
    obtain ⟨hchosen, honto⟩ := (overrideAll_ok_iff h).mp hd
    refine ⟨?_, honto⟩
    intro s hs
    have hsource := hchosen s hs
    unfold Setting.Chosen at hsource
    split at hsource
    · rename_i raw _ henabled
      exact .inr ⟨henabled, raw, hsource⟩
    · exact .inl hsource
  · rintro ⟨hexpressible, honto⟩
    have hsources : ∀ s ∈ settings, ∃ source, s.Chosen source (s.enabled d) (s.get c) (s.get d) := by
      intro s hs
      rcases hexpressible s hs with hsame | ⟨henabled, raw, hread⟩
      · exact ⟨none, hsame⟩
      · refine ⟨some raw, ?_⟩
        rw [henabled]
        exact hread
    obtain ⟨env, henv⟩ := exists_sources hnames hsources
    exact ⟨env, (overrideAll_ok_iff h).mpr ⟨henv, honto⟩⟩

end Overrides
