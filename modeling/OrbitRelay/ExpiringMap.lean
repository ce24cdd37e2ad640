import Mathlib.Data.List.AList
import Mathlib.Algebra.Order.Ring.Int

/-!
# A map whose values lapse

Values are put in under keys that are never used twice, and each is good until
its own time. They are taken out late: a sweep drops everything that has lapsed,
and a reader drops the one it finds. Neither can be told apart from a map that
forgets a value the moment it lapses.
-/
namespace ExpiringMap

variable {κ β : Type} [DecidableEq κ]

/-- `HashMap::retain`, on values. -/
def retain (p : β → Bool) (m : AList fun _ : κ => β) : AList fun _ : κ => β where
  entries := m.entries.filter fun e => p e.2
  nodupKeys := m.nodupKeys.sublist List.filter_sublist

theorem lookup_retain (p : β → Bool) (m : AList fun _ : κ => β) (k : κ) :
    (retain p m).lookup k = (m.lookup k).filter p := by
  apply Option.ext
  intro b
  rw [← Option.mem_def, AList.mem_lookup_iff, Option.filter_eq_some_iff, ← Option.mem_def,
    AList.mem_lookup_iff]
  exact List.mem_filter

omit [DecidableEq κ] in
theorem length_retain_le (p : β → Bool) (m : AList fun _ : κ => β) :
    (retain p m).entries.length ≤ m.entries.length :=
  List.length_filter_le _ _

theorem length_erase_le (k : κ) (m : AList fun _ : κ => β) :
    (m.erase k).entries.length ≤ m.entries.length :=
  (List.kerase_sublist k m.entries).length_le

/-- The map against all that was ever put in, seen at time `now`. -/
structure Tracks (expiry : β → Int) (now : Int) (put : List (κ × β)) (m : AList fun _ : κ => β) :
    Prop where
  known : ∀ k b, m.lookup k = some b → (k, b) ∈ put
  good : ∀ k b, (k, b) ∈ put → now < expiry b → m.lookup k = some b
  fresh : (put.map Prod.fst).Nodup

variable {expiry : β → Int} {now : Int} {put : List (κ × β)} {m : AList fun _ : κ => β}

theorem Tracks.start : Tracks expiry now [] (∅ : AList fun _ : κ => β) where
  known := fun k b h => by simp at h
  good := fun k b h => absurd h List.not_mem_nil
  fresh := List.nodup_nil

theorem Tracks.later (h : Tracks expiry now put m) {now' : Int} (hle : now ≤ now') :
    Tracks expiry now' put m where
  known := h.known
  good := fun k b hkb hb => h.good k b hkb (lt_of_le_of_lt hle hb)
  fresh := h.fresh

theorem Tracks.sweep (h : Tracks expiry now put m) :
    Tracks expiry now put (retain (fun b => expiry b > now) m) where
  known := by
    intro k b hkb
    rw [lookup_retain, Option.filter_eq_some_iff] at hkb
    exact h.known k b hkb.1
  good := by
    intro k b hkb hb
    rw [lookup_retain, h.good k b hkb hb, Option.filter_some, if_pos (decide_eq_true hb)]
  fresh := h.fresh

/-- Taking out one value that has lapsed. -/
theorem Tracks.lapse (h : Tracks expiry now put m) {k : κ} {b : β} (hk : m.lookup k = some b)
    (hb : expiry b ≤ now) : Tracks expiry now put (m.erase k) where
  known := by
    intro j c hj
    by_cases hjk : j = k
    · subst hjk
      rw [AList.lookup_erase] at hj
      cases hj
    · rw [AList.lookup_erase_ne hjk] at hj
      exact h.known j c hj
  good := by
    intro j c hj hc
    have hne : j ≠ k := by
      rintro rfl
      have heq : c = b := Option.some.inj ((h.good j c hj hc).symm.trans hk)
      rw [heq] at hc
      omega
    rw [AList.lookup_erase_ne hne]
    exact h.good j c hj hc
  fresh := h.fresh

theorem Tracks.insert (h : Tracks expiry now put m) {k : κ} (hk : k ∉ put.map Prod.fst) (b : β) :
    Tracks expiry now ((k, b) :: put) (m.insert k b) where
  known := by
    intro j c hj
    by_cases hjk : j = k
    · subst hjk
      rw [AList.lookup_insert] at hj
      cases hj
      exact List.mem_cons_self
    · rw [AList.lookup_insert_ne hjk] at hj
      exact List.mem_cons_of_mem _ (h.known j c hj)
  good := by
    intro j c hj hc
    rcases List.mem_cons.mp hj with heq | hold
    · cases heq
      exact AList.lookup_insert m
    · have hne : j ≠ k := by
        rintro rfl
        exact hk (List.mem_map_of_mem hold)
      rw [AList.lookup_insert_ne hne]
      exact h.good j c hold hc
  fresh := List.nodup_cons.mpr ⟨hk, h.fresh⟩

/-- A good value is found under its key and nowhere else. -/
theorem Tracks.lookup_iff (h : Tracks expiry now put m) {k : κ} {b : β} :
    m.lookup k = some b ∧ now < expiry b ↔ (k, b) ∈ put ∧ now < expiry b :=
  ⟨fun hk => ⟨h.known k b hk.1, hk.2⟩, fun hk => ⟨h.good k b hk.1 hk.2, hk.2⟩⟩

theorem Tracks.not_mem (h : Tracks expiry now put m) {k : κ} (hk : k ∉ put.map Prod.fst) : k ∉ m := by
  intro hmem
  obtain ⟨b, hb⟩ := Option.isSome_iff_exists.mp (AList.lookup_isSome.mpr hmem)
  exact hk (List.mem_map_of_mem (h.known k b hb))

theorem Tracks.length_insert (h : Tracks expiry now put m) {k : κ} (hk : k ∉ put.map Prod.fst) (b : β) :
    (m.insert k b).entries.length = m.entries.length + 1 := by
  rw [AList.entries_insert_of_notMem (h.not_mem hk), List.length_cons]

/-- After a sweep the map is as large as the number of good values. -/
theorem Tracks.size_sweep (h : Tracks expiry now put m) :
    (retain (fun b => expiry b > now) m).entries.length =
      (put.filter fun e => decide (now < expiry e.2)).length := by
  have hkeys : (retain (fun b => expiry b > now) m).keys.Perm
      ((put.filter fun e => decide (now < expiry e.2)).map Prod.fst) := by
    apply (List.perm_ext_iff_of_nodup (AList.keys_nodup _)
      (h.fresh.sublist (List.filter_sublist.map _))).mpr
    intro k
    rw [← AList.mem_keys, ← AList.lookup_isSome, Option.isSome_iff_exists, List.mem_map]
    constructor
    · rintro ⟨b, hb⟩
      rw [lookup_retain, Option.filter_eq_some_iff] at hb
      exact ⟨(k, b), List.mem_filter.mpr ⟨h.known k b hb.1, hb.2⟩, rfl⟩
    · rintro ⟨⟨j, b⟩, hb, rfl⟩
      obtain ⟨hmem, hlt⟩ := List.mem_filter.mp hb
      exact ⟨b, h.sweep.good j b hmem (of_decide_eq_true hlt)⟩
  have hlen := hkeys.length_eq
  rw [AList.keys, List.keys, List.length_map, List.length_map] at hlen
  exact hlen

end ExpiringMap
