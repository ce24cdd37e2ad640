import Mathlib.Data.List.Sort
import Mathlib.Data.List.MinMax
import Mathlib.Data.List.Pairwise
import Mathlib.Algebra.Order.Ring.Int

/-!
# Relational tables

A table is a list of rows under a uniqueness constraint, given as the relation
of two rows that may not stand in one table (equal primary keys, equal values in
a UNIQUE column). Inserting a row that clashes is refused, so a value of the
table type always satisfies its constraint. Queries read the list through
`find?`, `filter` and `orderBy`.
-/
namespace Relational

/-- What the SQL engine reports; only the first two mean "try again later". -/
inductive SqliteError where
  | busy | locked | constraint | full | other
  deriving DecidableEq, Repr

structure Table {Row : Type} (clash : Row → Row → Bool) where
  rows : List Row
  sound : rows.Pairwise (fun a b => clash a b = false)

variable {Row : Type} {clash : Row → Row → Bool}

def Table.empty : Table clash := ⟨[], .nil⟩

def Table.insert (t : Table clash) (r : Row) : Except SqliteError (Table clash) :=
  if h : ∀ a ∈ t.rows, clash a r = false then
    .ok ⟨t.rows ++ [r], by
      rw [List.pairwise_append]
      refine ⟨t.sound, List.pairwise_singleton _ _, ?_⟩
      intro a ha b hb
      rw [List.mem_singleton.mp hb]
      exact h a ha⟩
  else .error .constraint

theorem Table.insert_ok_iff {t u : Table clash} {r : Row} :
    t.insert r = .ok u ↔ (∀ a ∈ t.rows, clash a r = false) ∧ u.rows = t.rows ++ [r] := by
  unfold Table.insert
  constructor
  · intro h
    split at h
    · cases h
      exact ⟨by assumption, rfl⟩
    · cases h
  · rintro ⟨hc, hu⟩
    rw [dif_pos hc]
    cases u
    cases hu
    rfl

theorem Table.exists_insert {t : Table clash} {r : Row} (h : ∀ a ∈ t.rows, clash a r = false) :
    ∃ u, t.insert r = .ok u := by
  unfold Table.insert
  rw [dif_pos h]
  exact ⟨_, rfl⟩

section orderBy

variable {Key : Type} [LinearOrder Key] (key : Row → Key)

/-- `ORDER BY key ASC`. -/
def orderBy (rows : List Row) : List Row := rows.insertionSort (fun a b => key a ≤ key b)

@[simp] theorem mem_orderBy {rows : List Row} {r : Row} : r ∈ orderBy key rows ↔ r ∈ rows :=
  List.mem_insertionSort _

theorem orderBy_perm (rows : List Row) : (orderBy key rows).Perm rows :=
  List.perm_insertionSort _ rows

@[simp] theorem length_orderBy (rows : List Row) : (orderBy key rows).length = rows.length :=
  List.length_insertionSort _ rows

theorem orderBy_sorted (rows : List Row) :
    (orderBy key rows).Pairwise (fun a b => key a ≤ key b) := by
  have : Std.Total (fun a b : Row => key a ≤ key b) := ⟨fun a b => le_total (key a) (key b)⟩
  have : IsTrans Row (fun a b => key a ≤ key b) := ⟨fun _ _ _ => le_trans⟩
  exact List.pairwise_insertionSort _ rows

theorem orderedInsert_append_max (a r : Row) (rows : List Row) (h : key a ≤ key r) :
    (rows ++ [r]).orderedInsert (fun a b => key a ≤ key b) a =
      rows.orderedInsert (fun a b => key a ≤ key b) a ++ [r] := by
  induction rows with
  | nil => simp [h]
  | cons b rows ih =>
    simp only [List.cons_append, List.orderedInsert_cons]
    split
    · rfl
    · rw [ih, List.cons_append]

/-- A row whose key is not below any other is listed last. -/
theorem orderBy_append_max (rows : List Row) (r : Row) (h : ∀ a ∈ rows, key a ≤ key r) :
    orderBy key (rows ++ [r]) = orderBy key rows ++ [r] := by
  induction rows with
  | nil => rfl
  | cons a rows ih =>
    have hr := ih (fun b hb => h b (List.mem_cons_of_mem a hb))
    unfold orderBy at hr ⊢
    rw [List.cons_append, List.insertionSort_cons, List.insertionSort_cons, hr]
    exact orderedInsert_append_max key a r _ (h a List.mem_cons_self)

/-- Rows already listed in key order are left alone. -/
theorem orderBy_eq_self {rows : List Row} (h : rows.Pairwise (fun a b => key a ≤ key b)) :
    orderBy key rows = rows := List.Pairwise.insertionSort_eq h

/-- The one way to list rows whose keys are all different. -/
theorem orderBy_eq_of_perm {rows target : List Row} (h : rows.Perm target)
    (hs : target.Pairwise (fun a b => key a < key b)) : orderBy key rows = target := by
  have hsymm : Std.Symm (fun a b : Row => key a ≠ key b) := ⟨fun _ _ h => h.symm⟩
  have hkey : ∀ a ∈ target, ∀ b ∈ target, key a = key b → a = b := by
    intro a ha b hb he
    by_contra hne
    exact (hs.imp ne_of_lt).forall ha hb hne he
  have hinj : ∀ a b, a ∈ orderBy key rows → b ∈ target → key a ≤ key b → key b ≤ key a → a = b := by
    intro a b ha hb hab hba
    exact hkey a (h.mem_iff.mp ((mem_orderBy key).mp ha)) b hb (le_antisymm hab hba)
  exact List.Perm.eq_of_pairwise hinj (orderBy_sorted key rows) (hs.imp le_of_lt)
    ((orderBy_perm key rows).trans h)

end orderBy

/-- The row of a key, where keys are unique. -/
theorem find?_eq_some_of_mem {Key : Type} [DecidableEq Key] {key : Row → Key} {rows : List Row}
    (h : rows.Pairwise (fun a b => key a ≠ key b)) {r : Row} (hr : r ∈ rows) :
    rows.find? (fun a => key a = key r) = some r := by
  induction rows with
  | nil => cases hr
  | cons a rows ih =>
    rw [List.pairwise_cons] at h
    rcases List.mem_cons.mp hr with rfl | hr
    · simp
    · rw [List.find?_cons_of_neg (by simpa using h.1 r hr)]
      exact ih h.2 hr

end Relational
