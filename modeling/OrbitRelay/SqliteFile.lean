import OrbitRelay.Relational
import Mathlib.Logic.Function.Basic

/-!
# Database files

A file of tables and indexes, and the statements that are run on it outside a transaction.
A statement that the engine refuses has no effect; a batch keeps what ran before it stopped.
Names stand folded to lower case, as the engine compares them.
-/
namespace SqliteFile

open Relational (SqliteError)

inductive Cell where
  | null
  | integer (value : Int)
  | real (bits : UInt64)
  | text (value : String)
  | blob (bytes : List UInt8)
  deriving DecidableEq

abbrev Row := List Cell

/-- What the constraints say of a new row; OR IGNORE skips a row with a conflict. -/
inductive Verdict where
  | admitted | conflict | refused
  deriving DecidableEq

structure Column where
  name : String
  /-- The cell in which the column stores a text. -/
  stored : String → Cell
  /-- Whether a cell of the column is equal to a text. -/
  equals : Cell → String → Bool
  /-- The cell of a row that is inserted without a value for the column. -/
  default : List Row → Cell

/-- What a CREATE TABLE statement says. -/
structure Shape where
  columns : List Column
  judge : List Row → Row → Verdict

structure Table extends Shape where
  rows : List Row

inductive Object where
  | table (t : Table)
  | index (on : String) (columns : List String)

abbrev File := String → Option Object

/-- The file with an object put under a name. -/
def put (file : File) (name : String) (o : Object) : File := Function.update file name (some o)

def Shape.has (s : Shape) (name : String) : Bool := s.columns.any (fun c => c.name == name)

def Shape.position (s : Shape) (name : String) : Option Nat := s.columns.findIdx? (fun c => c.name == name)

/-- `SELECT result FROM t WHERE key = value`, its first row. -/
def Table.selectWhere (t : Table) (result key value : String) : Except SqliteError (Option Cell) :=
  match t.position result, t.position key, t.columns.find? (fun c => c.name == key) with
  | some i, some j, some c =>
    .ok ((t.rows.find? (fun row => c.equals (row.getD j .null) value)).map (fun row => row.getD i .null))
  | _, _, _ => .error .other

def Table.fullRow (t : Table) (values : List (String × String)) : Row :=
  t.columns.map (fun c => match values.lookup c.name with
    | some v => c.stored v
    | none => c.default t.rows)

/-- `INSERT INTO t`, or `INSERT OR IGNORE INTO t`. -/
def Table.insert (t : Table) (orIgnore : Bool) (values : List (String × String)) : Except SqliteError Table :=
  if values.all (fun v => t.has v.1) = true then
    match t.judge t.rows (t.fullRow values) with
    | .admitted => .ok { t with rows := t.rows ++ [t.fullRow values] }
    | .conflict => if orIgnore = true then .ok t else .error .constraint
    | .refused => .error .constraint
  else .error .other

theorem Table.insert_rows {t t' : Table} {orIgnore : Bool} {values : List (String × String)}
    (h : t.insert orIgnore values = .ok t') : t'.toShape = t.toShape ∧ t.rows <+: t'.rows := by
  unfold Table.insert at h
  split at h
  · split at h
    · cases h
      exact ⟨rfl, List.prefix_append _ _⟩
    · split at h
      · cases h
        exact ⟨rfl, List.prefix_rfl⟩
      · cases h
    · cases h
  · cases h

/-- A row that a query finds is found when rows were added behind it. -/
theorem Table.selectWhere_longer {t t' : Table} {result key value : String} {cell : Cell}
    (hshape : t'.toShape = t.toShape) (hrows : t.rows <+: t'.rows)
    (h : t.selectWhere result key value = .ok (some cell)) : t'.selectWhere result key value = .ok (some cell) := by
  obtain ⟨more, hmore⟩ := hrows
  unfold Table.selectWhere at h ⊢
  rw [hshape]
  split at h
  · simp only [Except.ok.injEq, Option.map_eq_some_iff] at h ⊢
    obtain ⟨row, hrow, hcell⟩ := h
    exact ⟨row, by rw [← hmore, List.find?_append, hrow]; rfl, hcell⟩
  · cases h

/-- A CREATE statement with IF NOT EXISTS. -/
inductive Statement where
  | createTable (name : String) (shape : Shape)
  | createIndex (name on : String) (columns : List String)

def Statement.name : Statement → String
  | .createTable name _ => name
  | .createIndex name _ _ => name

/-- What the statement creates. -/
def Statement.object : Statement → Object
  | .createTable _ shape => .table ⟨shape, []⟩
  | .createIndex _ on columns => .index on columns

theorem Statement.object_rows {s : Statement} {t : Table} (h : s.object = .table t) : t.rows = [] := by
  cases s with
  | createTable name shape =>
    cases h
    rfl
  | createIndex name on columns => cases h

def Statement.run (file : File) : Statement → Except SqliteError File
  | .createTable name shape =>
    match file name with
    | some (.table _) => .ok file
    | some (.index _ _) => .error .other
    | none => .ok (put file name (.table ⟨shape, []⟩))
  | .createIndex name on columns =>
    match file on with
    | some (.table t) =>
      match file name with
      | some (.index _ _) => .ok file
      | some (.table _) => .error .other
      | none => if columns.all t.has = true then .ok (put file name (.index on columns)) else .error .other
    | _ => .error .other

/-- `fault` gives the statements that the engine fails for a reason of its own. -/
def runBatch (fault : Statement → Option SqliteError) :
    List Statement → File → Except SqliteError Unit × File
  | [], file => (.ok (), file)
  | s :: rest, file =>
    match fault s, s.run file with
    | some e, _ => (.error e, file)
    | none, .error e => (.error e, file)
    | none, .ok after => runBatch fault rest after

theorem put_self (file : File) (name : String) (o : Object) : put file name o name = some o :=
  Function.update_self _ _ _

theorem put_of_ne {file : File} {name other : String} (h : other ≠ name) (o : Object) :
    put file name o other = file other := Function.update_of_ne h _ _

theorem put_eq_self {file : File} {name : String} {o : Object} (h : file name = some o) : put file name o = file := by
  unfold put
  rw [← h]
  exact Function.update_eq_self _ _

/-! ## What a batch adds -/

variable {file after later : File} {s : Statement} {fault : Statement → Option SqliteError}
  {statements : List Statement}

theorem Statement.run_cases (h : s.run file = .ok after) :
    ((file s.name).isSome = true ∧ after = file) ∨
    (file s.name = none ∧ after = put file s.name s.object) := by
  cases s with
  | createTable name shape =>
    cases hname : file name with
    | none =>
      simp only [Statement.run, hname, Except.ok.injEq] at h
      exact .inr ⟨hname, h.symm⟩
    | some o =>
      cases o with
      | table t =>
        simp only [Statement.run, hname, Except.ok.injEq] at h
        exact .inl ⟨by rw [Statement.name, hname]; rfl, h.symm⟩
      | index on columns => simp [Statement.run, hname] at h
  | createIndex name on columns =>
    simp only [Statement.run] at h
    split at h
    · cases hname : file name with
      | none =>
        simp only [hname] at h
        split at h
        · cases h
          exact .inr ⟨hname, rfl⟩
        · cases h
      | some o =>
        cases o with
        | index on' columns' =>
          simp only [hname, Except.ok.injEq] at h
          exact .inl ⟨by rw [Statement.name, hname]; rfl, h.symm⟩
        | table t => simp [hname] at h
    · cases h

/-- The file has what it had, and of what it lacked only objects that the statements create. -/
structure Completes (statements : List Statement) (file after : File) : Prop where
  kept : ∀ name o, file name = some o → after name = some o
  added : ∀ name o, file name = none → after name = some o →
    ∃ s ∈ statements, s.name = name ∧ s.object = o
  same : (∀ s ∈ statements, (file s.name).isSome = true) → after = file

theorem Completes.refl (statements : List Statement) (file : File) : Completes statements file file where
  kept := fun _ _ h => h
  added := fun name o hnone hsome => by
    rw [hnone] at hsome
    cases hsome
  same := fun _ => rfl

theorem Completes.cons (h : s.run file = .ok after) (hrest : Completes statements after later) :
    Completes (s :: statements) file later := by
  rcases Statement.run_cases h with ⟨hpresent, rfl⟩ | ⟨habsent, rfl⟩
  · refine ⟨hrest.kept, ?_, fun hall => hrest.same (fun x hx => hall x (List.mem_cons_of_mem s hx))⟩
    intro name o hnone hsome
    obtain ⟨x, hx, hcreates⟩ := hrest.added name o hnone hsome
    exact ⟨x, List.mem_cons_of_mem s hx, hcreates⟩
  · constructor
    · intro name o ho
      have hne : name ≠ s.name := by
        rintro rfl
        rw [habsent] at ho
        cases ho
      exact hrest.kept name o ((put_of_ne hne _).trans ho)
    · intro name o hnone hsome
      by_cases hname : name = s.name
      · subst hname
        have hcreated := hrest.kept s.name s.object (put_self file s.name s.object)
        rw [hsome] at hcreated
        exact ⟨s, List.mem_cons_self, rfl, (Option.some.inj hcreated).symm⟩
      · obtain ⟨x, hx, hcreates⟩ := hrest.added name o ((put_of_ne hname _).trans hnone) hsome
        exact ⟨x, List.mem_cons_of_mem s hx, hcreates⟩
    · intro hall
      have hpresent := hall s List.mem_cons_self
      rw [habsent] at hpresent
      cases hpresent

/-- A batch of CREATE statements completes the file, however far it comes. -/
theorem runBatch_completes (fault : Statement → Option SqliteError) (statements : List Statement) (file : File) :
    Completes statements file (runBatch fault statements file).2 := by
  induction statements generalizing file with
  | nil => exact .refl [] file
  | cons s rest ih =>
    rw [runBatch]
    cases hfault : fault s with
    | some e => exact .refl _ file
    | none =>
      cases hrun : s.run file with
      | error e => exact .refl _ file
      | ok after => exact .cons hrun (ih after)

end SqliteFile
