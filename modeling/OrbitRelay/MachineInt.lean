import Mathlib.Data.List.Basic
import Mathlib.Algebra.Order.Ring.Int

/-!
# Machine integers as checked numbers

Unsigned and signed 64-bit values are naturals and integers; the conversions and
additions that can fail are the checked ones, so a value that is out of range is
never built.
-/
namespace MachineInt

def i64Max : Nat := 2 ^ 63 - 1

def u64Max : Nat := 2 ^ 64 - 1

/-- `i64::try_from` on an unsigned value. -/
def toI64 (n : Nat) : Option Int := if n ≤ i64Max then some (n : Int) else none

/-- `u64::try_from` on a signed value. -/
def toU64 (z : Int) : Option Nat := if 0 ≤ z then some z.toNat else none

/-- `u64::checked_add`. -/
def checkedAddU64 (a b : Nat) : Option Nat := if a + b ≤ u64Max then some (a + b) else none

/-- `i64::checked_add` of two values that are not negative. -/
def checkedAddI64 (a b : Int) : Option Int := if a + b ≤ i64Max then some (a + b) else none

@[simp] theorem toU64_natCast (n : Nat) : toU64 n = some n := by simp [toU64]

theorem toI64_of_le {n : Nat} (h : n ≤ i64Max) : toI64 n = some (n : Int) := by simp [toI64, h]

theorem checkedAddU64_one {n : Nat} (h : n ≤ i64Max) : checkedAddU64 n 1 = some (n + 1) := by
  have : n + 1 ≤ u64Max := by unfold i64Max at h; unfold u64Max; omega
  simp [checkedAddU64, this]

theorem checkedAddI64_one {n : Nat} (h : n < i64Max) :
    checkedAddI64 (n : Int) 1 = some ((n + 1 : Nat) : Int) := by
  have : (n : Int) + 1 ≤ i64Max := by omega
  simp [checkedAddI64, this]

theorem toU64_eq_some {z : Int} {n : Nat} (h : toU64 z = some n) : z = n := by
  unfold toU64 at h
  split at h
  · simp only [Option.some.injEq] at h
    omega
  · cases h

/-- Decimal digits, most significant first. -/
def decimal (digits : List Char) : Option Nat :=
  if digits ≠ [] ∧ digits.all Char.isDigit then
    some (digits.foldl (fun n c => 10 * n + (c.toNat - '0'.toNat)) 0)
  else none

theorem exists_decimal {s : List Char} : (∃ n, decimal s = some n) ↔ s ≠ [] ∧ ∀ c ∈ s, c.isDigit = true := by
  unfold decimal
  constructor
  · rintro ⟨n, h⟩
    split at h
    · rename_i hdigits
      exact ⟨hdigits.1, List.all_eq_true.mp hdigits.2⟩
    · cases h
  · intro h
    exact ⟨_, if_pos ⟨h.1, List.all_eq_true.mpr h.2⟩⟩

theorem decimal_not_mem {s : List Char} {n : Nat} (h : decimal s = some n) {c : Char} (hc : c.isDigit = false) :
    c ∉ s := by
  intro hmem
  rw [(exists_decimal.mp ⟨n, h⟩).2 c hmem] at hc
  cases hc

/-- A printed number is read back. -/
theorem decimal_toString (n : Nat) : decimal (toString n).toList = some n := by
  rw [Nat.toString_eq_repr, Nat.toList_repr]
  have hdigits : (Nat.toDigits 10 n).all Char.isDigit = true :=
    List.all_eq_true.mpr fun c hc => Nat.isDigit_of_mem_toDigits (by decide) (by decide) hc
  rw [decimal, if_pos ⟨Nat.toDigits_ne_nil, hdigits⟩]
  have hvalue : Nat.ofDigitChars 10 (Nat.toDigits 10 n) 0 = n := Nat.ofDigitChars_ten_toDigits
  rw [Nat.ofDigitChars_eq_foldl] at hvalue
  exact congrArg some hvalue

/-- `str::parse::<u64>`: an optional plus sign and decimal digits in range. -/
def parseU64 : List Char → Option Nat
  | '+' :: digits => (decimal digits).bind fun n => if n ≤ u64Max then some n else none
  | digits => (decimal digits).bind fun n => if n ≤ u64Max then some n else none

/-- `str::parse::<i64>`: an optional sign and decimal digits in range. -/
def parseI64 (s : String) : Option Int :=
  match s.toList with
  | '-' :: digits => (decimal digits).bind fun n => if n ≤ i64Max + 1 then some (-(n : Int)) else none
  | '+' :: digits => (decimal digits).bind toI64
  | digits => (decimal digits).bind toI64

end MachineInt
