import Mathlib.Algebra.Order.Ring.Int
import Mathlib.Data.List.Basic

/-!
# Numbers as bits

A number in a fixed width, most significant bit first, and texts of such numbers.
-/
namespace BitString

/-- The lowest `width` bits. -/
def bits : Nat → Nat → List Bool
  | 0, _ => []
  | width + 1, n => bits width (n / 2) ++ [decide (n % 2 = 1)]

@[simp] theorem bits_length (width n : Nat) : (bits width n).length = width := by
  induction width generalizing n with
  | zero => rfl
  | succ width ih => rw [bits, List.length_append, ih, List.length_singleton]

/-- A number splits into its upper and its lower bits. -/
theorem bits_add (u v n : Nat) : bits (u + v) n = bits u (n / 2 ^ v) ++ bits v n := by
  induction v generalizing n with
  | zero => rw [Nat.add_zero, Nat.pow_zero, Nat.div_one, bits, List.append_nil]
  | succ v ih =>
    have hdiv : n / 2 / 2 ^ v = n / 2 ^ (v + 1) := by rw [Nat.div_div_eq_div_mul, Nat.pow_succ']
    rw [← Nat.add_assoc, bits, ih, hdiv, bits, List.append_assoc]

/-- Only the remainder counts. -/
theorem bits_inj {width n m : Nat} : bits width n = bits width m ↔ n % 2 ^ width = m % 2 ^ width := by
  induction width generalizing n m with
  | zero => simp [bits, Nat.mod_one]
  | succ width ih =>
    have hsplit : ∀ k, k % 2 ^ (width + 1) = 2 * (k / 2 % 2 ^ width) + k % 2 := by
      intro k
      rw [Nat.pow_succ', Nat.mod_mul]
      omega
    rw [bits, bits, hsplit, hsplit]
    constructor
    · intro h
      obtain ⟨hupper, hlast⟩ := List.append_inj' h rfl
      have hupper' := ih.mp hupper
      have hlast' := decide_eq_decide.mp (List.singleton_inj.mp hlast)
      omega
    · intro h
      have hupper : n / 2 % 2 ^ width = m / 2 % 2 ^ width := by omega
      have hlast : n % 2 = m % 2 := by omega
      rw [ih.mpr hupper, hlast]

theorem length_flatMap_bits (width : Nat) (ns : List Nat) : (ns.flatMap (bits width)).length = width * ns.length := by
  induction ns with
  | nil => rfl
  | cons n ns ih =>
    rw [List.flatMap_cons, List.length_append, bits_length, ih, List.length_cons, Nat.mul_succ, Nat.add_comm]

/-- Numbers within the width are known from their bits. -/
theorem flatMap_bits_inj {width : Nat} (hwidth : 0 < width) {ns ms : List Nat} (hns : ∀ n ∈ ns, n < 2 ^ width)
    (hms : ∀ m ∈ ms, m < 2 ^ width) (h : ns.flatMap (bits width) = ms.flatMap (bits width)) : ns = ms := by
  have hlength := congrArg List.length h
  rw [length_flatMap_bits, length_flatMap_bits] at hlength
  have hsame := Nat.eq_of_mul_eq_mul_left hwidth hlength
  induction ns generalizing ms with
  | nil => exact (List.eq_nil_of_length_eq_zero hsame.symm).symm
  | cons n ns ih =>
    cases ms with
    | nil => cases hsame
    | cons m ms =>
      rw [List.flatMap_cons, List.flatMap_cons] at h
      obtain ⟨hhead, htail⟩ := List.append_inj h (by rw [bits_length, bits_length])
      have hn := hns n List.mem_cons_self
      have hm := hms m List.mem_cons_self
      have heq := bits_inj.mp hhead
      rw [Nat.mod_eq_of_lt hn, Nat.mod_eq_of_lt hm] at heq
      have hrest : ns.length = ms.length := Nat.succ.inj hsame
      rw [heq, ih (fun x hx => hns x (List.mem_cons_of_mem n hx)) (fun x hx => hms x (List.mem_cons_of_mem m hx))
        htail (by rw [hrest]) hrest]

end BitString
