import Mathlib.Data.BitVec
import Mathlib.Data.Nat.ModEq

/-!
# `RegistrationCenter.Lib.Bits`: shifts that can be undone, and numbers with the same digits

A word and a shift of itself, taken together bit by bit, leave the word to be had back: the bits
at one end are as they were, and each bit is found from one that is already known. So a generator
that is made of such steps forgets nothing.

Two numbers agree in their low digits exactly when they have the same remainder.
-/

set_option autoImplicit false

namespace RegistrationCenter.Lib

variable {w k : Nat}

theorem xor_shiftLeft_injective (hk : 0 < k) :
    Function.Injective fun x : BitVec w => x ^^^ x <<< k := by
  intro x y hxy
  -- The bits are found from the low end on.
  have hbit : ∀ i, x.getLsbD i = y.getLsbD i := by
    intro i
    induction i using Nat.strong_induction_on with
    | _ i ih =>
        by_cases hi : i < w
        · have heq := congrArg (fun z => z.getLsbD i) hxy
          simp only [BitVec.getLsbD_xor, BitVec.getLsbD_shiftLeft] at heq
          by_cases hik : i < k
          · simpa [hik] using heq
          · rw [ih (i - k) (by omega)] at heq
            simpa using heq
        · rw [BitVec.getLsbD_of_ge x i (by omega), BitVec.getLsbD_of_ge y i (by omega)]
  exact BitVec.eq_of_getLsbD_eq fun i _ => hbit i

theorem xor_ushiftRight_injective (hk : 0 < k) :
    Function.Injective fun x : BitVec w => x ^^^ x >>> k := by
  intro x y hxy
  -- The bits are found from the high end on.
  have hbit : ∀ n i, w - i ≤ n → x.getLsbD i = y.getLsbD i := by
    intro n
    induction n with
    | zero =>
        intro i hi
        rw [BitVec.getLsbD_of_ge x i (by omega), BitVec.getLsbD_of_ge y i (by omega)]
    | succ n ih =>
        intro i hi
        have heq := congrArg (fun z => z.getLsbD i) hxy
        simp only [BitVec.getLsbD_xor, BitVec.getLsbD_ushiftRight] at heq
        rw [ih (k + i) (by omega)] at heq
        simpa using heq
  exact BitVec.eq_of_getLsbD_eq fun i _ => hbit w i (Nat.sub_le w i)

/-- A remainder by a product is one by the first factor, and one of the quotient by the second. -/
theorem mod_mul_eq_iff (a b m n : Nat) :
    m % (a * b) = n % (a * b) ↔ m % a = n % a ∧ m / a % b = n / a % b := by
  constructor
  · intro h
    constructor
    · rw [← Nat.mod_mul_right_mod m a b, h, Nat.mod_mul_right_mod]
    · rw [← Nat.mod_mul_right_div_self, h, Nat.mod_mul_right_div_self]
  · rintro ⟨hlow, hhigh⟩
    rw [Nat.mod_mul, hlow, hhigh, ← Nat.mod_mul]

/-- The same low digits are the same remainder. -/
theorem mod_pow_eq_iff (b m n : Nat) :
    ∀ k, m % b ^ k = n % b ^ k ↔ ∀ i < k, m / b ^ i % b = n / b ^ i % b := by
  intro k
  induction k with
  | zero => simp [Nat.mod_one]
  | succ k ih => rw [Nat.forall_lt_succ_right, ← ih, Nat.pow_succ, mod_mul_eq_iff]

end RegistrationCenter.Lib
