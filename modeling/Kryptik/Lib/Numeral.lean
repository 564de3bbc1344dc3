import Mathlib

namespace Kryptik.Lib

open List

variable {α : Type} (b : ℕ) (v : α → ℕ)

/-- The number a list of digits writes in base `b`, the first digit the most significant. -/
def numeral (l : List α) : ℕ := l.foldl (fun n a => n * b + v a) 0

lemma foldl_numeral (l : List α) (n : ℕ) : l.foldl (fun n a => n * b + v a) n = n * b ^ l.length + numeral b v l := by
  induction l generalizing n with
  | nil => simp [numeral]
  | cons a l ih =>
    simp only [numeral, foldl_cons, length_cons, Nat.zero_mul, Nat.zero_add]
    rw [ih (n * b + v a), ih (v a)]
    ring

lemma numeral_cons (a : α) (l : List α) : numeral b v (a :: l) = v a * b ^ l.length + numeral b v l := by
  rw [← foldl_numeral]
  simp [numeral]

variable {b v}

lemma numeral_eq_zero {l : List α} (hb : 0 < b) : numeral b v l = 0 ↔ ∀ a ∈ l, v a = 0 := by
  induction l with
  | nil => simp [numeral]
  | cons a l ih =>
    have hpow : b ^ l.length ≠ 0 := (Nat.pow_pos hb).ne'
    rw [numeral_cons, Nat.add_eq_zero_iff, ih, Nat.mul_eq_zero, or_iff_left hpow, forall_mem_cons]

variable [Ord α]

end Kryptik.Lib
