import Mathlib

namespace Kryptik.Lib

open List

variable {α : Type} [DecidableEq α]

lemma getLast?_destutter' (a : α) (l : List α) : (l.destutter' (· ≠ ·) a).getLast? = (a :: l).getLast? := by
  induction l generalizing a with
  | nil => rfl
  | cons b l ih =>
    by_cases h : a = b
    · subst h
      rw [destutter'_cons_neg _ (by simp), ih, getLast?_cons_cons]
    · rw [destutter'_cons_pos _ h, getLast?_cons, ih]
      simp [getLast?_cons]

lemma getLast?_destutter (l : List α) : (l.destutter (· ≠ ·)).getLast? = l.getLast? := by
  cases l with
  | nil => rfl
  | cons a l => exact getLast?_destutter' a l

lemma destutter'_concat (a b : α) (l : List α) : (l ++ [b]).destutter' (· ≠ ·) a =
    if (a :: l).getLast? = some b then l.destutter' (· ≠ ·) a else l.destutter' (· ≠ ·) a ++ [b] := by
  induction l generalizing a with
  | nil =>
    by_cases h : a = b
    · simp [h]
    · simp [h]
  | cons c l ih =>
    rw [cons_append, getLast?_cons_cons]
    by_cases h : a = c
    · subst h
      rw [destutter'_cons_neg _ (by simp), destutter'_cons_neg _ (by simp), ih]
    · rw [destutter'_cons_pos _ h, destutter'_cons_pos _ h, ih]
      split <;> rfl

lemma destutter_concat (l : List α) (b : α) : (l ++ [b]).destutter (· ≠ ·) =
    if (l.destutter (· ≠ ·)).getLast? = some b then l.destutter (· ≠ ·) else l.destutter (· ≠ ·) ++ [b] := by
  rw [getLast?_destutter]
  cases l with
  | nil => simp
  | cons a l => exact destutter'_concat a b l

lemma mem_destutter' {a b : α} {l : List α} (h : b ∈ a :: l) : b ∈ l.destutter' (· ≠ ·) a := by
  induction l generalizing a with
  | nil => exact h
  | cons c l ih =>
    by_cases hac : a = c
    · subst hac
      rw [destutter'_cons_neg _ (by simp)]
      exact ih (by simpa using h)
    · rw [destutter'_cons_pos _ hac]
      obtain rfl | h := mem_cons.mp h
      · exact mem_cons_self
      · exact mem_cons_of_mem a (ih h)

lemma mem_destutter {b : α} {l : List α} (h : b ∈ l) : b ∈ l.destutter (· ≠ ·) := by
  cases l with
  | nil => exact h
  | cons a l => exact mem_destutter' h

end Kryptik.Lib
