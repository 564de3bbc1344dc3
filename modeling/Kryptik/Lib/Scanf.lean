import Mathlib

namespace Kryptik.Lib.Scanf

def isSpace (c : UInt8) : Bool := c == 32 || (9 ≤ c && c ≤ 13)

def isDigit (c : UInt8) : Bool := 48 ≤ c && c ≤ 57

/-- A conversion `%Ns`: what it stores and what it leaves. -/
def scanWord (width : ℕ) (s : List UInt8) : Option (List UInt8 × List UInt8) :=
  let s := s.dropWhile isSpace
  let word := (s.takeWhile (fun c => !isSpace c)).take width
  if word = [] then none else some (word, s.drop word.length)

def decimal (s : List UInt8) : ℕ := s.foldl (fun n c => 10 * n + (c.toNat - 48)) 0

/-- A conversion `%llu` or `%zu` to a type of `limit` values: a number out of range is the largest. -/
def scanUnsigned (limit : ℕ) (s : List UInt8) : Option (ℕ × List UInt8) :=
  let s := s.dropWhile isSpace
  let minus := s.head? == some 45
  let s := if s.head? == some 43 || minus then s.tail else s
  let ds := s.takeWhile isDigit
  let n := decimal ds
  if ds = [] then none
  else some (if limit ≤ n then limit - 1 else if minus then (limit - n) % limit else n, s.drop ds.length)

variable {limit width : ℕ} {ds rest w : List UInt8}

lemma not_isSpace_of_isDigit {c : UInt8} (h : isDigit c = true) : isSpace c = false ∧ c ≠ 43 ∧ c ≠ 45 := by
  simp only [isDigit, Bool.and_eq_true, decide_eq_true_eq, UInt8.le_iff_toNat_le] at h
  have h48 : (48 : UInt8).toNat = 48 := rfl
  have hne : ∀ b : UInt8, b.toNat < 48 → c ≠ b := by
    rintro b hb rfl
    omega
  refine ⟨?_, hne 43 (by decide), hne 45 (by decide)⟩
  simp only [isSpace, Bool.or_eq_false_iff, beq_eq_false_iff_ne, Bool.and_eq_false_iff, decide_eq_false_iff_not,
    UInt8.le_iff_toNat_le]
  have h13 : (13 : UInt8).toNat = 13 := rfl
  exact ⟨hne 32 (by decide), Or.inr (by omega)⟩

@[simp] lemma scanUnsigned_space (s : List UInt8) : scanUnsigned limit (32 :: s) = scanUnsigned limit s := rfl

@[simp] lemma scanWord_space (s : List UInt8) : scanWord width (32 :: s) = scanWord width s := rfl

@[simp] lemma scanUnsigned_nil : scanUnsigned limit [] = none := rfl

@[simp] lemma scanWord_nil : scanWord width [] = none := by simp [scanWord]

lemma takeWhile_append_of_all {p : UInt8 → Bool} (hall : ∀ c ∈ w, p c = true)
    (hrest : ∀ c, rest.head? = some c → p c = false) : (w ++ rest).takeWhile p = w := by
  rw [List.takeWhile_append_of_pos hall]
  cases rest with
  | nil => simp
  | cons c rest => simp [hrest c rfl]

lemma scanUnsigned_digits (hds : ∀ c ∈ ds, isDigit c = true) (hne : ds ≠ [])
    (hrest : ∀ c, rest.head? = some c → isDigit c = false) :
    scanUnsigned limit (ds ++ rest) = some (if limit ≤ decimal ds then limit - 1 else decimal ds, rest) := by
  have htake := takeWhile_append_of_all hds hrest
  cases ds with
  | nil => exact absurd rfl hne
  | cons d ds =>
    obtain ⟨hspace, hplus, hminus⟩ := not_isSpace_of_isDigit (hds d (by simp))
    have hdrop : (d :: ds ++ rest).dropWhile isSpace = d :: ds ++ rest := by simp [hspace]
    have hhead : ((d :: ds ++ rest).head? == some 43) = false ∧ ((d :: ds ++ rest).head? == some 45) = false := by
      simp [hplus, hminus]
    simp only [scanUnsigned, hdrop, hhead.1, hhead.2, Bool.or_self, Bool.false_eq_true, if_false, htake]
    simp

lemma scanWord_word (hw : ∀ c ∈ w, isSpace c = false) (hne : w ≠ []) (hwidth : w.length ≤ width)
    (hrest : ∀ c, rest.head? = some c → isSpace c = true) : scanWord width (w ++ rest) = some (w, rest) := by
  have hdrop : (w ++ rest).dropWhile isSpace = w ++ rest := by
    cases w with
    | nil => exact absurd rfl hne
    | cons c w => simp [hw c (by simp)]
  have htake : (w ++ rest).takeWhile (fun c => !isSpace c) = w := by
    apply takeWhile_append_of_all
    · intro c hc
      simp [hw c hc]
    · intro c hc
      simp [hrest c hc]
  simp only [scanWord, hdrop, htake, List.take_of_length_le hwidth, if_neg hne]
  simp

lemma scanUnsigned_all (limit : ℕ) (hds : ∀ c ∈ ds, isDigit c = true) (hne : ds ≠ []) :
    scanUnsigned limit ds = some (if limit ≤ decimal ds then limit - 1 else decimal ds, []) := by
  simpa using scanUnsigned_digits hds hne (by simp : ∀ c, ([] : List UInt8).head? = some c → isDigit c = false)

lemma scanWord_all (hw : ∀ c ∈ w, isSpace c = false) (hne : w ≠ []) (hwidth : w.length ≤ width) :
    scanWord width w = some (w, []) := by
  simpa using scanWord_word hw hne hwidth (by simp : ∀ c, ([] : List UInt8).head? = some c → isSpace c = true)

end Kryptik.Lib.Scanf
