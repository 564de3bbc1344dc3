import Kryptik.Kryptikd.Release
import Kryptik.Lib.Numeral

namespace Kryptik.Kryptikd.Update

open Lib Lib.Text List

def isLetterByte (c : UInt8) : Bool := (65 ≤ c && c ≤ 90) || (97 ≤ c && c ≤ 122)

def isAlnumByte (c : UInt8) : Bool := isDigitByte c || isLetterByte c

def digitValue (c : UInt8) : ℕ := c.toNat - 48

def runValue (l : List UInt8) : ℕ := numeral 10 digitValue (l.takeWhile isDigitByte)

/-- File suffixes up to the end, `(\.[A-Za-z~][A-Za-z0-9~]*)*$`. -/
def isSuffixes : List UInt8 → Bool
  | [] => true
  | [_] => false
  | d :: c :: l => d == 46 && (isLetterByte c || c == 126) &&
      isSuffixes (l.dropWhile (fun c => isAlnumByte c || c == 126))
termination_by l => l.length
decreasing_by
  have := (List.dropWhile_suffix (fun c => isAlnumByte c || c == 126) (l := l)).length_le
  simp only [length_cons]
  omega

/-- The text without as many file suffixes as end it; its first byte stays. -/
def cutSuffixes : List UInt8 → List UInt8
  | [] => []
  | c :: l => if isSuffixes l then [c] else c :: cutSuffixes l

lemma then_of_ne {o : Ordering} (h : o ≠ .eq) (p : Ordering) : o.then p = o := by
  cases o with
  | eq => exact absurd rfl h
  | _ => rfl

section
variable {a b : List UInt8} {c d : UInt8}

lemma isDigitByte_iff : isDigitByte c = true ↔ 48 ≤ c.toNat ∧ c.toNat ≤ 57 := by
  simp [isDigitByte, UInt8.le_iff_toNat_le]

lemma compare_toNat (c d : UInt8) : compare c d = compare c.toNat d.toNat := by
  change compareOfLessAndEq c d = compareOfLessAndEq c.toNat d.toNat
  simp [compareOfLessAndEq, UInt8.lt_iff_toNat_lt, UInt8.toNat_inj]

end

/-- What is left of two versions where they first differ: past equal bytes and past digit runs of one
value. -/
def parting : List UInt8 → List UInt8 → List UInt8 × List UInt8
  | [], b => ([], b)
  | a, [] => (a, [])
  | a :: as, b :: bs =>
    if isDigitByte a && isDigitByte b then
      if runValue (a :: as) = runValue (b :: bs) then
        parting (as.dropWhile isDigitByte) (bs.dropWhile isDigitByte)
      else (a :: as, b :: bs)
    else if a = b then parting as bs
    else (a :: as, b :: bs)
termination_by a => a.length
decreasing_by
  · exact Nat.lt_succ_of_le (List.dropWhile_suffix isDigitByte).length_le
  · simp

def Parted : List UInt8 → List UInt8 → Prop
  | c :: a, d :: b =>
    if isDigitByte c && isDigitByte d then runValue (c :: a) ≠ runValue (d :: b) else c ≠ d
  | _, _ => True

lemma not_both_digits {c d : UInt8} (h : ¬ (isDigitByte c = true ∧ isDigitByte d = true)) :
    (isDigitByte c && isDigitByte d) = false := by
  rwa [← Bool.not_eq_true, Bool.and_eq_true]

lemma Parted.cons {a b : List UInt8} {c d : UInt8} (h : Parted (c :: a) (d :: b)) :
    isDigitByte c = true ∧ isDigitByte d = true ∧ compare (runValue (c :: a)) (runValue (d :: b)) ≠ .eq ∨
      ¬ (isDigitByte c = true ∧ isDigitByte d = true) ∧ c ≠ d := by
  by_cases hdigits : isDigitByte c = true ∧ isDigitByte d = true
  · have hne : runValue (c :: a) ≠ runValue (d :: b) := by simpa [Parted, hdigits] using h
    exact .inl ⟨hdigits.1, hdigits.2, fun heq => hne (Nat.compare_eq_eq.mp heq)⟩
  · exact .inr ⟨hdigits, by simpa [Parted, not_both_digits hdigits] using h⟩

section
variable {a b s t : List UInt8} {c d : UInt8}

end

def isMarkByte (c : UInt8) : Bool := c == 43 || c == 45 || c == 46

/-- Two versions part here in one and the same way for both orders. -/
def partsAlike : List UInt8 → List UInt8 → Bool
  | [], b => (b.dropWhile (· == 48)).head? != some 126
  | a, [] => (a.dropWhile (· == 48)).head?.any (· != 126)
  | a :: _, b :: _ => (isAlnumByte a && isAlnumByte b) || (isMarkByte a && isMarkByte b)

/-- Where two versions part, the first ends or has the smaller number or byte. -/
def before : List UInt8 → List UInt8 → Bool
  | [], _ => true
  | _, [] => false
  | a :: as, b :: bs =>
    if isDigitByte a && isDigitByte b then runValue (a :: as) ≤ runValue (b :: bs) else a ≤ b

section
variable {a b s t : List UInt8} {c d : UInt8}

end

/-- Both orders put the same of two versions first, or neither. Where they part within both, their bytes there must be
of one kind. Where one of them has ended but for its file suffixes, `sort -V` puts it first, unless the other goes
on with `~`, and so must what they first differ in with their suffixes. -/
def alike (a b : List UInt8) : Bool :=
  let (u, v) := parting a b
  match parting (cutSuffixes a) (cutSuffixes b) with
  | ([], y) => match (y.dropWhile (· == 48)).head? with
    | none => partsAlike u v
    | some e => before u v == (e != 126)
  | (x, []) => match (x.dropWhile (· == 48)).head? with
    | none => partsAlike u v
    | some e => before u v == (e == 126)
  | (x, y) => partsAlike x y

def Alike (a b : String) : Prop := alike a.toUTF8.data.toList b.toUTF8.data.toList = true

/-- A digit run without its leading zeros, or a byte that is no digit. -/
inductive Token
  | run (digits : List UInt8)
  | byte (c : UInt8)
  deriving DecidableEq

def tokens : List UInt8 → List Token
  | [] => []
  | c :: l =>
    if isDigitByte c then
      .run (((c :: l).takeWhile isDigitByte).dropWhile (· == 48)) :: tokens (l.dropWhile isDigitByte)
    else .byte c :: tokens l
termination_by l => l.length
decreasing_by
  · exact Nat.lt_succ_of_le (List.dropWhile_suffix isDigitByte).length_le
  · simp

namespace Token

/-- The runs have a place of their own among the bytes. -/
def rank : Token → ℕ
  | run _ => 48
  | byte c => if c.toNat < 48 then c.toNat else c.toNat + 1

def digits : Token → List UInt8
  | run l => l
  | byte _ => []

def order : Token → Token → Ordering :=
  compareLex (compareOn rank) (compareLex (compareOn fun t => t.digits.length) (compareOn digits))

instance : Std.TransCmp order := inferInstanceAs (Std.TransCmp (compareLex _ _))

lemma eq_of_order {t u : Token} (h : order t u = .eq) : t = u := by
  rw [order, compareLex_eq_eq, compareLex_eq_eq] at h
  have hrank : t.rank = u.rank := Std.LawfulEqCmp.eq_of_compare h.1
  have hdigits : t.digits = u.digits := Std.LawfulEqCmp.eq_of_compare h.2.2
  cases t with
  | run l =>
    cases u with
    | run m => exact congrArg run hdigits
    | byte d =>
      simp only [rank] at hrank
      split at hrank <;> omega
  | byte c =>
    cases u with
    | run m =>
      simp only [rank] at hrank
      split at hrank <;> omega
    | byte d =>
      refine congrArg byte (UInt8.toNat_inj.mp ?_)
      simp only [rank] at hrank
      split at hrank <;> split at hrank <;> omega

instance : Std.LawfulEqCmp order where
  eq_of_compare := eq_of_order
  compare_self := Std.ReflCmp.compare_self

end Token

lemma order_runs (x y : List UInt8) :
    Token.order (.run (x.dropWhile (· == 48))) (.run (y.dropWhile (· == 48))) = compareRuns x y := by
  simp [Token.order, compareLex, compareOn, Token.rank, Token.digits, compareRuns]

/-- Where two versions part at a byte that is no digit, their tokens do so too. -/
lemma order_apart {c d : UInt8} {t u : Token} (ht : t.rank = if isDigitByte c then 48 else (Token.byte c).rank)
    (hu : u.rank = if isDigitByte d then 48 else (Token.byte d).rank)
    (h : ¬ (isDigitByte c = true ∧ isDigitByte d = true)) (hcd : c ≠ d) : Token.order t u = compare c d := by
  have hne : c.toNat ≠ d.toNat := fun h => hcd (UInt8.toNat_inj.mp h)
  have hrank : compare t.rank u.rank = compare c d := by
    rw [compare_toNat, Nat.compare_eq_ite_lt, Nat.compare_eq_ite_lt, ht, hu]
    simp only [Token.rank, isDigitByte_iff] at h ⊢
    split_ifs <;> first | rfl | omega
  have hapart : compare c d ≠ .eq := by rwa [compare_toNat, ne_eq, Nat.compare_eq_eq]
  rw [Token.order, compareLex, compareOn, hrank, then_of_ne hapart]

lemma rank_tokens (c : UInt8) (l : List UInt8) : ∃ t ts, tokens (c :: l) = t :: ts ∧
    t.rank = if isDigitByte c then 48 else (Token.byte c).rank := by
  rw [tokens]
  split
  · exact ⟨_, _, rfl, rfl⟩
  · exact ⟨_, _, rfl, rfl⟩

lemma compareVersions_tokens (a b : List UInt8) :
    compareVersions a b = List.compareLex Token.order (tokens a) (tokens b) := by
  fun_induction compareVersions a b with
  | case1 b =>
    cases b with
    | nil => rw [tokens, List.compareLex_nil_nil]; rfl
    | cons c l =>
      obtain ⟨t, ts, hts, -⟩ := rank_tokens c l
      rw [hts, tokens]
      exact Nat.compare_eq_lt.mpr (Nat.succ_pos _)
  | case2 a hne =>
    cases a with
    | nil => exact absurd rfl hne
    | cons c l =>
      obtain ⟨t, ts, hts, -⟩ := rank_tokens c l
      rw [hts, tokens]
      exact Nat.compare_eq_gt.mpr (Nat.succ_pos _)
  | case3 a as b bs hdigits hvalue ih =>
    rw [Bool.and_eq_true] at hdigits
    rw [tokens, tokens, if_pos hdigits.1, if_pos hdigits.2, List.compareLex_cons_cons, order_runs, hvalue, ih]
    rfl
  | case4 a as b bs hdigits hvalue =>
    rw [Bool.and_eq_true] at hdigits
    rw [tokens, tokens, if_pos hdigits.1, if_pos hdigits.2, List.compareLex_cons_cons]
    exact (then_of_ne hvalue _).symm
  | case5 a as b bs hdigits hsame ih =>
    obtain rfl : a = b := Std.LawfulEqCmp.eq_of_compare hsame
    have ha : ¬ isDigitByte a = true := by simpa using hdigits
    have hself : Token.order (.byte a) (.byte a) = .eq := Std.ReflCmp.compare_self
    rw [tokens, tokens, if_neg ha, if_neg ha, List.compareLex_cons_cons, hself, ih]
    rfl
  | case6 a as b bs hdigits hne =>
    obtain ⟨t, ts, hts, ht⟩ := rank_tokens a as
    obtain ⟨u, us, hus, hu⟩ := rank_tokens b bs
    have hab : a ≠ b := fun h => hne (h ▸ Std.ReflCmp.compare_self)
    rw [hts, hus, List.compareLex_cons_cons, order_apart ht hu (by simpa using hdigits) hab]
    exact (then_of_ne hne _).symm

/-- `version_cmp` is a total preorder, and two versions are equal in it if they have the same tokens. -/
theorem compareVersions_preorder (a b c : List UInt8) : compareVersions b a = (compareVersions a b).swap ∧
      ((compareVersions a b).isLE → (compareVersions b c).isLE → (compareVersions a c).isLE) ∧
      (compareVersions a b = .eq ↔ tokens a = tokens b) := by
  simp only [compareVersions_tokens]
  exact ⟨Std.OrientedCmp.eq_swap, Std.TransCmp.isLE_trans, Std.LawfulEqCmp.compare_eq_iff_eq⟩

end Kryptik.Kryptikd.Update
