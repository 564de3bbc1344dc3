import Mathlib

namespace Kryptik.Lib.Text

open List Option

instance lawfulBEq_chars : LawfulBEq (List Char) := inferInstance

instance lawfulBEq_strings : LawfulBEq (String × String) := inferInstance

variable {c sep : Char} {cs a m b : List Char} {p : Char → Bool}

def isWhitespace (c : Char) : Bool :=
  let n := c.toNat
  (0x09 ≤ n && n ≤ 0x0d) || n == 0x20 || n == 0x85 || n == 0xa0 || n == 0x1680 ||
    (0x2000 ≤ n && n ≤ 0x200a) || n == 0x2028 || n == 0x2029 || n == 0x202f || n == 0x205f ||
    n == 0x3000

def isControl (c : Char) : Bool := c.toNat < 0x20 || (0x7f ≤ c.toNat && c.toNat < 0xa0)

def isAsciiDigit (c : Char) : Bool := '0' ≤ c && c ≤ '9'
def isAsciiLowercase (c : Char) : Bool := 'a' ≤ c && c ≤ 'z'
def isAsciiUppercase (c : Char) : Bool := 'A' ≤ c && c ≤ 'Z'
def isAsciiHexdigit (c : Char) : Bool :=
  isAsciiDigit c || ('a' ≤ c && c ≤ 'f') || ('A' ≤ c && c ≤ 'F')
def isAsciiAlphanumeric (c : Char) : Bool :=
  isAsciiDigit c || isAsciiLowercase c || isAsciiUppercase c
def isAsciiGraphic (c : Char) : Bool := '!' ≤ c && c ≤ '~'

lemma not_isWhitespace_of_graphic (h : isAsciiGraphic c = true) : isWhitespace c = false := by
  simp only [isAsciiGraphic, Bool.and_eq_true, decide_eq_true_eq] at h
  have hlo : 33 ≤ c.toNat := h.1
  have hhi : c.toNat ≤ 126 := h.2
  simp only [isWhitespace, Bool.or_eq_false_iff, Bool.and_eq_false_iff, decide_eq_false_iff_not, beq_eq_false_iff_ne]
  omega

lemma isAsciiGraphic_of_alphanumeric (h : isAsciiAlphanumeric c = true) : isAsciiGraphic c = true := by
  simp only [isAsciiAlphanumeric, isAsciiDigit, isAsciiLowercase, isAsciiUppercase, Bool.or_eq_true,
    Bool.and_eq_true, decide_eq_true_eq] at h
  have hrange : 33 ≤ c.toNat ∧ c.toNat ≤ 126 := by
    obtain (⟨hlo, hhi⟩ | ⟨hlo, hhi⟩) | ⟨hlo, hhi⟩ := h
    · have hlo : 48 ≤ c.toNat := hlo
      have hhi : c.toNat ≤ 57 := hhi
      omega
    · have hlo : 97 ≤ c.toNat := hlo
      have hhi : c.toNat ≤ 122 := hhi
      omega
    · have hlo : 65 ≤ c.toNat := hlo
      have hhi : c.toNat ≤ 90 := hhi
      omega
  simp only [isAsciiGraphic, Bool.and_eq_true, decide_eq_true_eq]
  exact hrange

def toAsciiLowercase (c : Char) : Char :=
  if isAsciiUppercase c then Char.ofNat (c.toNat + 32) else c

lemma toAsciiLowercase_idem (c : Char) : toAsciiLowercase (toAsciiLowercase c) = toAsciiLowercase c := by
  by_cases hc : isAsciiUppercase c = true
  · have hletters : ∀ n < 91, isAsciiUppercase (Char.ofNat n) = true →
        isAsciiUppercase (toAsciiLowercase (Char.ofNat n)) = false := by decide
    have hn : c.toNat < 91 := by
      simp only [isAsciiUppercase, Bool.and_eq_true, decide_eq_true_eq] at hc
      exact Nat.lt_succ_of_le hc.2
    have h := hletters c.toNat hn
    rw [Char.ofNat_toNat] at h
    rw [toAsciiLowercase.eq_1 (toAsciiLowercase c), h hc]
    rfl
  · have hl : toAsciiLowercase c = c := by simp [toAsciiLowercase, hc]
    rw [hl, hl]

def byteLen (cs : List Char) : ℕ := (cs.map Char.utf8Size).sum

lemma byteLen_eq_length (h : ∀ c ∈ cs, c.utf8Size = 1) : byteLen cs = cs.length := by
  unfold byteLen
  induction cs with
  | nil => rfl
  | cons c cs ih =>
    simp only [map_cons, sum_cons, length_cons, h c mem_cons_self, ih (fun d hd => h d (mem_cons_of_mem c hd))]
    omega

def trimStart (cs : List Char) : List Char := cs.dropWhile isWhitespace
def trimEnd (cs : List Char) : List Char := (cs.reverse.dropWhile isWhitespace).reverse
def trim (cs : List Char) : List Char := trimEnd (trimStart cs)

lemma trim_eq_self (h : ∀ c ∈ cs, isWhitespace c = false) : trim cs = cs := by
  have hdrop : ∀ l : List Char, (∀ c ∈ l, isWhitespace c = false) → l.dropWhile isWhitespace = l := by
    intro l hl
    cases l with
    | nil => rfl
    | cons c l => rw [dropWhile_cons, hl c mem_cons_self, if_neg Bool.false_ne_true]
  rw [trim, trimStart, hdrop cs h, trimEnd, hdrop cs.reverse (fun c hc => h c (mem_reverse.mp hc)), reverse_reverse]

lemma exists_dropWhile (p : Char → Bool) (cs : List Char) :
    ∃ a, (∀ c ∈ a, p c = true) ∧ cs = a ++ cs.dropWhile p ∧ ∀ c ∈ (cs.dropWhile p).head?, p c = false := by
  induction cs with
  | nil => exact ⟨[], by simp⟩
  | cons c cs ih =>
    by_cases hc : p c = true
    · obtain ⟨a, ha, hcs, hhead⟩ := ih
      rw [dropWhile_cons, if_pos hc]
      refine ⟨c :: a, ?_, congrArg (c :: ·) hcs, hhead⟩
      intro d hd
      obtain rfl | hd := mem_cons.mp hd
      · exact hc
      · exact ha d hd
    · rw [dropWhile_cons, if_neg hc]
      exact ⟨[], by simp, rfl, by simpa using hc⟩

structure Trimmed (cs : List Char) : Prop where
  head : ∀ c ∈ cs.head?, isWhitespace c = false
  last : ∀ c ∈ cs.getLast?, isWhitespace c = false

lemma exists_trim (cs : List Char) : ∃ a b, (∀ c ∈ a, isWhitespace c = true) ∧ (∀ c ∈ b, isWhitespace c = true) ∧
    cs = a ++ (trim cs ++ b) ∧ Trimmed (trim cs) := by
  obtain ⟨a, ha, hcs, hhead⟩ := exists_dropWhile isWhitespace cs
  obtain ⟨b, hb, hrev, hlast⟩ := exists_dropWhile isWhitespace (trimStart cs).reverse
  have hstart : trimStart cs = trim cs ++ b.reverse := by
    rw [trim, trimEnd, ← reverse_append, ← hrev, reverse_reverse]
  refine ⟨a, b.reverse, ha, fun c hc => hb c (mem_reverse.mp hc), by rw [← hstart]; exact hcs, ?_, ?_⟩
  · intro c hc
    apply hhead c
    have hsome : (trim cs ++ b.reverse).head? = some c := by
      rw [List.head?_append, mem_def.mp hc, some_or]
    rw [← trimStart, hstart]
    exact hsome
  · intro c hc
    rw [trim, trimEnd, getLast?_reverse] at hc
    exact hlast c hc

lemma dropWhile_append_cons (ha : ∀ d ∈ a, p d = true) (hm : m = c :: b) (hc : p c = false) :
    (a ++ m).dropWhile p = m := by
  induction a with
  | nil => rw [nil_append, hm, dropWhile_cons, hc, if_neg Bool.false_ne_true]
  | cons d a ih =>
    rw [cons_append, dropWhile_cons, ha d mem_cons_self]
    exact ih fun e he => ha e (mem_cons_of_mem d he)

lemma trimStart_append (ha : ∀ c ∈ a, isWhitespace c = true) (hm : ∀ c ∈ m.head?, isWhitespace c = false)
    (hne : m ≠ []) : trimStart (a ++ m) = m := by
  obtain ⟨c, b, rfl⟩ := exists_cons_of_ne_nil hne
  exact dropWhile_append_cons ha rfl (hm c rfl)

lemma trimEnd_append (hb : ∀ c ∈ b, isWhitespace c = true) (hm : ∀ c ∈ m.getLast?, isWhitespace c = false)
    (hne : m ≠ []) : trimEnd (m ++ b) = m := by
  have hrev := trimStart_append (a := b.reverse) (m := m.reverse) (fun c hc => hb c (mem_reverse.mp hc))
    (by rwa [List.head?_reverse]) (by simpa using hne)
  rw [trimEnd, reverse_append, ← trimStart, hrev, reverse_reverse]

lemma trim_append (ha : ∀ c ∈ a, isWhitespace c = true) (hb : ∀ c ∈ b, isWhitespace c = true) (hm : Trimmed m)
    (hne : m ≠ []) : trim (a ++ (m ++ b)) = m := by
  have hhead : ∀ c ∈ (m ++ b).head?, isWhitespace c = false := by
    obtain ⟨c, m', rfl⟩ := exists_cons_of_ne_nil hne
    exact hm.head
  rw [trim, trimStart_append ha hhead (by simp [hne]), trimEnd_append hb hm.last hne]

lemma trimStart_eq_nil (h : ∀ c ∈ cs, isWhitespace c = true) : trimStart cs = [] := by
  obtain ⟨a, -, hcs, hhead⟩ := exists_dropWhile isWhitespace cs
  cases hdrop : cs.dropWhile isWhitespace with
  | nil => exact hdrop
  | cons c rest =>
    rw [hdrop] at hcs hhead
    have hin : c ∈ cs := hcs ▸ mem_append_right a mem_cons_self
    exact absurd (h c hin) (by simp [hhead c rfl])

lemma trim_eq_nil : trim cs = [] ↔ ∀ c ∈ cs, isWhitespace c = true := by
  constructor
  · intro h
    obtain ⟨a, b, ha, hb, hcs, -⟩ := exists_trim cs
    rw [h] at hcs
    rw [hcs]
    intro c hc
    obtain hc | hc := mem_append.mp hc
    · exact ha c hc
    · exact hb c hc
  · intro h
    rw [trim, trimStart_eq_nil h]
    rfl

lemma exists_trimEnd (cs : List Char) : ∃ b, (∀ c ∈ b, isWhitespace c = true) ∧ cs = trimEnd cs ++ b := by
  obtain ⟨b, hb, hrev, -⟩ := exists_dropWhile isWhitespace cs.reverse
  refine ⟨b.reverse, fun c hc => hb c (mem_reverse.mp hc), ?_⟩
  rw [trimEnd, ← reverse_append, ← hrev, reverse_reverse]

lemma trimStart_append_cons (hc : isWhitespace c = false) (a b : List Char) :
    trimStart (a ++ c :: b) = trimStart a ++ c :: b := by
  induction a with
  | nil => rw [nil_append, trimStart, dropWhile_cons, hc, if_neg Bool.false_ne_true]; rfl
  | cons d a ih =>
    rw [cons_append, trimStart, trimStart, dropWhile_cons, dropWhile_cons]
    split_ifs
    · exact ih
    · rfl

lemma trimEnd_append_cons (hc : isWhitespace c = false) (a b : List Char) :
    trimEnd (a ++ c :: b) = a ++ c :: trimEnd b := by
  have hrev : (a ++ c :: b).reverse = b.reverse ++ c :: a.reverse := by simp
  rw [trimEnd, hrev, ← trimStart, trimStart_append_cons hc, trimStart]
  simp [trimEnd]

lemma trim_trimStart (cs : List Char) : trim (trimStart cs) = trim cs := by
  obtain ⟨a, -, -, hhead⟩ := exists_dropWhile isWhitespace cs
  have hsame : trimStart (trimStart cs) = trimStart cs := by
    cases hcs : trimStart cs with
    | nil => rfl
    | cons c rest =>
      have hc := hhead c (by rw [← trimStart, hcs]; rfl)
      rw [trimStart, dropWhile_cons, hc, if_neg Bool.false_ne_true]
  rw [trim, hsame, trim]

lemma trimmed_trim (cs : List Char) : Trimmed (trim cs) := by
  obtain ⟨_, _, _, _, _, h⟩ := exists_trim cs
  exact h

lemma trim_append_right (hb : ∀ c ∈ b, isWhitespace c = true) (cs : List Char) : trim (cs ++ b) = trim cs := by
  obtain ⟨a, b', ha, hb', hcs, htrimmed⟩ := exists_trim cs
  by_cases hnil : trim cs = []
  · rw [hnil, trim_eq_nil]
    rw [trim_eq_nil] at hnil
    intro c hc
    obtain hc | hc := mem_append.mp hc
    · exact hnil c hc
    · exact hb c hc
  · have hall : ∀ c ∈ b' ++ b, isWhitespace c = true := by
      intro c hc
      obtain hc | hc := mem_append.mp hc
      · exact hb' c hc
      · exact hb c hc
    have hwhole : cs ++ b = a ++ (trim cs ++ (b' ++ b)) := by
      conv_lhs => rw [hcs]
      simp
    rw [hwhole, trim_append ha hall htrimmed hnil]

lemma trim_trimEnd (cs : List Char) : trim (trimEnd cs) = trim cs := by
  obtain ⟨b, hb, hcs⟩ := exists_trimEnd cs
  conv_rhs => rw [hcs, trim_append_right hb]

lemma trim_append_left (ha : ∀ c ∈ a, isWhitespace c = true) (cs : List Char) : trim (a ++ cs) = trim cs := by
  have hstart : trimStart (a ++ cs) = trimStart cs := by
    induction a with
    | nil => rfl
    | cons c a ih =>
      rw [cons_append, trimStart, dropWhile_cons, if_pos (ha c mem_cons_self)]
      exact ih fun d hd => ha d (mem_cons_of_mem c hd)
  rw [trim, hstart, trim]

lemma mem_of_mem_trim (h : c ∈ trim cs) : c ∈ cs := by
  obtain ⟨a, b, -, -, hcs, -⟩ := exists_trim cs
  rw [hcs]
  exact mem_append_right a (mem_append_left b h)

lemma mem_trim (hc : c ∈ cs) (hblank : isWhitespace c = false) : c ∈ trim cs := by
  obtain ⟨a, b, ha, hb, hcs, -⟩ := exists_trim cs
  rw [hcs] at hc
  obtain hc | hc := mem_append.mp hc
  · exact absurd (ha c hc) (by simp [hblank])
  obtain hc | hc := mem_append.mp hc
  · exact hc
  · exact absurd (hb c hc) (by simp [hblank])

def splitBy (p : Char → Bool) : List Char → List (List Char)
  | [] => [[]]
  | c :: cs =>
    if p c then [] :: splitBy p cs
    else match splitBy p cs with
      | [] => [[c]]
      | piece :: pieces => (c :: piece) :: pieces

lemma splitBy_append {s : Char} (ha : ∀ c ∈ a, p c = false) (hs : p s = true) :
    splitBy p (a ++ s :: b) = a :: splitBy p b := by
  induction a with
  | nil => simp [splitBy, hs]
  | cons c a ih =>
    have hc := ha c mem_cons_self
    have ih := ih fun d hd => ha d (mem_cons_of_mem c hd)
    simp [splitBy, hc, ih]

lemma splitBy_single (ha : ∀ c ∈ a, p c = false) : splitBy p a = [a] := by
  induction a with
  | nil => rfl
  | cons c a ih =>
    have hc := ha c mem_cons_self
    have ih := ih fun d hd => ha d (mem_cons_of_mem c hd)
    simp [splitBy, hc, ih]

def splitWhitespace (cs : List Char) : List (List Char) :=
  (splitBy isWhitespace cs).filter (fun piece => !piece.isEmpty)

def splitOnce (sep : Char) : List Char → Option (List Char × List Char)
  | [] => none
  | c :: cs =>
    if c = sep then some ([], cs) else (splitOnce sep cs).map (fun r => (c :: r.1, r.2))

lemma splitOnce_append (h : sep ∉ a) :
    splitOnce sep (a ++ sep :: b) = some (a, b) := by
  induction a with
  | nil => simp [splitOnce]
  | cons c a ih =>
    obtain ⟨hc, ha⟩ := not_or.mp (mt mem_cons.mpr h)
    simp [splitOnce, ih ha, Ne.symm hc]

lemma splitOnce_eq_some :
    splitOnce sep cs = some (a, b) ↔ cs = a ++ sep :: b ∧ sep ∉ a := by
  constructor
  · intro h
    induction cs generalizing a with
    | nil => exact absurd h (by simp [splitOnce])
    | cons c cs ih =>
      rw [splitOnce] at h
      split_ifs at h with hc
      · cases h
        exact ⟨by rw [hc]; rfl, not_mem_nil⟩
      · obtain ⟨⟨a', b'⟩, hsplit, hpair⟩ := map_eq_some_iff.mp h
        cases hpair
        obtain ⟨hcs, ha⟩ := ih hsplit
        refine ⟨congrArg (c :: ·) hcs, ?_⟩
        simpa [Ne.symm hc] using ha
  · rintro ⟨rfl, ha⟩
    exact splitOnce_append ha

lemma splitOnce_trim (hsep : isWhitespace sep = false) (ha : sep ∉ a) (b : List Char) :
    splitOnce sep (trim (a ++ sep :: b)) = some (trimStart a, trimEnd b) := by
  rw [trim, trimStart_append_cons hsep, trimEnd_append_cons hsep, splitOnce_append]
  intro h
  obtain ⟨front, -, hfront, -⟩ := exists_dropWhile isWhitespace a
  exact ha (hfront ▸ mem_append_right front h)

lemma split_inj {a' b' : List Char} (ha : sep ∉ a) (ha' : sep ∉ a') (h : a ++ sep :: b = a' ++ sep :: b') :
    a = a' ∧ b = b' := by
  have hsplit := splitOnce_eq_some.mpr ⟨h, ha'⟩
  rw [splitOnce_append ha] at hsplit
  exact Prod.mk.inj (some_inj.mp hsplit)

def splitOnceAt (sep : List Char) : List Char → Option (List Char × List Char)
  | [] => if sep = [] then some ([], []) else none
  | c :: cs =>
    match (c :: cs).dropPrefix? sep with
    | some rest => some ([], rest)
    | none => (splitOnceAt sep cs).map (fun r => (c :: r.1, r.2))

def stripPrefix (c : Char) : List Char → Option (List Char)
  | [] => none
  | d :: cs => if d = c then some cs else none

def stripSuffix (c : Char) (cs : List Char) : Option (List Char) :=
  (stripPrefix c cs.reverse).map List.reverse

lemma stripPrefix_eq_some {t : List Char} : stripPrefix c cs = some t ↔ cs = c :: t := by
  cases cs with
  | nil | cons d cs => simp [stripPrefix]

lemma stripSuffix_eq_some {t : List Char} : stripSuffix c cs = some t ↔ cs = t ++ [c] := by
  rw [stripSuffix, map_eq_some_iff]
  constructor
  · rintro ⟨r, hr, rfl⟩
    rw [← reverse_reverse cs, stripPrefix_eq_some.mp hr, reverse_cons]
  · intro h
    exact ⟨t.reverse, by simp [h, stripPrefix], reverse_reverse t⟩

/-- A line with the carriage return before its end taken off. -/
def stripCr (cs : List Char) : List Char := (stripSuffix '\r' cs).getD cs

/-- `str::lines`: what each newline ends, and what is left behind the last. -/
def lines (cs : List Char) : List (List Char) :=
  let pieces := splitBy (· == '\n') cs
  let last := pieces.getLast?.getD []
  pieces.dropLast.map stripCr ++ if last.isEmpty then [] else [last]

lemma stripCr_eq_self {l : List Char} (h : l.getLast? ≠ some '\r') : stripCr l = l := by
  unfold stripCr stripSuffix
  rw [← List.head?_reverse] at h
  cases hl : l.reverse with
  | nil => simp [stripPrefix]
  | cons c cs =>
    have hc : c ≠ '\r' := by simpa [hl] using h
    simp [stripPrefix, hc]

lemma lines_flatMap {ls : List (List Char)} (h : ∀ l ∈ ls, '\n' ∉ l ∧ l.getLast? ≠ some '\r') :
    lines (ls.flatMap (· ++ ['\n'])) = ls := by
  have hpieces : splitBy (· == '\n') (ls.flatMap (· ++ ['\n'])) = ls ++ [[]] := by
    induction ls with
    | nil => rfl
    | cons l ls ih =>
      have hl : ∀ c ∈ l, (c == '\n') = false := by
        intro c hc
        rw [beq_eq_false_iff_ne]
        intro heq
        exact (h l mem_cons_self).1 (heq ▸ hc)
      rw [flatMap_cons, append_assoc, singleton_append, splitBy_append hl (by decide),
        ih fun m hm => h m (mem_cons_of_mem l hm), cons_append]
  have hstrip : ls.map stripCr = ls := by
    conv_rhs => rw [← map_id ls]
    exact map_congr_left fun l hl => stripCr_eq_self (h l hl).2
  simp [lines, hpieces, hstrip]

lemma splitBy_flatMap {ls : List (List Char)} (hne : ls ≠ []) (h : ∀ l ∈ ls, '\n' ∉ l) :
    ∃ body, stripSuffix '\n' (ls.flatMap (· ++ ['\n'])) = some body ∧ splitBy (· == '\n') body = ls := by
  induction ls with
  | nil => exact absurd rfl hne
  | cons l ls ih =>
    have hl : ∀ c ∈ l, (c == '\n') = false := by
      intro c hc
      rw [beq_eq_false_iff_ne]
      intro heq
      exact h l mem_cons_self (heq ▸ hc)
    by_cases hlast : ls = []
    · exact ⟨l, stripSuffix_eq_some.mpr (by simp [hlast]), by rw [hlast, splitBy_single hl]⟩
    · obtain ⟨body, hbody, hsplit⟩ := ih hlast fun m hm => h m (mem_cons_of_mem l hm)
      refine ⟨l ++ '\n' :: body, stripSuffix_eq_some.mpr ?_, ?_⟩
      · rw [flatMap_cons, stripSuffix_eq_some.mp hbody]
        simp
      · rw [splitBy_append hl (beq_self_eq_true '\n'), hsplit]

def decimal (cs : List Char) : Option ℕ :=
  if cs.isEmpty || !cs.all isAsciiDigit then none
  else some (cs.foldl (fun n c => 10 * n + (c.toNat - 48)) 0)

lemma isAsciiDigit_toDigits (n : ℕ) : ∀ c ∈ Nat.toDigits 10 n, isAsciiDigit c = true := by
  intro c hc
  have hdigit := Nat.isDigit_of_mem_toDigits (by omega) (by omega) hc
  simp only [Char.isDigit, Bool.and_eq_true, decide_eq_true_eq] at hdigit
  simp only [isAsciiDigit, Bool.and_eq_true, decide_eq_true_eq]
  exact hdigit

lemma decimal_toDigits (n : ℕ) : decimal (Nat.toDigits 10 n) = some n := by
  have hdigits := isAsciiDigit_toDigits n
  have hne := Nat.toDigits_ne_nil (b := 10) (n := n)
  have hnone : ¬ ((Nat.toDigits 10 n).isEmpty || !(Nat.toDigits 10 n).all isAsciiDigit) = true := by
    simp [hne, all_eq_true.mpr hdigits]
  rw [decimal, if_neg hnone]
  exact congrArg some Nat.ofDigitChars_ten_toDigits

/-- `str::parse` to an unsigned number of at most `max`, which takes a plus sign. -/
def parseUnsigned (max : ℕ) (cs : List Char) : Option ℕ :=
  let digits := match cs with
    | '+' :: ds => ds
    | ds => ds
  (decimal digits).filter (fun n => n ≤ max)

lemma parseUnsigned_eq (hplus : cs.head? ≠ some '+') (max : ℕ) :
    parseUnsigned max cs = (decimal cs).filter (· ≤ max) := by
  unfold parseUnsigned
  split
  · simp at hplus
  · rfl

lemma parseUnsigned_toDigits {n max : ℕ} (h : n ≤ max) : parseUnsigned max (Nat.toDigits 10 n) = some n := by
  have hplus : (Nat.toDigits 10 n).head? ≠ some '+' := by
    intro hhead
    have hdigit := Nat.isDigit_of_mem_toDigits (by omega) (by omega) (mem_of_mem_head? hhead)
    cases hdigit
  rw [parseUnsigned_eq hplus, decimal_toDigits]
  simp [h]

lemma prefix_append_cases {α : Type} {p a b : List α} (h : p <+: a ++ b) : p <+: a ∨ ∃ q, p = a ++ q ∧ q <+: b := by
  obtain hp | ⟨q, rfl⟩ := prefix_or_prefix_of_prefix h (prefix_append a b)
  · exact .inl hp
  · exact .inr ⟨q, rfl, (prefix_append_right_inj a).mp h⟩

lemma prefix_cons_cases {α : Type} {p a b : List α} {c : α} (h : p <+: a ++ c :: b) :
    p <+: a ∨ ∃ q, p = a ++ c :: q ∧ q <+: b := by
  obtain hp | ⟨q, rfl, hq⟩ := prefix_append_cases h
  · exact .inl hp
  · obtain rfl | ⟨t, rfl, ht⟩ := prefix_cons_iff.mp hq
    · exact .inl (by simp)
    · exact .inr ⟨t, rfl, ht⟩

end Kryptik.Lib.Text
