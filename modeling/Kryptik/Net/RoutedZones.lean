import Kryptik.Kryptikd.ZoneText

namespace Kryptik.Net

open Lib Lib.Text Lib.Fallible Kryptikd List

def records (text : List Char) : List (List Char) :=
  let pieces := splitBy (· == '\n') text
  let last := pieces.getLast?.getD []
  pieces.dropLast ++ if last.isEmpty then [] else [last]

def isBlank (c : Char) : Bool := c = ' ' || c = '\t'

def unblank (cs : List Char) : List Char := cs.filter (fun c => !isBlank c)

/-- A record after `sub(/#.*/, "")` and `gsub(/[ \t]/, "")`. -/
def stripped (record : List Char) : List Char := unblank (record.takeWhile (· != '#'))

/-- `/^uid_base="?[0-9]+"?$/`. -/
def isUidBase (line : List Char) : Bool :=
  match line.dropPrefix? "uid_base=".toList with
  | none => false
  | some rest =>
    let rest := (stripPrefix '"' rest).getD rest
    let rest := (stripSuffix '"' rest).getD rest
    !rest.isEmpty && rest.all isAsciiDigit

/-- The variables of the program in `routed_zones`. -/
structure Awk where
  sectionName : List Char := []
  claims : Bool := false
  routed : Bool := false
  base : List Char := []

def claimRule (line : List Char) (s : Awk) : Awk :=
  if s.sectionName = "[network]".toList ∧ (line = "local=true".toList ∨ line = "local=\"true\"".toList) then
    { s with claims := true }
  else s

def modeRule (line : List Char) (s : Awk) : Awk :=
  if s.sectionName = "[network]".toList ∧ line = "mode=\"routed\"".toList then { s with routed := true } else s

def baseRule (line : List Char) (s : Awk) : Awk :=
  if s.sectionName = "[identity]".toList ∧ isUidBase line then { s with base := line.filter isAsciiDigit } else s

def awkRecord (s : Awk) (record : List Char) : Awk :=
  let line := stripped record
  if line.head? = some '[' then { s with sectionName := line }
  else baseRule line (modeRule line (claimRule line s))

def int (q : ℚ) : ℤ := q.num.tdiv q.den

/-- The `END` rule, and the two numbers it prints. `awk` counts in doubles, which hold every number below
2 ^ 53 and their quotients by 65536 as they are. -/
def awkEnd (s : Awk) : Option (ℤ × ℕ) :=
  let k : ℚ := (((decimal s.base).getD 0 : ℕ) - 131072 : ℚ) / 65536 + 2
  if s.routed ∧ s.base ≠ [] ∧ k = int k ∧ 2 ≤ k ∧ k < 250 then some (int k, s.claims.toNat) else none

def routedZones (text : String) : Option (ℤ × ℕ) :=
  awkEnd ((records text.toList).foldl awkRecord {})

section Lines

variable {c : Char} {t : List Char}
variable {a b cs k w x v raw : List Char} {st st' : TomlState} {lineno : ℕ}

lemma mem_unblank : c ∈ unblank cs ↔ c ∈ cs ∧ isBlank c = false := by
  simp [unblank]

lemma isBlank_of_not_isWhitespace (h : isWhitespace c = false) : isBlank c = false := by
  by_contra hb
  simp only [isBlank, Bool.or_eq_false_iff, not_and_or, Bool.not_eq_false, decide_eq_true_eq] at hb
  obtain rfl | rfl := hb
  · cases h
  · cases h

lemma unblank_append (a b : List Char) : unblank (a ++ b) = unblank a ++ unblank b := filter_append a b

lemma unblank_eq_nil (ha : ∀ c ∈ a, isWhitespace c = true) (hun : ∀ c ∈ unblank a, isWhitespace c = false) :
    unblank a = [] := by
  rw [eq_nil_iff_forall_not_mem]
  intro c hc
  exact absurd (ha c (mem_unblank.mp hc).1) (by simp [hun c hc])

lemma unblank_trim (h : ∀ c ∈ unblank cs, isWhitespace c = false) : unblank (trim cs) = unblank cs := by
  obtain ⟨a, b, ha, hb, hcs, -⟩ := exists_trim cs
  have hsplit : unblank cs = unblank a ++ (unblank (trim cs) ++ unblank b) := by
    rw [← unblank_append, ← unblank_append, ← hcs]
  rw [hsplit] at h
  have ha := unblank_eq_nil ha fun c hc => h c (by simp [hc])
  have hb := unblank_eq_nil hb fun c hc => h c (by simp [hc])
  rw [hsplit, ha, hb, nil_append, append_nil]

lemma stripComment_prefix (inString : Bool) (raw : List Char) :
    ∃ more, stripComment inString raw = raw.takeWhile (· != '#') ++ more ∧ ∀ c ∈ more.head?, c = '#' := by
  induction raw generalizing inString with
  | nil => exact ⟨[], rfl, by simp⟩
  | cons c raw ih =>
    by_cases hhash : c = '#'
    · subst hhash
      refine ⟨stripComment inString ('#' :: raw), rfl, ?_⟩
      intro c hc
      cases inString with
      | true => exact (Option.some_inj.mp hc).symm
      | false => exact absurd hc (by simp [stripComment])
    · by_cases hquote : c = '"'
      · obtain ⟨more, hmore, hhead⟩ := ih (!inString)
        exact ⟨more, by simp [stripComment, hquote, hmore], hhead⟩
      · obtain ⟨more, hmore, hhead⟩ := ih inString
        exact ⟨more, by simp [stripComment, hquote, hhash, hmore], hhead⟩

lemma inString_unblank (start : Bool) (cs : List Char) : inString start (unblank cs) = inString start cs := by
  induction cs generalizing start with
  | nil => rfl
  | cons c cs ih =>
    by_cases hc : isBlank c = true
    · have hquote : c ≠ '"' := by
        intro h
        subst h
        exact absurd hc (by decide)
      have hskip : unblank (c :: cs) = unblank cs := by simp [unblank, hc]
      rw [hskip, ih]
      simp [inString, hquote]
    · have hkeep : unblank (c :: cs) = c :: unblank cs := by simp [unblank, hc]
      rw [hkeep]
      exact ih _

lemma stripComment_closed {start : Bool} (h : inString start (raw.takeWhile (· != '#')) = false) :
    stripComment start raw = raw.takeWhile (· != '#') := by
  refine stripComment_eq.mpr ⟨fun a b hab => ?_, ?_⟩
  · have hmem : '#' ∈ raw.takeWhile (· != '#') := by simp [hab]
    exact absurd (all_eq_true.mp (all_takeWhile ..) _ hmem) (by decide)
  · have hraw := takeWhile_append_dropWhile (p := (· != '#')) (l := raw)
    cases hrest : raw.dropWhile (· != '#') with
    | nil =>
      rw [hrest, append_nil] at hraw
      exact .inl hraw.symm
    | cons c b =>
      have hc : c = '#' := by simpa [hrest] using List.head?_dropWhile_not (· != '#') raw
      rw [hrest, hc] at hraw
      exact .inr ⟨b, hraw.symm, h⟩

lemma exists_of_unblank (h : unblank cs = k ++ '=' :: w) :
    ∃ p q, cs = p ++ '=' :: q ∧ unblank p = k ∧ unblank q = w := by
  obtain ⟨p, q, hcs, hp, hq⟩ := filter_eq_append_iff.mp h
  obtain ⟨q1, q2, rfl, hblank, -, hq2⟩ := filter_eq_cons_iff.mp hq
  refine ⟨p ++ q1, q2, by rw [hcs, append_assoc], ?_, hq2⟩
  rw [unblank_append]
  have hnil : unblank q1 = [] := filter_eq_nil_iff.mpr hblank
  rw [hnil, append_nil]
  exact hp

def plainKey (k : List Char) : Bool := !k.isEmpty && k.all (fun c => !isWhitespace c && c != '=' && c != '[')

lemma entry_of_stripped (hline : Lined lineno raw st st') (hstrip : stripped raw = k ++ '=' :: w)
    (hplain : plainKey k = true) :
    ∃ key p more v, unblank key = k ∧ unblank p = w ∧ (∀ c ∈ more.head?, c = '#') ∧
      (inString false (k ++ '=' :: w) = false → more = []) ∧ tomlValue lineno (trim (p ++ more)) = .ok v ∧
      st'.out = st.out ++ [(fullKey st.sectionName key, String.ofList v)] := by
  obtain ⟨hne, hk⟩ : k ≠ [] ∧ ∀ c ∈ k, isWhitespace c = false ∧ c ≠ '=' ∧ c ≠ '[' := by
    simpa [plainKey, and_assoc] using hplain
  obtain ⟨more, hmore, hhash⟩ := stripComment_prefix false raw
  have hclosed : inString false (k ++ '=' :: w) = false → more = [] := by
    intro h
    rw [← hstrip, stripped, inString_unblank] at h
    rw [stripComment_closed h] at hmore
    simpa using hmore
  obtain ⟨p, q, hpre, hp, hq⟩ := exists_of_unblank hstrip
  have hmem : ∀ c ∈ p, isWhitespace c = false → c ∈ k := by
    intro c hc hblank
    rw [← hp]
    exact mem_unblank.mpr ⟨hc, isBlank_of_not_isWhitespace hblank⟩
  have heq : '=' ∉ p := fun h => (hk '=' (hmem '=' h (by decide))).2.1 rfl
  obtain ⟨a, b, ha, hb, htext, -⟩ := exists_trim (stripComment false raw)
  have hwhole : stripComment false raw = p ++ '=' :: (q ++ more) := by
    rw [hmore, hpre, append_assoc, cons_append]
  -- the first character that is no blank is one of the key's
  have hstart : ∃ c ∈ p, isWhitespace c = false := by
    obtain ⟨c, k', rfl⟩ := exists_cons_of_ne_nil hne
    have hc : c ∈ unblank p := hp ▸ mem_cons_self
    exact ⟨c, (mem_unblank.mp hc).1, (hk c mem_cons_self).1⟩
  cases hline with
  | blank hnil =>
    rw [trim_eq_nil, hwhole] at hnil
    obtain ⟨c, hc, hblank⟩ := hstart
    exact absurd (hnil c (mem_append_left _ hc)) (by simp [hblank])
  | header hheader =>
    rw [hheader, hwhole, append_eq_append_iff] at htext
    obtain ⟨t, hat, -⟩ | ⟨t, hpt, ht⟩ := htext
    · obtain ⟨c, hc, hblank⟩ := hstart
      have hca : c ∈ a := hat ▸ mem_append_left t hc
      exact absurd (ha c hca) (by simp [hblank])
    · cases t with
      | nil => exact absurd (head_eq_of_cons_eq ht) (by decide)
      | cons d t =>
        have hd : '[' = d := head_eq_of_cons_eq ht
        have hin : '[' ∈ p := hpt ▸ hd ▸ mem_append_right a mem_cons_self
        exact absurd rfl (hk '[' (hmem '[' hin (by decide))).2.2
  | @entry key value v htext' hkey _ _ hvalue _ =>
    rw [htext', hwhole] at htext
    have hakey : '=' ∉ a ++ key := by
      intro h
      obtain h | h := mem_append.mp h
      · cases ha '=' h
      · exact hkey h
    have hsame : p ++ '=' :: (q ++ more) = (a ++ key) ++ '=' :: (value ++ b) := by
      rw [htext]
      simp
    obtain ⟨hpkey, hrest⟩ := split_inj heq hakey hsame
    refine ⟨trim key, q, more, v, ?_, hq, hhash, hclosed, ?_, rfl⟩
    · have hsplit : k = unblank a ++ unblank key := by rw [← hp, hpkey, unblank_append]
      have hnone : unblank a = [] := unblank_eq_nil ha fun c hc => (hk c (by rw [hsplit]; simp [hc])).1
      have hkey' : unblank key = k := by rw [hsplit, hnone, nil_append]
      rw [unblank_trim fun c hc => (hk c (hkey' ▸ hc)).1]
      exact hkey'
    · rw [hrest, trim_append_right hb]
      exact hvalue

lemma head_unblank (hx : Trimmed x) (h : unblank x = c :: t) : ∃ y, x = c :: y := by
  cases x with
  | nil => exact absurd h (by simp [unblank])
  | cons d y =>
    have hd : isBlank d = false := isBlank_of_not_isWhitespace (hx.head d rfl)
    have hkeep : unblank (d :: y) = d :: unblank y := by simp [unblank, hd]
    rw [hkeep] at h
    exact ⟨y, by rw [head_eq_of_cons_eq h]⟩

lemma tomlValue_quoted (h : tomlValue lineno ('"' :: x) = .ok v) : x = v ++ ['"'] := by
  obtain ⟨rfl, hword⟩ | hquoted := tomlValue_ok h
  · cases hword '"' mem_cons_self
  · exact tail_eq_of_cons_eq hquoted

lemma tomlValue_bare (hc : c ≠ '"') (h : tomlValue lineno (c :: x) = .ok v) :
    v = c :: x ∧ ∀ d ∈ c :: x, isAsciiAlphanumeric d = true := by
  obtain ⟨rfl, hword⟩ | hquoted := tomlValue_ok h
  · exact ⟨rfl, hword⟩
  · exact absurd (head_eq_of_cons_eq hquoted) hc

lemma unblank_eq_self (h : ∀ c ∈ cs, isAsciiAlphanumeric c = true) : unblank cs = cs := by
  refine filter_eq_self.mpr fun c hc => ?_
  have hblank := not_isWhitespace_of_graphic (isAsciiGraphic_of_alphanumeric (h c hc))
  simp [isBlank_of_not_isWhitespace hblank]

lemma tomlValue_unblank_quoted (ht : unblank x = '"' :: (t ++ ['"'])) (hx : Trimmed x)
    (h : tomlValue lineno x = .ok v) : unblank v = t := by
  obtain ⟨y, rfl⟩ := head_unblank hx ht
  rw [tomlValue_quoted h, ← singleton_append, unblank_append, unblank_append] at ht
  have hq : unblank ['"'] = ['"'] := by decide
  rw [hq, singleton_append, cons.injEq] at ht
  exact append_cancel_right ht.2

lemma tomlValue_unblank_bare (ht : unblank x = c :: t) (hc : c ≠ '"') (hx : Trimmed x)
    (h : tomlValue lineno x = .ok v) : v = c :: t := by
  obtain ⟨y, rfl⟩ := head_unblank hx ht
  obtain ⟨rfl, hall⟩ := tomlValue_bare hc h
  rw [unblank_eq_self hall] at ht
  exact ht

def KeyOf (k : String) (full : String) : Prop :=
  ∃ sectionName key, full = fullKey sectionName key ∧ unblank key = k.toList

variable {k : String}

lemma closed_entry (hline : Lined lineno raw st st') (hstrip : stripped raw = k.toList ++ '=' :: w)
    (hplain : plainKey k.toList = true) (hw : w.all (fun c => !isWhitespace c) = true)
    (hclosed : inString false (k.toList ++ '=' :: w) = false) :
    ∃ e ∈ st'.out, KeyOf k e.1 ∧ ∃ x, Trimmed x ∧ unblank x = w ∧ tomlValue lineno x = .ok e.2.toList := by
  obtain ⟨key, p, more, v, hkey, hp, -, hmore, hvalue, hout⟩ := entry_of_stripped hline hstrip hplain
  rw [hmore hclosed, append_nil] at hvalue
  refine ⟨_, hout ▸ mem_append_right _ mem_cons_self, ⟨_, key, rfl, hkey⟩, trim p, trimmed_trim p, ?_, ?_⟩
  · rw [unblank_trim, hp]
    simpa [hp] using hw
  · rw [String.toList_ofList, hvalue]

lemma quoted_entry (hline : Lined lineno raw st st')
    (hstrip : stripped raw = k.toList ++ '=' :: ('"' :: (t ++ ['"']))) (hplain : plainKey k.toList = true)
    (ht : t.all (fun c => !isWhitespace c) = true)
    (hclosed : inString false (k.toList ++ '=' :: ('"' :: (t ++ ['"']))) = false) :
    ∃ e ∈ st'.out, KeyOf k e.1 ∧ unblank e.2.toList = t := by
  have hw : ('"' :: (t ++ ['"'])).all (fun c => !isWhitespace c) = true := by simpa [isWhitespace] using ht
  obtain ⟨e, he, hkey, x, hx, hun, hvalue⟩ := closed_entry hline hstrip hplain hw hclosed
  exact ⟨e, he, hkey, tomlValue_unblank_quoted hun hx hvalue⟩

lemma bare_entry (hline : Lined lineno raw st st') (hstrip : stripped raw = k.toList ++ '=' :: (c :: t))
    (hplain : plainKey k.toList = true) (ht : ∀ d ∈ c :: t, isAsciiAlphanumeric d = true)
    (hclosed : inString false (k.toList ++ '=' :: (c :: t)) = false) :
    ∃ e ∈ st'.out, KeyOf k e.1 ∧ unblank e.2.toList = c :: t := by
  have hw : (c :: t).all (fun c => !isWhitespace c) = true := all_eq_true.mpr fun d hd => by
    simp [not_isWhitespace_of_graphic (isAsciiGraphic_of_alphanumeric (ht d hd))]
  have hc : c ≠ '"' := by
    rintro rfl
    exact absurd (ht _ mem_cons_self) (by decide)
  obtain ⟨e, he, hkey, x, hx, hun, hvalue⟩ := closed_entry hline hstrip hplain hw hclosed
  refine ⟨e, he, hkey, ?_⟩
  rw [tomlValue_unblank_bare hun hc hx hvalue]
  exact unblank_eq_self ht

lemma isUidBase_ok {line : List Char} (h : isUidBase line = true) :
    ∃ o ds c, (o = [] ∨ o = ['"']) ∧ (c = [] ∨ c = ['"']) ∧ line = "uid_base".toList ++ '=' :: (o ++ (ds ++ c)) ∧
      ds ≠ [] ∧ ∀ d ∈ ds, isAsciiDigit d = true := by
  unfold isUidBase at h
  split at h
  · cases h
  next rest hrest =>
    dsimp only at h
    obtain ⟨front, hline, hfront⟩ := dropPrefix?_eq_some_iff.mp hrest
    rw [beq_iff_eq] at hfront
    subst hfront
    obtain ⟨o, ho, hopen⟩ : ∃ o, (o = [] ∨ o = ['"']) ∧ rest = o ++ (stripPrefix '"' rest).getD rest := by
      cases hstrip : stripPrefix '"' rest with
      | none => exact ⟨[], Or.inl rfl, rfl⟩
      | some t => exact ⟨['"'], Or.inr rfl, stripPrefix_eq_some.mp hstrip⟩
    generalize (stripPrefix '"' rest).getD rest = inner at h hopen
    obtain ⟨c, hc, hclose⟩ : ∃ c, (c = [] ∨ c = ['"']) ∧ inner = (stripSuffix '"' inner).getD inner ++ c := by
      cases hstrip : stripSuffix '"' inner with
      | none => exact ⟨[], Or.inl rfl, (append_nil _).symm⟩
      | some t => exact ⟨['"'], Or.inr rfl, stripSuffix_eq_some.mp hstrip⟩
    generalize (stripSuffix '"' inner).getD inner = ds at h hclose
    simp only [Bool.and_eq_true, Bool.not_eq_true', isEmpty_eq_false_iff, all_eq_true] at h
    exact ⟨o, ds, c, ho, hc, by rw [hline, hopen, hclose]; rfl, h.1, h.2⟩

variable {d : Char}

lemma isAsciiAlphanumeric_of_digit (h : isAsciiDigit d = true) : isAsciiAlphanumeric d = true := by
  simp [isAsciiAlphanumeric, h]

lemma not_quote_of_digit (h : isAsciiDigit d = true) : d ≠ '"' := by
  intro hd
  exact absurd h (by rw [hd]; decide)

lemma inString_digits {ds : List Char} (hds : ∀ d ∈ ds, isAsciiDigit d = true) (start : Bool) (cs : List Char) :
    inString start (ds ++ cs) = inString start cs := by
  induction ds with
  | nil => rfl
  | cons d ds ih =>
    have hd := not_quote_of_digit (hds d mem_cons_self)
    have hstep : inString start (d :: ds ++ cs) = inString start (ds ++ cs) := by simp [inString, hd]
    rw [hstep]
    exact ih fun e he => hds e (mem_cons_of_mem d he)

lemma trim_starts {p : List Char} (more : List Char) (hp : unblank p = d :: t)
    (hd : isWhitespace d = false) :
    ∃ y, trim (p ++ more) = d :: y := by
  obtain ⟨a, q, rfl, ha, -, -⟩ := filter_eq_cons_iff.mp hp
  have hblank : ∀ c ∈ a, isWhitespace c = true := by
    intro c hc
    have hc := ha c hc
    by_contra hno
    exact hc (by simp [isBlank_of_not_isWhitespace (Bool.eq_false_iff.mpr hno)])
  have hstart : trimStart (a ++ d :: (q ++ more)) = d :: (q ++ more) :=
    trimStart_append hblank (by simpa using hd) (by simp)
  have hmem : d ∈ trim (a ++ d :: (q ++ more)) := mem_trim (by simp) hd
  rw [append_assoc, cons_append]
  obtain ⟨b, -, hb⟩ := exists_trimEnd (d :: (q ++ more))
  rw [trim, hstart] at hmem ⊢
  obtain ⟨e, y, hy⟩ := exists_cons_of_ne_nil (ne_nil_of_mem hmem)
  rw [hy] at hb ⊢
  exact ⟨y, by rw [head_eq_of_cons_eq hb]⟩

lemma uid_entry (hline : Lined lineno raw st st') (huid : isUidBase (stripped raw) = true) :
    ∃ e ∈ st'.out, KeyOf "uid_base" e.1 ∧
      (unblank e.2.toList = (stripped raw).filter isAsciiDigit ∨ '#' ∈ e.2.toList) := by
  obtain ⟨o, ds, c, ho, hc, hstrip, hne, hds⟩ := isUidBase_ok huid
  have hfilter : (stripped raw).filter isAsciiDigit = ds := by
    have hself := filter_eq_self.mpr hds
    rw [hstrip]
    obtain rfl | rfl := ho <;> obtain rfl | rfl := hc <;> simp [filter_append, hself, isAsciiDigit]
  rw [hfilter]
  have hword : ∀ d ∈ ds, isAsciiAlphanumeric d = true := fun d hd => isAsciiAlphanumeric_of_digit (hds d hd)
  have hblank : ∀ d ∈ ds, isWhitespace d = false := fun d hd =>
    not_isWhitespace_of_graphic (isAsciiGraphic_of_alphanumeric (hword d hd))
  have hquote : '"' ∉ ds := fun h => not_quote_of_digit (hds _ h) rfl
  obtain ⟨d, t, rfl⟩ := exists_cons_of_ne_nil hne
  obtain rfl | rfl := ho
  · obtain rfl | rfl := hc
    · rw [append_nil] at hstrip
      have hclosed := inString_digits hds false []
      rw [append_nil] at hclosed
      obtain ⟨e, he, hkey, hv⟩ := bare_entry hline hstrip (by decide) hword hclosed
      exact ⟨e, he, hkey, Or.inl hv⟩
    · obtain ⟨key, p, more, v, -, hp, -, -, hvalue, -⟩ := entry_of_stripped hline hstrip (by decide)
      obtain ⟨y, hy⟩ := trim_starts more hp (hblank d mem_cons_self)
      rw [hy] at hvalue
      obtain ⟨-, hall⟩ := tomlValue_bare (not_quote_of_digit (hds d mem_cons_self)) hvalue
      have hin : '"' ∈ unblank p := by simp [hp]
      have hquote : '"' ∈ trim (p ++ more) := mem_trim (mem_append_left _ (mem_unblank.mp hin).1) (by decide)
      rw [hy] at hquote
      exact absurd (hall '"' hquote) (by decide)
  · obtain rfl | rfl := hc
    · obtain ⟨key, p, more, v, hkey, hp, hmore, -, hvalue, hout⟩ := entry_of_stripped hline hstrip (by decide)
      refine ⟨_, hout ▸ mem_append_right _ mem_cons_self, ⟨_, key, rfl, hkey⟩, .inr ?_⟩
      obtain ⟨y, hy⟩ := trim_starts more hp (by decide)
      rw [hy] at hvalue
      rw [tomlValue_quoted hvalue] at hy
      cases more with
      | nil =>
        have hun : unblank (trim p) = '"' :: ((d :: t) ++ []) := by
          rw [unblank_trim, hp]
          · rfl
          · rw [hp]
            intro c hc
            simp only [singleton_append, append_nil, mem_cons] at hc
            obtain rfl | hc := hc
            · decide
            · exact hblank c (mem_cons.mpr hc)
        rw [append_nil] at hy
        have hq : unblank ['"'] = ['"'] := by decide
        rw [hy, ← singleton_append, unblank_append, unblank_append, hq, singleton_append, cons.injEq, append_nil] at hun
        have hin : '"' ∈ d :: t := by simp [← hun.2]
        exact absurd hin hquote
      | cons c more =>
        obtain rfl := hmore c rfl
        have hin : '#' ∈ trim (p ++ '#' :: more) := mem_trim (by simp) (by decide)
        rw [hy] at hin
        simpa using hin
    · have hclosed := inString_digits hds true ['"']
      obtain ⟨e, he, hkey, hv⟩ := quoted_entry hline hstrip (by decide) (by simpa using hblank) hclosed
      exact ⟨e, he, hkey, Or.inl hv⟩

lemma stripped_stripCr (h : '\r' ∉ stripped raw) : stripped (stripCr raw) = stripped raw := by
  cases hstrip : stripSuffix '\r' raw with
  | none => rw [stripCr, hstrip, Option.getD_none]
  | some front =>
    obtain rfl := stripSuffix_eq_some.mp hstrip
    rw [stripCr, hstrip, Option.getD_some]
    have htake : (front ++ ['\r']).takeWhile (· != '#') = front.takeWhile (· != '#') := by
      rw [takeWhile_append]
      split_ifs with hall
      · exfalso
        apply h
        rw [stripped, takeWhile_append, if_pos hall]
        exact mem_unblank.mpr ⟨by simp, by decide⟩
      · rfl
    rw [stripped, stripped, htake]

end Lines

end Kryptik.Net
