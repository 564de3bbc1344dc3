import Kryptik.Kryptikd.ZoneText
import Kryptik.Zoneid.Toml

namespace Kryptik.Zoneid

open Lib.Text Lib.Fallible List

variable {y t tail : List Char}
variable {a b p r s v w x raw rest : List Char} {c : Char} {lineno : ℕ}

def Plain (cs : List Char) : Prop := ∀ c ∈ cs, c ≠ '"' ∧ c ≠ '\'' ∧ c ≠ '#'

def Unquoted (cs : List Char) : Prop := ∀ c ∈ cs, c ≠ '"' ∧ c ≠ '\''

lemma map_ok {ε α β : Type} {f : α → β} {e : Except ε α} {y : β} : e.map f = .ok y ↔ ∃ z, e = .ok z ∧ f z = y := by
  cases e with
  | error e => exact ⟨nofun, nofun⟩
  | ok z => exact ⟨fun h => ⟨z, rfl, Except.ok.inj h⟩, fun ⟨z', hz, h⟩ => Except.ok.inj hz ▸ h ▸ rfl⟩

lemma kryptikd_plain (hp : Plain p) (r : List Char) :
    Kryptikd.stripComment false (p ++ r) = p ++ Kryptikd.stripComment false r := by
  induction p with
  | nil => rfl
  | cons c p ih =>
    obtain ⟨hquote, -, hhash⟩ := hp c mem_cons_self
    simp [Kryptikd.stripComment, hquote, hhash, ih fun d hd => hp d (mem_cons_of_mem c hd)]

lemma stripComment_plain (hp : Plain p) (r : List Char) :
    stripComment none (p ++ r) = (stripComment none r).map (p ++ ·) := by
  induction p with
  | nil =>
    rw [nil_append]
    cases stripComment none r with
    | error e | ok s => rfl
  | cons c p ih =>
    obtain ⟨hquote, hapos, hhash⟩ := hp c mem_cons_self
    have ih := ih fun d hd => hp d (mem_cons_of_mem c hd)
    rw [cons_append, stripComment, if_neg hhash, if_neg (by simp [hquote, hapos]), ih]
    cases stripComment none r with
    | error e | ok s => rfl

lemma stripComment_eq_ok (hs : Unquoted s) : stripComment none raw = .ok s ↔ Kryptikd.stripComment false raw = s := by
  induction raw generalizing s with
  | nil => simp [stripComment, Kryptikd.stripComment]
  | cons c raw ih =>
    by_cases hhash : c = '#'
    · subst hhash
      simp [stripComment, Kryptikd.stripComment]
    · constructor
      · intro h
        rw [stripComment, if_neg hhash, map_ok] at h
        obtain ⟨s', h, rfl⟩ := h
        obtain ⟨hquote, hapos⟩ := hs c mem_cons_self
        rw [if_neg (by simp [hquote, hapos]), ih fun d hd => hs d (mem_cons_of_mem c hd)] at h
        simp [Kryptikd.stripComment, hquote, hhash, h]
      · intro h
        have hmem : c ∈ s := by
          rw [← h, Kryptikd.stripComment]
          split_ifs
          · exact mem_cons_self
          · simp_all
          · exact mem_cons_self
        obtain ⟨hquote, hapos⟩ := hs c hmem
        simp only [Kryptikd.stripComment, if_neg hquote, hhash, decide_false, Bool.false_and] at h
        rw [stripComment, if_neg hhash, if_neg (by simp [hquote, hapos]), map_ok]
        refine ⟨_, (ih ?_).mpr rfl, h⟩
        intro d hd
        exact hs d (h ▸ mem_cons_of_mem c hd)

lemma stripComment_string {q : Char} (hc : ¬ (q = '"' ∧ c = '\\')) (cs : List Char) :
    stripComment (some q) (c :: cs) = (stripComment (if c = q then none else some q) cs).map (c :: ·) := by
  rw [stripComment]
  · simp_all
  · simp_all

lemma stripComment_closes (hquote : '"' ∉ p) (hslash : '\\' ∉ p) (r : List Char) :
    stripComment (some '"') (p ++ '"' :: r) = (stripComment none r).map (p ++ '"' :: ·) := by
  induction p with
  | nil =>
    rw [nil_append]
    rfl
  | cons c p ih =>
    simp only [mem_cons, not_or] at hquote hslash
    rw [cons_append, stripComment_string (by simp [Ne.symm hslash.1]), if_neg (Ne.symm hquote.1), ih hquote.2 hslash.2]
    cases stripComment none r with
    | error e | ok s => rfl

lemma kryptikd_closes (hquote : '"' ∉ p) (r : List Char) :
    Kryptikd.stripComment true (p ++ '"' :: r) = p ++ '"' :: Kryptikd.stripComment false r := by
  induction p with
  | nil => simp [Kryptikd.stripComment]
  | cons c p ih =>
    simp only [mem_cons, not_or] at hquote
    simp [Kryptikd.stripComment, Ne.symm hquote.1, ih hquote.2]

lemma readBasicString_cons (hquote : c ≠ '"') (hslash : c ≠ '\\') (cs : List Char) : readBasicString (c :: cs) = (do
      let (text, tail) ← readBasicString cs
      return (c :: text, tail)) := by
  rw [readBasicString]
  all_goals simp_all

lemma readBasicString_closes (hquote : '"' ∉ p) (hslash : '\\' ∉ p) (r : List Char) :
    readBasicString (p ++ '"' :: r) = .ok (p, r) := by
  induction p with
  | nil => rw [nil_append, readBasicString]
  | cons c p ih =>
    simp only [mem_cons, not_or] at hquote hslash
    rw [cons_append, readBasicString_cons (Ne.symm hquote.1) (Ne.symm hslash.1), ih hquote.2 hslash.2]
    rfl

lemma kryptikd_prefix (inString : Bool) (raw : List Char) : Kryptikd.stripComment inString raw <+: raw := by
  induction raw generalizing inString with
  | nil => exact nil_prefix
  | cons c raw ih =>
    rw [Kryptikd.stripComment]
    split_ifs
    · exact cons_prefix_cons.mpr ⟨rfl, ih _⟩
    · exact nil_prefix
    · exact cons_prefix_cons.mpr ⟨rfl, ih _⟩

lemma stripComment_isPrefix {quote : Option Char} (h : stripComment quote raw = .ok s) : s <+: raw := by
  fun_induction stripComment quote raw generalizing s with
  | case1 => exact Except.ok.inj h ▸ nil_prefix
  | case2 => cases h
  | case3 => exact Except.ok.inj h ▸ nil_prefix
  | case4 c cs _ ih =>
    obtain ⟨s', hs', rfl⟩ := map_ok.mp h
    exact cons_prefix_cons.mpr ⟨rfl, ih hs'⟩
  | case5 => cases h
  | case6 c cs ih =>
    obtain ⟨s', hs', rfl⟩ := map_ok.mp h
    exact cons_prefix_cons.mpr ⟨rfl, cons_prefix_cons.mpr ⟨rfl, ih hs'⟩⟩
  | case7 q c cs _ _ ih =>
    obtain ⟨s', hs', rfl⟩ := map_ok.mp h
    exact cons_prefix_cons.mpr ⟨rfl, ih hs'⟩

/-- The two readings of what stands behind a line's `=`. -/
def Reading (w v : List Char) : Prop :=
  ∃ lineno raw s, Kryptikd.tomlValue lineno (trim (Kryptikd.stripComment false raw)) = .ok w ∧
    stripComment none raw = .ok s ∧ parseValue (trim s) = .ok v

lemma not_quote_of_whitespace (h : isWhitespace c = true) : c ≠ '"' ∧ c ≠ '\'' ∧ c ≠ '#' ∧ c ≠ '[' ∧ c ≠ '=' := by
  refine ⟨?_, ?_, ?_, ?_, ?_⟩ <;>
  · intro hc
    exact absurd h (by rw [hc]; decide)

lemma not_quote_of_word (h : isAsciiAlphanumeric c = true) : c ≠ '"' ∧ c ≠ '\'' ∧ c ≠ '\\' := by
  refine ⟨?_, ?_, ?_⟩ <;>
  · intro hc
    exact absurd h (by rw [hc]; decide)

lemma unquoted_of_whitespace (h : ∀ c ∈ a, isWhitespace c = true) : Unquoted a := fun c hc =>
  ⟨(not_quote_of_whitespace (h c hc)).1, (not_quote_of_whitespace (h c hc)).2.1⟩

lemma plain_of_whitespace (h : ∀ c ∈ a, isWhitespace c = true) : Plain a := fun c hc =>
  ⟨(not_quote_of_whitespace (h c hc)).1, (not_quote_of_whitespace (h c hc)).2.1, (not_quote_of_whitespace (h c hc)).2.2.1⟩

lemma Unquoted.append (ha : Unquoted a) (hb : Unquoted b) : Unquoted (a ++ b) := forall_mem_append.mpr ⟨ha, hb⟩

lemma Plain.append (ha : Plain a) (hb : Plain b) : Plain (a ++ b) := forall_mem_append.mpr ⟨ha, hb⟩

lemma Unquoted.of_trim (h : Unquoted (trim x)) : Unquoted x := by
  obtain ⟨a, b, ha, hb, hx, -⟩ := exists_trim x
  rw [hx]
  exact (unquoted_of_whitespace ha).append (h.append (unquoted_of_whitespace hb))

lemma Plain.of_trim (h : Plain (trim x)) : Plain x := by
  obtain ⟨a, b, ha, hb, hx, -⟩ := exists_trim x
  rw [hx]
  exact (plain_of_whitespace ha).append (h.append (plain_of_whitespace hb))

lemma trim_blank_cons (ha : ∀ c ∈ a, isWhitespace c = true) (hc : isWhitespace c = false) (r : List Char) :
    trim (a ++ c :: r) = c :: trimEnd r := by
  rw [trim, trimStart_append_cons hc, trimStart_eq_nil ha]
  exact trimEnd_append_cons hc [] r

lemma reading_bare (hw : ∀ c ∈ w, isAsciiAlphanumeric c = true)
    (hk : trim (Kryptikd.stripComment false raw) = w) (hs : stripComment none raw = .ok s)
    (hv : parseValue (trim s) = .ok v) : v = w := by
  have hplain : Unquoted (Kryptikd.stripComment false raw) := by
    apply Unquoted.of_trim
    rw [hk]
    exact fun c hc => ⟨(not_quote_of_word (hw c hc)).1, (not_quote_of_word (hw c hc)).2.1⟩
  rw [(stripComment_eq_ok hplain).mpr rfl] at hs
  rw [← Except.ok.inj hs, hk] at hv
  cases w with
  | nil => exact (Except.ok.inj hv).symm
  | cons c w =>
    obtain ⟨hquote, hapos, -⟩ := not_quote_of_word (hw c mem_cons_self)
    simp only [parseValue, stripPrefix, if_neg hquote, if_neg hapos] at hv
    exact (Except.ok.inj hv).symm

lemma reading_quoted (hk : trim (Kryptikd.stripComment false raw) = '"' :: (w ++ ['"']))
    (hs : stripComment none raw = .ok s) (hv : parseValue (trim s) = .ok v) :
    ∃ body b s' tail, Kryptikd.stripComment true body = w ++ '"' :: b ∧ (∀ c ∈ b, isWhitespace c = true) ∧
      stripComment (some '"') body = .ok s' ∧ readBasicString (trimEnd s') = .ok (v, tail) ∧
      ∀ c ∈ tail, isWhitespace c = true := by
  obtain ⟨a, b, ha, hb, hcut, -⟩ := exists_trim (Kryptikd.stripComment false raw)
  rw [hk] at hcut
  obtain ⟨t, ht⟩ := kryptikd_prefix false raw
  obtain ⟨body, hraw⟩ : ∃ body, raw = a ++ '"' :: body := ⟨w ++ ['"'] ++ b ++ t, by rw [← ht, hcut]; simp⟩
  have hplain : Plain a := plain_of_whitespace ha
  rw [hraw, kryptikd_plain hplain] at hcut
  rw [hraw, stripComment_plain hplain, map_ok] at hs
  obtain ⟨s1, hs1, rfl⟩ := hs
  rw [stripComment, if_neg (by decide), map_ok] at hs1
  obtain ⟨s', hs', rfl⟩ := hs1
  refine ⟨body, b, s', ?_⟩
  have hbody : Kryptikd.stripComment true body = w ++ '"' :: b := by
    have := append_cancel_left hcut
    simpa [Kryptikd.stripComment] using this
  rw [trim_blank_cons ha (by decide)] at hv
  obtain ⟨⟨text, tail⟩, hread, hv⟩ := bind_ok.mp hv
  simp only [withoutTail] at hv
  split_ifs at hv with htail
  cases hv
  exact ⟨tail, hbody, hb, hs', hread, trim_eq_nil.mp (isEmpty_iff.mp htail)⟩

lemma Reading.eq (h : Reading w v) (hslash : '\\' ∉ w) : v = w := by
  obtain ⟨lineno, raw, s, hk, hs, hv⟩ := h
  obtain ⟨hx, hword⟩ | hquoted := Kryptikd.tomlValue_ok hk
  · exact reading_bare hword hx.symm hs hv
  obtain ⟨body, b, s', tail, hbody, hb, hs', hread, htail⟩ := reading_quoted hquoted hs hv
  -- the string's first quote
  obtain ⟨t, ht⟩ := kryptikd_prefix true body
  have hmem : '"' ∈ body := by
    rw [← ht, hbody]
    simp
  obtain ⟨w1, rest, rfl, hfirst⟩ := eq_append_cons_of_mem hmem
  rw [kryptikd_closes hfirst] at hbody
  obtain ⟨u, rfl, hu⟩ : ∃ u, w = w1 ++ u ∧ '"' :: Kryptikd.stripComment false rest = u ++ '"' :: b := by
    obtain ⟨u, hw, hu⟩ | ⟨u, hw, hu⟩ := append_eq_append_iff.mp hbody
    · exact ⟨u, hw, hu⟩
    · cases u with
      | nil => exact ⟨[], by simpa using hw.symm, hu.symm⟩
      | cons c u =>
        obtain rfl := head_eq_of_cons_eq hu
        exact absurd (hw ▸ mem_append_right w mem_cons_self) hfirst
  have hslash1 : '\\' ∉ w1 := fun h => hslash (mem_append_left u h)
  rw [stripComment_closes hfirst hslash1, map_ok] at hs'
  obtain ⟨s2, hs2, rfl⟩ := hs'
  rw [trimEnd_append_cons (by decide), readBasicString_closes hfirst hslash1] at hread
  cases hread
  cases u with
  | nil => rw [append_nil]
  | cons c u =>
    -- behind the first quote only blanks may stand, so there is no further one
    have hblank : ∀ d ∈ s2, isWhitespace d = true := by
      obtain ⟨b2, hb2, hs2'⟩ := exists_trimEnd s2
      rw [hs2']
      intro d hd
      obtain hd | hd := mem_append.mp hd
      · exact htail d hd
      · exact hb2 d hd
    have hplain : Unquoted s2 := unquoted_of_whitespace hblank
    rw [(stripComment_eq_ok hplain).mp hs2, cons_append, cons.injEq] at hu
    have hin : '"' ∈ s2 := by
      rw [hu.2]
      simp
    exact absurd rfl (hplain '"' hin).1

lemma unescape_eq_slash {e : Char} (h : unescape e = .ok '\\') : e = '\\' := by
  unfold unescape at h
  split at h
  all_goals first
    | rfl
    | exact absurd h (by decide)
    | cases h

/-- What the first character of a string's body makes of it. -/
inductive BasicString (tail : List Char) : List Char → List Char → Prop
  | quote : BasicString tail ('"' :: tail) []
  | escape {e c : Char} {y t : List Char} (he : unescape e = .ok c) (hy : readBasicString y = .ok (t, tail)) :
      BasicString tail ('\\' :: e :: y) (c :: t)
  | plain {c : Char} {y t : List Char} (hquote : c ≠ '"') (hslash : c ≠ '\\') (hy : readBasicString y = .ok (t, tail)) :
      BasicString tail (c :: y) (c :: t)

lemma readBasicString_ok (h : readBasicString y = .ok (t, tail)) : BasicString tail y t := by
  cases y with
  | nil => cases h
  | cons c y =>
    by_cases hquote : c = '"'
    · subst hquote
      cases h
      exact .quote
    by_cases hslash : c = '\\'
    · subst hslash
      cases y with
      | nil => cases h
      | cons e y =>
        obtain ⟨c, he, h⟩ := bind_ok.mp h
        obtain ⟨⟨t', tail'⟩, hy, h⟩ := bind_ok.mp h
        cases pure_ok.mp h
        exact .escape he hy
    · rw [readBasicString_cons hquote hslash] at h
      obtain ⟨⟨t', tail'⟩, hy, h⟩ := bind_ok.mp h
      cases pure_ok.mp h
      exact .plain hquote hslash hy

lemma readBasicString_ne (n : ℕ) {k more : List Char} (hy : y <+: k ++ '"' :: more)
    (h : readBasicString y = .ok (t, tail)) : t ≠ replicate (n + 1) '\\' ++ k := by
  induction hm : k.length using Nat.strong_induction_on generalizing k n y t with
  | _ m ih =>
    intro ht
    cases readBasicString_ok h with
    | quote => cases ht
    | plain _ hslash _ => exact hslash (head_eq_of_cons_eq ht)
    | @escape e c y t he hread =>
      obtain ⟨rfl, ht'⟩ := cons.inj ht
      obtain rfl := unescape_eq_slash he
      match k with
      | [] => exact absurd (cons_prefix_cons.mp hy).1 (by decide)
      | [d] => exact absurd (cons_prefix_cons.mp (cons_prefix_cons.mp hy).2).1 (by decide)
      | d :: d' :: k =>
        obtain ⟨hd, hy'⟩ := cons_prefix_cons.mp hy
        obtain ⟨hd', hy''⟩ := cons_prefix_cons.mp hy'
        have hshort : k.length < m := by
          simp only [length_cons] at hm
          omega
        refine ih k.length hshort (n + 1) hy'' hread rfl ?_
        rw [ht', ← hd, ← hd', replicate_succ', replicate_succ']
        simp

lemma readBasicString_slash {k more : List Char} (hy : y <+: k ++ '"' :: more) (h : readBasicString y = .ok (t, tail))
    (hslash : '\\' ∈ k) : t ≠ k := by
  induction k generalizing y t with
  | nil => exact absurd hslash not_mem_nil
  | cons d k ih =>
    intro ht
    cases readBasicString_ok h with
    | quote => cases ht
    | @plain c y t _ hne hread =>
      obtain ⟨hd, hy'⟩ := cons_prefix_cons.mp hy
      have hrest : '\\' ∈ k := mem_of_ne_of_mem (hd ▸ Ne.symm hne) hslash
      exact ih hy' hread hrest (tail_eq_of_cons_eq ht)
    | @escape e c y t he hread =>
      obtain ⟨hd, hy'⟩ := cons_prefix_cons.mp hy
      obtain ⟨hc, ht'⟩ := cons.inj ht
      obtain rfl := unescape_eq_slash (hc.trans hd.symm ▸ he)
      cases k with
      | nil => exact absurd (cons_prefix_cons.mp hy').1 (by decide)
      | cons d' k =>
        obtain ⟨hd', hy''⟩ := cons_prefix_cons.mp hy'
        exact readBasicString_ne 0 hy'' hread (hd' ▸ ht')

lemma reading_body (h : Reading w v) (hslash : '\\' ∈ w) :
    ∃ y more tail, y <+: w ++ '"' :: more ∧ readBasicString y = .ok (v, tail) := by
  obtain ⟨lineno, raw, s, hk, hs, hv⟩ := h
  obtain ⟨-, hword⟩ | hquoted := Kryptikd.tomlValue_ok hk
  · exact absurd rfl (not_quote_of_word (hword '\\' hslash)).2.2
  obtain ⟨body, b, s', tail, hbody, -, hs', hread, -⟩ := reading_quoted hquoted hs hv
  obtain ⟨t, ht⟩ := kryptikd_prefix true body
  obtain ⟨b', -, hs1⟩ := exists_trimEnd s'
  refine ⟨trimEnd s', b ++ t, tail, ?_, hread⟩
  have hwhole : body = w ++ '"' :: (b ++ t) := by
    rw [← ht, hbody]
    simp
  rw [← hwhole]
  exact List.IsPrefix.trans ⟨b', hs1.symm⟩ (stripComment_isPrefix hs')

lemma Reading.ne (h : Reading w v) (hslash : '\\' ∈ w) : v ≠ w := by
  obtain ⟨y, more, tail, hy, hread⟩ := reading_body h hslash
  exact readBasicString_slash hy hread hslash

lemma Reading.head_quote (h : Reading ['\\'] v) : v.head? = some '"' := by
  obtain ⟨y, more, tail, hy, hread⟩ := reading_body h mem_cons_self
  cases readBasicString_ok hread with
  | quote => exact absurd (cons_prefix_cons.mp hy).1 (by decide)
  | plain _ hne => exact absurd (cons_prefix_cons.mp hy).1 hne
  | escape he =>
    obtain ⟨-, hy⟩ := cons_prefix_cons.mp hy
    obtain ⟨rfl, -⟩ := cons_prefix_cons.mp hy
    cases he
    rfl

end Kryptik.Zoneid
