import Kryptik.Kryptikd.ZoneSound

namespace Kryptik.Kryptikd

open Lib.Text Lib.Fallible List

def fullKey (sectionName key : List Char) : String :=
  String.ofList (if sectionName.isEmpty then key else sectionName ++ '.' :: key)

/-- Whether a string is open behind `cs`. -/
def inString (start : Bool) (cs : List Char) : Bool := cs.foldl (fun q c => if c = '"' then !q else q) start

/-- `cut` is `raw` up to a `#` that stands outside quotes, or all of it if there is none. -/
def Uncommented (start : Bool) (raw cut : List Char) : Prop :=
  (∀ a b, cut = a ++ '#' :: b → inString start a = true) ∧
    (raw = cut ∨ ∃ b, raw = cut ++ '#' :: b ∧ inString start cut = false)

lemma uncommented_cons {start : Bool} {c : Char} {raw cut : List Char} (hc : ¬ (c = '#' ∧ start = false)) :
    Uncommented start (c :: raw) (c :: cut) ↔ Uncommented (if c = '"' then !start else start) raw cut := by
  refine and_congr ⟨fun h a b hab => h (c :: a) b (by rw [hab]; rfl), fun h a b hab => ?_⟩ (by simp [inString])
  cases a with
  | nil =>
    rw [not_and, Bool.not_eq_false] at hc
    exact hc (cons.inj hab).1
  | cons x a =>
    cases hab
    exact h a b rfl

lemma stripComment_eq {start : Bool} {raw cut : List Char} :
    stripComment start raw = cut ↔ Uncommented start raw cut := by
  induction raw generalizing start cut with
  | nil =>
    constructor
    · rintro rfl
      exact ⟨by simp [stripComment], Or.inl rfl⟩
    · rintro ⟨-, h | ⟨b, h, -⟩⟩
      · exact h
      · simp at h
  | cons c raw ih =>
    by_cases hc : c = '#' ∧ start = false
    · obtain ⟨rfl, rfl⟩ := hc
      constructor
      · rintro rfl
        exact ⟨by simp [stripComment], Or.inr ⟨raw, rfl, rfl⟩⟩
      · rintro ⟨hin, hraw⟩
        cases cut with
        | nil => rfl
        | cons d cut =>
          have hd : '#' = d := by
            obtain h | ⟨b, h, -⟩ := hraw
            · exact (cons.inj h).1
            · exact (cons.inj h).1
          exact absurd (hin [] cut (by rw [hd]; rfl)) (by decide)
    · have hstrip : stripComment start (c :: raw) = c :: stripComment (if c = '"' then !start else start) raw := by
        rw [stripComment]
        split_ifs with hquote hhash
        · rfl
        · exact absurd (by simpa using hhash) hc
        · rfl
      rw [hstrip]
      cases cut with
      | nil =>
        refine ⟨nofun, ?_⟩
        rintro ⟨-, h | ⟨b, h, hstart⟩⟩
        · cases h
        · exact absurd ⟨(cons.inj h).1, hstart⟩ hc
      | cons d cut =>
        by_cases hd : c = d
        · subst hd
          rw [uncommented_cons hc, ← ih, cons.injEq, and_iff_right rfl]
        · refine ⟨fun h => absurd (cons.inj h).1 hd, ?_⟩
          rintro ⟨-, h | ⟨b, h, -⟩⟩
          · exact absurd (cons.inj h).1 hd
          · exact absurd (cons.inj h).1 hd

inductive Lined (lineno : ℕ) (raw : List Char) (st : TomlState) : TomlState → Prop
  | blank (htext : trim (stripComment false raw) = []) : Lined lineno raw st st
  | header {name : List Char} (htext : trim (stripComment false raw) = '[' :: (name ++ [']'])) (hopen : '[' ∉ name)
      (hdot : '.' ∉ name) : Lined lineno raw st { st with sectionName := trim name }
  | entry {key value v : List Char} (htext : trim (stripComment false raw) = key ++ '=' :: value) (hkey : '=' ∉ key)
      (hhead : (key ++ '=' :: value).head? ≠ some '[') (harray : (trim value).head? ≠ some '[')
      (hvalue : tomlValue lineno (trim value) = .ok v)
      (hnew : st.out.lookup (fullKey st.sectionName (trim key)) = none) :
      Lined lineno raw st { st with out := st.out ++ [(fullKey st.sectionName (trim key), String.ofList v)] }

variable {st st' : TomlState} {raw : List Char} {lineno : ℕ} {kv : Settings}

lemma tomlLine_ok (h : tomlLine st (raw, lineno) = .ok st') : Lined lineno raw st st' := by
  unfold tomlLine at h
  by_cases hempty : (trim (stripComment false raw)).isEmpty = true
  · rw [if_pos hempty] at h
    cases h
    exact .blank (isEmpty_iff.mp hempty)
  rw [if_neg hempty] at h
  cases hstripped : stripPrefix '[' (trim (stripComment false raw)) with
  | some rest =>
    rw [hstripped] at h
    dsimp only at h
    cases hsuffix : stripSuffix ']' rest with
    | none =>
      rw [hsuffix] at h
      cases h
    | some name =>
      rw [hsuffix] at h
      dsimp only at h
      split_ifs at h with hnested
      cases h
      simp only [Bool.or_eq_true, contains_iff_mem, not_or] at hnested
      refine .header ?_ hnested.1 hnested.2
      rw [stripPrefix_eq_some.mp hstripped, stripSuffix_eq_some.mp hsuffix]
  | none =>
    rw [hstripped] at h
    cases hsplit : splitOnce '=' (trim (stripComment false raw)) with
    | none =>
      rw [hsplit] at h
      cases h
    | some pair =>
      obtain ⟨key, value⟩ := pair
      rw [hsplit] at h
      dsimp only at h
      by_cases harray : (trim value).head? = some '['
      · rw [if_pos harray] at h
        cases h
      rw [if_neg harray] at h
      obtain ⟨v, hv, h⟩ := bind_ok.mp h
      have hfull : (String.ofList (if st.sectionName.isEmpty then trim key else st.sectionName ++ '.' :: trim key)) =
        fullKey st.sectionName (trim key) := rfl
      rw [hfull] at h
      obtain ⟨htext, hkey⟩ := splitOnce_eq_some.mp hsplit
      by_cases hdup : (st.out.lookup (fullKey st.sectionName (trim key))).isSome = true
      · rw [if_pos hdup] at h
        cases h
      rw [if_neg hdup] at h
      cases h
      refine .entry htext hkey ?_ harray hv (Option.not_isSome_iff_eq_none.mp hdup)
      intro hhead
      rw [← htext] at hhead
      obtain ⟨rest, hrest⟩ := List.head?_eq_some_iff.mp hhead
      rw [stripPrefix_eq_some.mpr hrest] at hstripped
      cases hstripped

lemma tomlValue_cases {x w : List Char} (h : tomlValue lineno x = .ok w) :
    (w = x ∧ (x.all isAsciiDigit = true ∨ x = "true".toList ∨ x = "false".toList)) ∨ x = '"' :: (w ++ ['"']) := by
  unfold tomlValue at h
  cases hstripped : stripPrefix '"' x with
  | some inner =>
    rw [hstripped] at h
    dsimp only at h
    cases hsuffix : stripSuffix '"' inner with
    | none =>
      rw [hsuffix] at h
      cases h
    | some text =>
      rw [hsuffix] at h
      cases h
      right
      rw [stripPrefix_eq_some.mp hstripped, stripSuffix_eq_some.mp hsuffix]
  | none =>
    rw [hstripped] at h
    split_ifs at h with hbare
    cases h
    exact .inl ⟨rfl, by simpa [or_assoc] using hbare⟩

lemma tomlValue_ok {x w : List Char} (h : tomlValue lineno x = .ok w) :
    (w = x ∧ ∀ c ∈ w, isAsciiAlphanumeric c = true) ∨ x = '"' :: (w ++ ['"']) := by
  refine (tomlValue_cases h).imp_left fun ⟨hw, hword⟩ => ⟨hw, ?_⟩
  subst hw
  obtain hdigit | rfl | rfl := hword
  · intro d hd
    simp [isAsciiAlphanumeric, all_eq_true.mp hdigit d hd]
  · exact all_eq_true.mp (by decide : "true".toList.all isAsciiAlphanumeric = true)
  · exact all_eq_true.mp (by decide : "false".toList.all isAsciiAlphanumeric = true)

def Settings.Single (kv : Settings) : Prop := ∀ e ∈ kv, kv.lookup e.1 = some e.2

lemma Settings.Single.append (h : kv.Single) {key v : String} (hnew : kv.lookup key = none) :
    Settings.Single (kv ++ [(key, v)]) := by
  intro e he
  rw [lookup_append]
  obtain he | he := mem_append.mp he
  · rw [h e he]
    rfl
  · obtain rfl := mem_singleton.mp he
    rw [hnew]
    simp

lemma Lined.single (h : Lined lineno raw st st') (hs : st.out.Single) : Settings.Single st'.out := by
  cases h with
  | blank | header => exact hs
  | entry _ _ _ _ _ hnew => exact hs.append hnew

lemma Lined.mem (h : Lined lineno raw st st') : ∀ e ∈ st.out, e ∈ st'.out := by
  cases h with
  | blank | header => exact fun _ h => h
  | entry => exact fun e he => mem_append_left _ he

lemma parseFlatToml_single {text : String} (h : parseFlatToml text = .ok kv) : kv.Single := by
  obtain ⟨st, hfold, h⟩ := bind_ok.mp h
  obtain rfl := pure_ok.mp h
  refine foldlM_ok (P := fun st => Settings.Single st.out) ?_ (by simp [Settings.Single]) hfold
  intro line _ st st' hs hline
  exact (tomlLine_ok hline).single hs

/-- The settings a zone was read from, no key of them twice. -/
structure Zone.Settled (kv : Settings) (z : Zone) : Prop extends z.ReadFrom kv where
  single : kv.Single

lemma Zone.fromStr_settled {text : String} {z : Zone} (h : fromStr text = .ok z) :
    ∃ kv, parseFlatToml text = .ok kv ∧ z.Settled kv := by
  obtain ⟨kv, hkv, h⟩ := fromStr_ok h
  exact ⟨kv, hkv, h, parseFlatToml_single hkv⟩

end Kryptik.Kryptikd
