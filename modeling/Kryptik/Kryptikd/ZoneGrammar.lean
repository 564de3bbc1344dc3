import Kryptik.Kryptikd.ZoneText

namespace Kryptik.Kryptikd

open Lib.Text Lib.Fallible List

/-- What a line says. -/
inductive Line
  | blank
  | header (name : List Char)
  | entry (key value : List Char)

/-- A value and its text: a quoted string, an integer or a boolean. -/
inductive Written : List Char → List Char → Prop
  | quoted {v : List Char} : '"' ∉ v → Written ('"' :: (v ++ ['"'])) v
  | integer {v : List Char} : v ≠ [] → v.all isAsciiDigit = true → Written v v
  | boolean {v : List Char} : v = "true".toList ∨ v = "false".toList → Written v v

/-- A value as the reader takes it: any quotes within the outer two, and no digits at all for an integer. -/
inductive Taken : List Char → List Char → Prop
  | quoted {v : List Char} : Taken ('"' :: (v ++ ['"'])) v
  | bare {v : List Char} : v.all isAsciiDigit = true ∨ v = "true".toList ∨ v = "false".toList → Taken v v

/-- The keys and the values a grammar of lines allows. -/
structure Form where
  key : List Char → Prop
  value : List Char → List Char → Prop

def documented : Form := ⟨fun key => key ≠ [] ∧ '.' ∉ key, Written⟩

def lenient : Form := ⟨fun _ => True, Taken⟩

/-- The grammar of a line without its comment and the blanks around it. -/
inductive Line.Reads (f : Form) : List Char → Line → Prop
  | blank : Reads f [] .blank
  | header {name : List Char} : '[' ∉ name → '.' ∉ name → Reads f ('[' :: (name ++ [']'])) (.header (trim name))
  | entry {key value v : List Char} : '=' ∉ key → key.head? ≠ some '[' → f.key (trim key) →
      f.value (trim value) v → Reads f (key ++ '=' :: value) (.entry (trim key) v)

def Line.Of (f : Form) (raw : List Char) (l : Line) : Prop :=
  ∃ cut, Uncommented false raw cut ∧ Reads f (trim cut) l

/-- What the lines set, by section and key, from section `s` on. -/
def entries : List Char → List Line → List ((List Char × List Char) × List Char)
  | _, [] => []
  | s, .blank :: ls => entries s ls
  | _, .header name :: ls => entries name ls
  | s, .entry key v :: ls => ((s, key), v) :: entries s ls

def setting (e : (List Char × List Char) × List Char) : String × String :=
  (fullKey e.1.1 e.1.2, String.ofList e.2)

/-- Every line is in the grammar, no key is given twice in a section, and `kv` holds what they set. -/
def Documented (text : String) (kv : Settings) : Prop :=
  ∃ ls, List.Forall₂ (Line.Of documented) (lines text.toList) ls ∧ ((entries [] ls).map Prod.fst).Nodup ∧
    kv = (entries [] ls).map setting

/-- A line that even the lenient grammar does not have, or a name `section.key` that two lines set. -/
def Faulty (text : String) : Prop :=
  ∀ ls, List.Forall₂ (Line.Of lenient) (lines text.toList) ls → ¬ ((entries [] ls).map fun e => (setting e).1).Nodup

/-- If a line is a key and a value, the key is neither empty nor dotted, and the value not empty and without a quote
inside. -/
def Strict (raw : List Char) : Prop :=
  ∀ key value, trim (stripComment false raw) = key ++ '=' :: value → '=' ∉ key → key.head? ≠ some '[' →
    trim key ≠ [] ∧ '.' ∉ trim key ∧ trim value ≠ [] ∧ '"' ∉ (trim value).tail.dropLast

variable {st st' : TomlState} {raw : List Char} {lineno : ℕ} {l : Line}

lemma Taken.value {x v : List Char} (h : Taken x v) (lineno : ℕ) :
    tomlValue lineno x = .ok v ∧ x.head? ≠ some '[' := by
  cases h with
  | quoted =>
    have hsuffix : stripSuffix '"' (v ++ ['"']) = some v := stripSuffix_eq_some.mpr rfl
    simp [tomlValue, stripPrefix, hsuffix]
  | bare hv =>
    obtain hall | rfl | rfl := hv
    · cases x with
      | nil => exact ⟨rfl, by decide⟩
      | cons c cs =>
        have hc := all_eq_true.mp hall c mem_cons_self
        have hhead : c ≠ '"' ∧ c ≠ '[' := by
          refine ⟨?_, ?_⟩ <;>
          · rintro rfl
            exact absurd hc (by decide)
        simp [tomlValue, stripPrefix, hhead, hall]
    · exact ⟨rfl, by decide⟩
    · exact ⟨rfl, by decide⟩

lemma Written.taken {x v : List Char} (h : Written x v) : Taken x v := by
  cases h with
  | quoted => exact .quoted
  | integer _ hall => exact .bare (.inl hall)
  | boolean hv => exact .bare (.inr hv)

lemma Line.Of.lenient (h : l.Of documented raw) : l.Of lenient raw := by
  obtain ⟨cut, hcut, h⟩ := h
  refine ⟨cut, hcut, ?_⟩
  generalize trim cut = t at h ⊢
  cases h with
  | blank => exact .blank
  | header hopen hdot => exact .header hopen hdot
  | entry hkey hhead _ hv => exact .entry hkey hhead trivial hv.taken

lemma Line.Reads.line {t : List Char} (h : Line.Reads Kryptikd.lenient t l) (ht : trim (stripComment false raw) = t) :
    tomlLine st (raw, lineno) = match l with
      | .blank => .ok st
      | .header name => .ok { st with sectionName := name }
      | .entry key v =>
        if (st.out.lookup (fullKey st.sectionName key)).isSome then
          .error (.syntaxFault lineno (.duplicateKey (fullKey st.sectionName key)))
        else .ok { st with out := st.out ++ [setting ((st.sectionName, key), v)] } := by
  unfold tomlLine
  rw [ht]
  cases h with
  | blank => rfl
  | @header name hopen hdot =>
    have hsuffix : stripSuffix ']' (name ++ [']']) = some name := stripSuffix_eq_some.mpr rfl
    simp [stripPrefix, hsuffix, hopen, hdot]
  | @entry key value v hkey hhead _ hv =>
    obtain ⟨hvalue, harray⟩ := hv.value lineno
    have hempty : (key ++ '=' :: value).isEmpty = false := by simp
    have hprefix : stripPrefix '[' (key ++ '=' :: value) = none := by
      rw [Option.eq_none_iff_forall_ne_some]
      intro rest hrest
      have hrest := stripPrefix_eq_some.mp hrest
      cases key with
      | nil => exact absurd (cons.inj hrest).1 (by decide)
      | cons c key => exact hhead (congrArg List.head? hrest)
    simp only [hempty, hprefix, splitOnce_append hkey, if_neg harray, hvalue]
    rfl

lemma Lined.reads (h : Lined lineno raw st st') : ∃ l, Line.Of lenient raw l := by
  refine exists_imp.mpr (fun l hl => ⟨l, _, stripComment_eq.mp rfl, hl⟩) ?_
  cases h with
  | blank htext => exact ⟨.blank, htext ▸ .blank⟩
  | @header name htext hopen hdot => exact ⟨.header (trim name), htext ▸ .header hopen hdot⟩
  | @entry key value v htext hkey hhead _ hvalue =>
    refine ⟨.entry (trim key) v, htext ▸ .entry hkey ?_ trivial ?_⟩
    · intro h
      rw [List.head?_append, h] at hhead
      exact hhead rfl
    · obtain ⟨rfl, hword⟩ | hquoted := tomlValue_cases hvalue
      · exact .bare hword
      · exact hquoted ▸ .quoted

lemma Line.Of.documented (h : l.Of Kryptikd.lenient raw) (hs : Strict raw) : l.Of documented raw := by
  obtain ⟨cut, hcut, h⟩ := h
  refine ⟨cut, hcut, ?_⟩
  rw [Strict, stripComment_eq.mpr hcut] at hs
  generalize trim cut = t at h hs ⊢
  cases h with
  | blank => exact .blank
  | header hopen hdot => exact .header hopen hdot
  | @entry key value v hkey hhead _ hv =>
    obtain ⟨hne, hdot, hfull, hquote⟩ := hs key value rfl hkey hhead
    refine .entry hkey hhead ⟨hne, hdot⟩ ?_
    generalize trim value = x at hv hfull hquote
    cases hv with
    | quoted => exact .quoted (by simpa using hquote)
    | bare hword =>
      obtain hall | hbool := hword
      · exact .integer hfull hall
      · exact .boolean hbool

lemma Written.strict {x v : List Char} (h : Written x v) : x ≠ [] ∧ '"' ∉ x.tail.dropLast := by
  cases h with
  | quoted hv => simpa using hv
  | integer hne hall =>
    refine ⟨hne, fun hq => ?_⟩
    have hdigit := all_eq_true.mp hall _ (mem_of_mem_tail (dropLast_subset _ hq))
    exact absurd hdigit (by decide)
  | boolean hv =>
    obtain rfl | rfl := hv
    · decide
    · decide

lemma Line.Of.strict (h : l.Of Kryptikd.documented raw) : Strict raw := by
  obtain ⟨cut, hcut, h⟩ := h
  intro key value htext hkey hhead
  rw [stripComment_eq.mpr hcut] at htext
  generalize trim cut = t at h htext
  cases h with
  | blank => exact absurd htext.symm (by simp)
  | header =>
    cases key with
    | nil => exact absurd (cons.inj htext).1 (by decide)
    | cons c key => exact absurd (congrArg List.head? htext).symm hhead
  | entry hkey' _ hword hv =>
    obtain ⟨rfl, rfl⟩ := split_inj hkey' hkey htext
    exact ⟨hword.1, hword.2, hv.strict⟩

lemma fullKey_undotted {s s' k k' : List Char} (hs : '.' ∉ s) (hs' : '.' ∉ s') (hk : '.' ∉ k) (hk' : '.' ∉ k')
    (h : fullKey s k = fullKey s' k') : (s, k) = (s', k') := by
  rw [fullKey, fullKey, String.ofList_inj] at h
  cases s with
  | nil =>
    cases s' with
    | nil => exact congrArg _ h
    | cons c s' =>
      have h : k = (c :: s') ++ '.' :: k' := h
      exact absurd (by simp [h]) hk
  | cons c s =>
    cases s' with
    | nil =>
      have h : (c :: s) ++ '.' :: k = k' := h
      exact absurd (by simp [← h]) hk'
    | cons c' s' =>
      obtain ⟨hs, hk⟩ := split_inj hs hs' h
      rw [hs, hk]

variable {raws : List (List Char)} {ls : List Line}

lemma entries_undotted (h : List.Forall₂ (Line.Of documented) raws ls) {s : List Char} (hs : '.' ∉ s) :
    ∀ e ∈ entries s ls, '.' ∉ e.1.1 ∧ '.' ∉ e.1.2 := by
  induction h generalizing s with
  | nil => exact nofun
  | cons hof _ ih =>
    obtain ⟨cut, -, hr⟩ := hof
    generalize trim cut = t at hr
    cases hr with
    | blank => exact ih hs
    | header _ hdot => exact ih fun h => hdot (mem_of_mem_trim h)
    | entry _ _ hword => exact forall_mem_cons.mpr ⟨⟨hs, hword.2⟩, ih hs⟩

lemma keys_nodup (h : List.Forall₂ (Line.Of documented) raws ls) :
    ((entries [] ls).map fun e => (setting e).1).Nodup ↔ ((entries [] ls).map Prod.fst).Nodup := by
  have hkeys : ((entries [] ls).map fun e => (setting e).1) =
      ((entries [] ls).map Prod.fst).map fun e => fullKey e.1 e.2 := by
    rw [map_map]
    rfl
  rw [hkeys]
  refine ⟨List.Nodup.of_map _, fun hn => .map_on ?_ hn⟩
  simp only [mem_map]
  rintro _ ⟨e, he, rfl⟩ _ ⟨e', he', rfl⟩ hsame
  obtain ⟨hs, hk⟩ := entries_undotted h (s := []) (by simp) e he
  obtain ⟨hs', hk'⟩ := entries_undotted h (s := []) (by simp) e' he'
  exact fullKey_undotted hs hs' hk hk' hsame

lemma foldlM_reads (h : List.Forall₂ (Line.Of lenient) raws ls) (st : TomlState) (n : ℕ)
    (hst : (st.out.map Prod.fst).Nodup) (kv : Settings) :
    (∃ st', (raws.zipIdx n).foldlM tomlLine st = .ok st' ∧ st'.out = kv) ↔
      (kv.map Prod.fst).Nodup ∧ kv = st.out ++ (entries st.sectionName ls).map setting := by
  induction h generalizing st n with
  | nil =>
    constructor
    · rintro ⟨st', h, rfl⟩
      obtain rfl := pure_ok.mp h
      exact ⟨hst, (append_nil _).symm⟩
    · rintro ⟨-, rfl⟩
      exact ⟨st, rfl, (append_nil _).symm⟩
  | @cons raw l raws ls hof _ ih =>
    obtain ⟨cut, hcut, hr⟩ := hof
    rw [zipIdx_cons, foldlM_cons, hr.line (congrArg trim (stripComment_eq.mpr hcut))]
    cases l with
    | blank => exact ih st (n + 1) hst
    | header name => exact ih { st with sectionName := name } (n + 1) hst
    | entry key v =>
      have hkv : st.out ++ (entries st.sectionName (.entry key v :: ls)).map setting =
          (st.out ++ [setting ((st.sectionName, key), v)]) ++ (entries st.sectionName ls).map setting :=
        append_cons ..
      have hlookup : (st.out.lookup (fullKey st.sectionName key)).isSome = true ↔
          fullKey st.sectionName key ∈ st.out.map Prod.fst := by
        rw [lookup_isSome_iff, mem_map]
        exact exists_congr fun p => and_congr_right fun _ => by rw [beq_iff_eq, eq_comm]
      have hfirst : ((st.out ++ [setting ((st.sectionName, key), v)]).map Prod.fst).Nodup ↔
          fullKey st.sectionName key ∉ st.out.map Prod.fst := by
        rw [map_append, map_singleton, ← concat_eq_append, nodup_concat, and_iff_left hst]
        rfl
      dsimp only
      rw [hkv, if_congr hlookup rfl rfl]
      split_ifs with hdup
      · constructor
        · rintro ⟨_, h, _⟩
          cases h
        · rintro ⟨hn, rfl⟩
          rw [map_append] at hn
          exact absurd hdup (hfirst.mp hn.of_append_left)
      · exact ih { st with out := st.out ++ [setting ((st.sectionName, key), v)] } (n + 1) (hfirst.mpr hdup)

lemma exists_forall₂ {n : ℕ} (h : (raws.zipIdx n).foldlM tomlLine st = .ok st') :
    ∃ ls, List.Forall₂ (Line.Of lenient) raws ls := by
  induction raws generalizing n st with
  | nil => exact ⟨[], .nil⟩
  | cons raw raws ih =>
    obtain ⟨st1, hline, h⟩ := bind_ok.mp h
    obtain ⟨l, hl⟩ := (tomlLine_ok hline).reads
    obtain ⟨ls, hls⟩ := ih h
    exact ⟨l :: ls, .cons hl hls⟩

lemma strict_of_forall₂ (h : List.Forall₂ (Line.Of documented) raws ls) : ∀ raw ∈ raws, Strict raw := by
  induction h with
  | nil => exact nofun
  | cons hof _ ih => exact forall_mem_cons.mpr ⟨hof.strict, ih⟩

lemma documented_of_strict (h : List.Forall₂ (Line.Of lenient) raws ls) (hs : ∀ raw ∈ raws, Strict raw) :
    List.Forall₂ (Line.Of documented) raws ls := by
  induction h with
  | nil => exact .nil
  | cons hof _ ih =>
    obtain ⟨hraw, hs⟩ := forall_mem_cons.mp hs
    exact .cons (hof.documented hraw) (ih hs)

lemma parseFlatToml_ok {text : String} {kv : Settings} : parseFlatToml text = .ok kv ↔
    ∃ ls, List.Forall₂ (Line.Of lenient) (lines text.toList) ls ∧
      ((entries [] ls).map fun e => (setting e).1).Nodup ∧ kv = (entries [] ls).map setting := by
  have hparse : parseFlatToml text = .ok kv ↔
      ∃ st', ((lines text.toList).zipIdx 1).foldlM tomlLine ⟨[], []⟩ = .ok st' ∧ st'.out = kv := by
    rw [parseFlatToml, bind_ok]
    simp [pure_ok]
  have hread : ∀ ls, List.Forall₂ (Line.Of lenient) (lines text.toList) ls → (parseFlatToml text = .ok kv ↔
      ((entries [] ls).map fun e => (setting e).1).Nodup ∧ kv = (entries [] ls).map setting) := by
    intro ls hls
    rw [hparse, foldlM_reads hls ⟨[], []⟩ 1 nodup_nil]
    refine and_congr_left fun hkv => ?_
    rw [hkv, nil_append, map_map]
    rfl
  constructor
  · intro h
    obtain ⟨st, hfold, -⟩ := hparse.mp h
    obtain ⟨ls, hls⟩ := exists_forall₂ hfold
    exact ⟨ls, hls, (hread ls hls).mp h⟩
  · rintro ⟨ls, hls, h⟩
    exact (hread ls hls).mpr h

lemma Documented.parsed {text : String} {kv : Settings} (h : Documented text kv) :
    parseFlatToml text = .ok kv := by
  obtain ⟨ls, hls, hnodup, hkv⟩ := h
  exact parseFlatToml_ok.mpr ⟨ls, hls.imp fun _ _ => Line.Of.lenient, (keys_nodup hls).mpr hnodup, hkv⟩

/-- The reader accepts the texts of its grammar and returns what their lines set. It accepts no other text just when
the lines are strict or the text is faulty all the same. -/
theorem parseFlatToml_documented (text : String) : (∀ kv, parseFlatToml text = .ok kv ↔ Documented text kv) ↔
      (∀ raw ∈ lines text.toList, Strict raw) ∨ Faulty text := by
  constructor
  · intro h
    refine or_iff_not_imp_right.mpr fun hfault => ?_
    unfold Faulty at hfault
    push Not at hfault
    obtain ⟨ls, hls, hnodup⟩ := hfault
    obtain ⟨ls', hls', -⟩ := (h _).mp (parseFlatToml_ok.mpr ⟨ls, hls, hnodup, rfl⟩)
    exact strict_of_forall₂ hls'
  · refine fun h kv => ⟨fun hkv => ?_, Documented.parsed⟩
    obtain ⟨ls, hls, hnodup, hkv⟩ := parseFlatToml_ok.mp hkv
    obtain hstrict | hfault := h
    · have hls := documented_of_strict hls hstrict
      exact ⟨ls, hls, (keys_nodup hls).mp hnodup, hkv⟩
    · exact absurd hnodup (hfault ls hls)

/-- A key without a value is no integer, and is accepted for one. -/
theorem valueless_accepted : parseFlatToml "name =" = .ok [("name", "")] ∧ ∀ kv, ¬ Documented "name =" kv := by
  refine ⟨by rfl, fun kv hd => ?_⟩
  obtain ⟨ls, hls, -⟩ := hd
  have hstrict := strict_of_forall₂ hls "name =".toList (by decide) "name ".toList [] (by decide) (by decide) (by decide)
  exact hstrict.2.2.1 rfl

def heading (s raw : List Char) : List Char :=
  match trim (stripComment false raw) with
  | '[' :: rest => trim rest.dropLast
  | _ => s

/-- A line of `raws`, which start in section `s`, has `value` behind the key of the setting `full`. -/
inductive Given (full : String) (value : List Char) : List Char → List (List Char) → Prop
  | here {s key raw : List Char} {raws : List (List Char)} : trim (stripComment false raw) = key ++ '=' :: value →
      '=' ∉ key → key.head? ≠ some '[' → fullKey s (trim key) = full → Given full value s (raw :: raws)
  | there {s raw : List Char} {raws : List (List Char)} : Given full value (heading s raw) raws →
      Given full value s (raw :: raws)

variable {full : String} {s value key : List Char}

lemma given_skip (h : ∀ key value, trim (stripComment false raw) = key ++ '=' :: value → key.head? = some '[') :
    Given full value s (raw :: raws) ↔ Given full value (heading s raw) raws := by
  refine ⟨fun hg => ?_, .there⟩
  cases hg with
  | here htext _ hhead => exact absurd (h _ _ htext) hhead
  | there hg => exact hg

lemma given_entry (ht : trim (stripComment false raw) = key ++ '=' :: value) (hkey : '=' ∉ key)
    (hhead : key.head? ≠ some '[') {x : List Char} :
    Given full x s (raw :: raws) ↔ (fullKey s (trim key) = full ∧ value = x) ∨ Given full x s raws := by
  have hheading : heading s raw = s := by
    unfold heading
    rw [ht]
    cases key with
    | nil => rfl
    | cons c key =>
      split
      next h => exact absurd (congrArg List.head? h) hhead
      · rfl
  constructor
  · intro hg
    cases hg with
    | here ht' hkey' _ hfull =>
      obtain ⟨rfl, rfl⟩ := split_inj hkey hkey' (ht.symm.trans ht')
      exact .inl ⟨hfull, rfl⟩
    | there hg => exact .inr (hheading ▸ hg)
  · rintro (⟨hfull, rfl⟩ | hg)
    · exact .here ht hkey hhead hfull
    · exact .there (hheading.symm ▸ hg)

lemma exists_given {P Q : List Char → Prop} (hPQ : ∀ x v, Taken (trim x) v → (P x ↔ Q v))
    (h : List.Forall₂ (Line.Of lenient) raws ls) :
    (∃ x, Given full x s raws ∧ P x) ↔ ∃ e ∈ entries s ls, (setting e).1 = full ∧ Q e.2 := by
  induction h generalizing s with
  | nil =>
    constructor
    · rintro ⟨_, h, -⟩
      cases h
    · rintro ⟨_, h, -⟩
      cases h
  | @cons raw l raws ls hof _ ih =>
    obtain ⟨cut, hcut, hr⟩ := hof
    have hcut := congrArg trim (stripComment_eq.mpr hcut)
    generalize trim cut = t at hr hcut
    cases hr with
    | blank =>
      have hheading : heading s raw = s := by simp [heading, hcut]
      have hskip : ∀ key value, trim (stripComment false raw) = key ++ '=' :: value → key.head? = some '[' := by
        simp [hcut]
      simp only [given_skip hskip, hheading]
      exact ih
    | @header name _ _ =>
      have hskip : ∀ key value, trim (stripComment false raw) = key ++ '=' :: value → key.head? = some '[' := by
        intro key value h
        rw [hcut] at h
        cases key with
        | nil => exact absurd (cons.inj h).1 (by decide)
        | cons c key => exact congrArg some (cons.inj h).1.symm
      have hheading : heading s raw = trim name := by simp [heading, hcut]
      simp only [given_skip hskip, hheading]
      exact ih
    | @entry key value w hkey hhead _ hw =>
      simp only [given_entry hcut hkey hhead, or_and_right, exists_or, and_assoc, exists_and_left, exists_eq_left']
      rw [entries, exists_mem_cons_iff, ih, hPQ value w hw]
      rfl

end Kryptik.Kryptikd
