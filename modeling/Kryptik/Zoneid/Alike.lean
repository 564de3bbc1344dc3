import Kryptik.Zoneid.Reading

namespace Kryptik.Zoneid

open Lib.Text Lib.Fallible List
open Kryptikd (Settings TomlState Lined fullKey knownKeys)

variable {sections : List Section} {name key v : String} {s k : String}

lemma get_cons (x : Section) (xs : List Section) (s k : String) : Document.get ⟨x :: xs⟩ s k =
      if x.name = s then (x.entries.find? (·.1 = k)).map (·.2) else Document.get ⟨xs⟩ s k := by
  unfold Document.get
  rw [List.find?_cons]
  split_ifs with hname
  · simp only [hname, decide_true, Option.bind_eq_bind, Option.bind_some]
    cases x.entries.find? (·.1 = k) with
    | none | some entry => rfl
  · simp [hname]

lemma get_new (sections : List Section) (name s k : String) :
    Document.get ⟨sections ++ [⟨name, []⟩]⟩ s k = Document.get ⟨sections⟩ s k := by
  induction sections with
  | nil =>
    rw [nil_append, get_cons]
    split_ifs
    · rfl
    · rfl
  | cons x xs ih => rw [cons_append, get_cons, get_cons, ih]

lemma get_set {i : ℕ} {sec : Section} (hnames : (sections.map Section.name).Nodup) (hsec : sections[i]? = some sec)
    (hnew : sec.entries.any (·.1 = key) = false) (s k : String) :
    Document.get ⟨sections.set i { sec with entries := sec.entries ++ [(key, v)] }⟩ s k =
      if s = sec.name ∧ k = key then some v else Document.get ⟨sections⟩ s k := by
  induction sections generalizing i with
  | nil => exact absurd hsec (by simp)
  | cons x xs ih =>
    rw [map_cons, nodup_cons] at hnames
    cases i with
    | zero =>
      obtain rfl : x = sec := by simpa using hsec
      rw [set_cons_zero, get_cons, get_cons]
      by_cases hs : x.name = s
      · rw [if_pos hs, if_pos hs, List.find?_append]
        by_cases hk : k = key
        · have hnone : x.entries.find? (·.1 = k) = none := by
            rw [List.find?_eq_none]
            intro e he
            rw [any_eq_false] at hnew
            simpa [hk] using hnew e he
          rw [hnone, if_pos ⟨hs.symm, hk⟩]
          simp [hk]
        · rw [if_neg (by simp [hk])]
          simp [Ne.symm hk]
      · rw [if_neg hs, if_neg hs, if_neg (by simp [Ne.symm hs])]
    | succ i =>
      rw [set_cons_succ, get_cons, get_cons, ih hnames.2 hsec]
      by_cases hs : x.name = s
      · have hne : s ≠ sec.name := by
          intro h
          apply hnames.1
          rw [hs, h]
          exact mem_map_of_mem (mem_of_getElem? hsec)
        rw [if_pos hs, if_pos hs, if_neg (by simp [hne])]
      · rw [if_neg hs, if_neg hs]

lemma names_set {i : ℕ} {sec : Section} (hsec : sections[i]? = some sec) (entries : List (String × String)) :
    (sections.set i { sec with entries }).map Section.name = sections.map Section.name := by
  obtain ⟨hi, rfl⟩ := List.getElem?_eq_some_iff.mp hsec
  have hlen : i < (sections.map Section.name).length := by rwa [length_map]
  have hname : sections[i].name = (sections.map Section.name)[i] := getElem_map Section.name |>.symm
  rw [map_set, hname, set_getElem_self]

def Match : Option String → Option String → Prop
  | none, none => True
  | some w, some v => Reading w.toList v.toList
  | _, _ => False

/-- What the two readers have read of a file so far. Where the header of `kryptikd`'s section has no quote the
section is `zoneid`'s too; under any other no key is known. -/
structure Alike (st : TomlState) (rd : Reader) : Prop where
  names : (rd.doc.sections.map Section.name).Nodup
  same : ∀ s k : List Char, s ≠ [] → '.' ∉ s →
    Match (st.out.lookup (fullKey s k)) (rd.doc.get (String.ofList s) (String.ofList k))
  dots : '.' ∉ st.sectionName
  outside : st.sectionName = [] → rd.current = none
  inside : st.sectionName ≠ [] → Unquoted st.sectionName →
    ∃ i sec, rd.current = some i ∧ rd.doc.sections[i]? = some sec ∧ sec.name = String.ofList st.sectionName

variable {st st' : TomlState} {rd rd' : Reader} {raw : List Char} {lineno : ℕ}

lemma openSection_spec (rd : Reader) (name : String) (hnames : (rd.doc.sections.map Section.name).Nodup) :
    ((openSection rd name).doc.sections.map Section.name).Nodup ∧
      (∀ s k, (openSection rd name).doc.get s k = rd.doc.get s k) ∧
      ∃ i sec, (openSection rd name).current = some i ∧ (openSection rd name).doc.sections[i]? = some sec ∧
        sec.name = name := by
  unfold openSection
  cases hidx : rd.doc.sections.findIdx? (·.name = name) with
  | some i =>
    obtain ⟨hlt, hname, -⟩ := findIdx?_eq_some_iff_getElem.mp hidx
    exact ⟨hnames, fun _ _ => rfl, i, rd.doc.sections[i], rfl, getElem?_eq_getElem hlt, by simpa using hname⟩
  | none =>
    rw [findIdx?_eq_none_iff] at hidx
    refine ⟨?_, get_new _ _, rd.doc.sections.length, ⟨name, []⟩, rfl, by simp, rfl⟩
    simp only [map_append, map_cons, map_nil]
    refine nodup_append.mpr ⟨hnames, by simp, ?_⟩
    intro a ha b hb
    obtain ⟨sec, hsec, rfl⟩ := mem_map.mp ha
    rw [mem_singleton.mp hb]
    simpa using hidx sec hsec

lemma Alike.blank (h : Alike st rd) (htext : trim (Kryptikd.stripComment false raw) = [])
    (hz : tomlLine rd raw = .ok rd') : Alike st rd' := by
  have hblank := trim_eq_nil.mp htext
  have hplain := unquoted_of_whitespace hblank
  rw [tomlLine, (stripComment_eq_ok hplain).mpr rfl] at hz
  obtain ⟨s, hs, hz⟩ := bind_ok.mp hz
  rw [← Except.ok.inj hs, htext] at hz
  exact Except.ok.inj hz ▸ h

lemma header_ok {rest : List Char} (h : header rd rest = .ok rd') :
    ∃ name, rest = name ++ [']'] ∧ trim name ≠ [] ∧ rd' = openSection rd (String.ofList (trim name)) := by
  unfold header at h
  split_ifs at h
  cases hsuffix : stripSuffix ']' rest with
  | none =>
    rw [hsuffix] at h
    cases h
  | some name =>
    rw [hsuffix] at h
    dsimp only at h
    split_ifs at h with hempty hdot
    exact ⟨name, stripSuffix_eq_some.mp hsuffix, by simpa using hempty, (Except.ok.inj h).symm⟩

lemma Alike.header {name : List Char} (h : Alike st rd)
    (htext : trim (Kryptikd.stripComment false raw) = '[' :: (name ++ [']'])) (hdot : '.' ∉ name)
    (hz : tomlLine rd raw = .ok rd') : Alike { st with sectionName := trim name } rd' := by
  obtain ⟨a, b, ha, hb, hcut, -⟩ := exists_trim (Kryptikd.stripComment false raw)
  rw [htext] at hcut
  obtain ⟨t, ht⟩ := kryptikd_prefix false raw
  obtain ⟨r, hraw⟩ : ∃ r, raw = a ++ '[' :: r := ⟨name ++ [']'] ++ b ++ t, by rw [← ht, hcut]; simp⟩
  have hplain : Plain (a ++ ['[']) := (plain_of_whitespace ha).append (by simp [Plain])
  obtain ⟨s, hs, hz⟩ := bind_ok.mp hz
  -- `zoneid` takes the line for a header too
  obtain ⟨s', rfl⟩ : ∃ s', s = a ++ '[' :: s' := by
    have hraw : raw = (a ++ ['[']) ++ r := by rw [hraw]; simp
    rw [hraw, stripComment_plain hplain, map_ok] at hs
    obtain ⟨s', -, rfl⟩ := hs
    exact ⟨s', by simp⟩
  rw [trim_blank_cons ha (by decide)] at hz
  obtain ⟨name', hname', hne, rfl⟩ := header_ok hz
  obtain ⟨hnames, hget, i, sec, hcurrent, hsec, hsecname⟩ :=
    openSection_spec rd (String.ofList (trim name')) h.names
  -- without quotes it reads the same name
  have hsame : Unquoted (trim name) → trim name' = trim name := by
    intro hunquoted
    have hwhole : Unquoted (Kryptikd.stripComment false raw) := by
      apply Unquoted.of_trim
      rw [htext]
      have hopen : Unquoted ['['] := by simp [Unquoted]
      have hclose : Unquoted [']'] := by simp [Unquoted]
      exact hopen.append (hunquoted.of_trim.append hclose)
    rw [(stripComment_eq_ok hwhole).mpr rfl] at hs
    rw [Except.ok.inj hs, trim_blank_cons ha (by decide), cons.injEq] at htext
    rw [htext.2] at hname'
    rw [append_cancel_right hname']
  refine ⟨hnames, ?_, ?_, ?_, ?_⟩
  · intro s k hs hdots
    rw [hget]
    exact h.same s k hs hdots
  · intro hin
    exact hdot (mem_of_mem_trim hin)
  · intro hnil
    have hnil : trim name = [] := hnil
    have hunquoted : Unquoted (trim name) := hnil ▸ fun c hc => absurd hc not_mem_nil
    exact absurd ((hsame hunquoted).trans hnil) hne
  · intro _ hunquoted
    exact ⟨i, sec, hcurrent, hsec, by rw [hsecname, hsame hunquoted]⟩

lemma keyValue_ok {key value : List Char} (h : keyValue rd key value = .ok rd') :
    ∃ v, parseValue value = .ok v ∧ addEntry rd (String.ofList key) (String.ofList v) = .ok rd' := by
  unfold keyValue at h
  split_ifs at h
  obtain ⟨v, hv, h⟩ := bind_ok.mp h
  exact ⟨v, hv, h⟩

lemma addEntry_ok {i : ℕ} {sec : Section} {key v : String} (hcurrent : rd.current = some i)
    (hsec : rd.doc.sections[i]? = some sec) (h : addEntry rd key v = .ok rd') :
    sec.entries.any (·.1 = key) = false ∧ rd'.current = some i ∧
      rd'.doc.sections = rd.doc.sections.set i { sec with entries := sec.entries ++ [(key, v)] } := by
  simp only [addEntry, hcurrent, hsec] at h
  split_ifs at h with hdup
  cases h
  exact ⟨Bool.eq_false_iff.mpr hdup, rfl, rfl⟩

lemma tomlLine_entry {p r : List Char} (hplain : Plain p) (hp : '=' ∉ p) (hhead : (trimStart p).head? ≠ some '[')
    (hz : tomlLine rd (p ++ '=' :: r) = .ok rd') :
    ∃ s v, stripComment none r = .ok s ∧ parseValue (trim s) = .ok v ∧
      addEntry rd (String.ofList (trim p)) (String.ofList v) = .ok rd' := by
  have heq : Plain (p ++ ['=']) := hplain.append (by simp [Plain])
  have hraw : p ++ '=' :: r = (p ++ ['=']) ++ r := by simp
  rw [tomlLine, hraw, stripComment_plain heq] at hz
  obtain ⟨s', hs', hz⟩ := bind_ok.mp hz
  obtain ⟨s, hs, rfl⟩ := map_ok.mp hs'
  rw [append_assoc, singleton_append] at hz
  have htrim : trim (p ++ '=' :: s) = trimStart p ++ '=' :: trimEnd s := by
    rw [trim, trimStart_append_cons (by decide), trimEnd_append_cons (by decide)]
  have hstripped : stripPrefix '[' (trim (p ++ '=' :: s)) = none := by
    rw [htrim]
    cases hstart : trimStart p with
    | nil => simp [stripPrefix]
    | cons c rest =>
      rw [hstart] at hhead
      have hc : c ≠ '[' := by simpa using hhead
      simp [stripPrefix, hc]
  dsimp only at hz
  rw [hstripped, splitOnce_trim (by decide) hp, if_neg (by simp [htrim])] at hz
  dsimp only at hz
  rw [trim_trimStart, trim_trimEnd] at hz
  obtain ⟨v, hv, hadd⟩ := keyValue_ok hz
  exact ⟨s, v, hs, hv, hadd⟩

lemma known_plain {sectionName key : List Char} (h : fullKey sectionName key ∈ knownKeys) :
    Plain key ∧ Unquoted sectionName := by
  have hall : knownKeys.all (fun f => f.toList.all (fun c => c ≠ '"' && c ≠ '\'' && c ≠ '#')) = true := by decide +kernel
  have hchars := all_eq_true.mp (all_eq_true.mp hall _ h)
  rw [fullKey, String.toList_ofList] at hchars
  split_ifs at hchars with hempty
  · obtain rfl := isEmpty_iff.mp hempty
    exact ⟨fun c hc => by simpa [and_assoc] using hchars c hc, fun c hc => absurd hc not_mem_nil⟩
  · refine ⟨fun c hc => ?_, fun c hc => ?_⟩
    · simpa [and_assoc] using hchars c (by simp [hc])
    · have := hchars c (by simp [hc])
      simp only [Bool.and_eq_true, decide_eq_true_eq] at this
      exact this.1

lemma fullKey_inj {s s' k k' : List Char} (hs : s ≠ []) (hs' : s' ≠ []) (hdot : '.' ∉ s) (hdot' : '.' ∉ s') :
    fullKey s k = fullKey s' k' ↔ s = s' ∧ k = k' := by
  rw [fullKey, fullKey, if_neg (by simpa using hs), if_neg (by simpa using hs'), String.ofList_inj]
  constructor
  · exact split_inj hdot hdot'
  · rintro ⟨rfl, rfl⟩
    rfl

lemma Alike.entry {key value w : List Char} (h : Alike st rd)
    (htext : trim (Kryptikd.stripComment false raw) = key ++ '=' :: value) (hkey : '=' ∉ key)
    (hhead : (key ++ '=' :: value).head? ≠ some '[') (hvalue : Kryptikd.tomlValue lineno (trim value) = .ok w)
    (hnew : st.out.lookup (fullKey st.sectionName (trim key)) = none)
    (hknown : fullKey st.sectionName (trim key) ∈ knownKeys) (hz : tomlLine rd raw = .ok rd') :
    Alike { st with out := st.out ++ [(fullKey st.sectionName (trim key), String.ofList w)] } rd' := by
  obtain ⟨hplain, hunquoted⟩ := known_plain hknown
  obtain ⟨a, b, ha, hb, hcut, htrimmed⟩ := exists_trim (Kryptikd.stripComment false raw)
  rw [htext] at hcut htrimmed
  obtain ⟨t, ht⟩ := kryptikd_prefix false raw
  have hraw : raw = (a ++ key) ++ '=' :: (value ++ b ++ t) := by
    rw [← ht, hcut]
    simp
  have hp : Plain (a ++ key) := (plain_of_whitespace ha).append hplain.of_trim
  have hpeq : '=' ∉ a ++ key := by
    intro hin
    obtain hin | hin := mem_append.mp hin
    · exact (not_quote_of_whitespace (ha '=' hin)).2.2.2.2 rfl
    · exact hkey hin
  have hstart : (trimStart (a ++ key)).head? ≠ some '[' := by
    cases key with
    | nil => simp [trimStart_eq_nil ha]
    | cons c key =>
      rw [trimStart_append_cons (htrimmed.head c rfl), trimStart_eq_nil ha]
      exact hhead
  rw [hraw] at hz
  obtain ⟨s, v, hs, hv, hadd⟩ := tomlLine_entry hp hpeq hstart hz
  rw [trim_append_left ha] at hadd
  have hreading : Reading w v := by
    refine ⟨lineno, value ++ b ++ t, s, ?_, hs, hv⟩
    have hcutrest : Kryptikd.stripComment false (value ++ b ++ t) = value ++ b := by
      have heq : Plain (a ++ key ++ ['=']) := hp.append (by simp [Plain])
      have hraw' : raw = (a ++ key ++ ['=']) ++ (value ++ b ++ t) := by
        rw [hraw]
        simp
      rw [hraw', kryptikd_plain heq] at hcut
      rw [← append_right_inj (a ++ key ++ ['=']), hcut]
      simp
    rw [hcutrest, trim_append_right hb]
    exact hvalue
  have hne : st.sectionName ≠ [] := by
    intro hnil
    rw [addEntry, h.outside hnil] at hadd
    cases hadd
  obtain ⟨i, sec, hcurrent, hsec, hname⟩ := h.inside hne hunquoted
  obtain ⟨hfresh, hcurrent', hsections⟩ := addEntry_ok hcurrent hsec hadd
  have hget : ∀ x y, rd'.doc.get x y =
      if x = sec.name ∧ y = String.ofList (trim key) then some (String.ofList v) else rd.doc.get x y := by
    intro x y
    rw [← get_set (v := String.ofList v) h.names hsec hfresh x y, ← hsections]
  refine ⟨?_, ?_, h.dots, fun hnil => absurd hnil hne, fun _ _ => ?_⟩
  · rw [hsections, names_set hsec]
    exact h.names
  · intro s k hs hdots
    rw [hget, lookup_append, hname]
    by_cases hsame : s = st.sectionName ∧ k = trim key
    · obtain ⟨rfl, rfl⟩ := hsame
      rw [hnew]
      simpa [Match] using hreading
    · have hother : fullKey s k ≠ fullKey st.sectionName (trim key) := by
        rw [Ne, fullKey_inj hs hne hdots h.dots]
        exact hsame
      rw [if_neg (by rw [String.ofList_inj, String.ofList_inj]; exact hsame)]
      have hlast : [(fullKey st.sectionName (trim key), String.ofList w)].lookup (fullKey s k) = none := by
        simp [List.lookup, beq_eq_false_iff_ne.mpr hother]
      rw [hlast, Option.or_none]
      exact h.same s k hs hdots
  · refine ⟨i, { sec with entries := sec.entries ++ [(String.ofList (trim key), String.ofList v)] }, hcurrent', ?_, hname⟩
    rw [hsections, getElem?_set_self]
    exact (List.getElem?_eq_some_iff.mp hsec).1

lemma Alike.line (h : Alike st rd) (hk : Lined lineno raw st st') (hz : tomlLine rd raw = .ok rd')
    (hknown : ∀ e ∈ st'.out, e.1 ∈ knownKeys) : Alike st' rd' := by
  cases hk with
  | blank htext => exact h.blank htext hz
  | header htext _ hdot => exact h.header htext hdot hz
  | entry htext hkey hhead _ hvalue hnew =>
    exact h.entry htext hkey hhead hvalue hnew (hknown _ (mem_append_right _ mem_cons_self)) hz

lemma foldlM_mem {ls : List (List Char × ℕ)} (h : ls.foldlM Kryptikd.tomlLine st = .ok st') :
    ∀ e ∈ st.out, e ∈ st'.out := by
  intro e he
  refine foldlM_ok (P := fun st => e ∈ st.out) ?_ he h
  intro line _ st st' he hline
  exact (Kryptikd.tomlLine_ok hline).mem e he

lemma Alike.run {ls : List (List Char × ℕ)} (h : Alike st rd) (hk : ls.foldlM Kryptikd.tomlLine st = .ok st')
    (hz : ls.foldlM (fun st line => (tomlLine st line.1).mapError (TomlError.mk line.2)) rd = .ok rd')
    (hknown : ∀ e ∈ st'.out, e.1 ∈ knownKeys) : Alike st' rd' := by
  induction ls generalizing st rd with
  | nil =>
    obtain rfl := pure_ok.mp hk
    obtain rfl := pure_ok.mp hz
    exact h
  | cons line ls ih =>
    obtain ⟨st1, hline, hk⟩ := bind_ok.mp hk
    obtain ⟨rd1, hline', hz⟩ := bind_ok.mp hz
    have hknown1 : ∀ e ∈ st1.out, e.1 ∈ knownKeys := fun e he => hknown e (foldlM_mem hk e he)
    exact ih (h.line (Kryptikd.tomlLine_ok hline) (mapError_ok.mp hline') hknown1) hk hz

lemma match_of_parse {text : String} {kv : Settings} {doc : Document} (hk : Kryptikd.parseFlatToml text = .ok kv)
    (hz : parse text = .ok doc) (hknown : ∀ e ∈ kv, e.1 ∈ knownKeys) {s k : String} (hs : s.toList ≠ [])
    (hdot : '.' ∉ s.toList) : Match (kv.lookup (fullKey s.toList k.toList)) (doc.get s k) := by
  obtain ⟨st, hfold, hk⟩ := bind_ok.mp hk
  obtain rfl := pure_ok.mp hk
  obtain ⟨rd, hfold', hz⟩ := bind_ok.mp hz
  obtain rfl := pure_ok.mp hz
  have hstart : Alike ⟨[], []⟩ ⟨⟨[]⟩, none⟩ :=
    ⟨by simp, fun _ _ _ _ => trivial, not_mem_nil, fun _ => rfl, fun h => absurd rfl h⟩
  have hend := (hstart.run hfold hfold' hknown).same s.toList k.toList hs hdot
  rwa [String.ofList_toList, String.ofList_toList] at hend

end Kryptik.Zoneid
