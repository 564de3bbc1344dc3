import Kryptik.Kryptikd.UpdateSigned

namespace Kryptik.Kryptikd.Update

open Lib.Text Lib.Prog Lib.Fallible Lib.History List Option

variable {name : String} {io : PutIo} {offset len held : ℕ} {e : Entry}

variable {m m' m0 : Machine} {version : String} {files : List Entry}

lemma readFileLine_size {out out' : List Entry} {line : List Char} (hout : ∀ e ∈ out, e.size ≤ u64Max)
    (h : readFileLine out line = .ok out') : ∀ e ∈ out', e.size ≤ u64Max := by
  unfold readFileLine at h
  split at h
  · cases h
    exact hout
  split at h
  · cases h
  split at h
  · cases h
  rename_i n hn
  obtain ⟨⟨⟩, -, h⟩ := bind_ok.mp h
  split_ifs at h
  obtain rfl := pure_ok.mp h
  intro e he
  obtain he | he := mem_append.mp he
  · exact hout e he
  · obtain rfl := mem_singleton.mp he
    have hle := (filter_eq_some_iff.mp hn).2
    simpa using hle

lemma size_of_verified {s : Store} (h : s.verifiedFiles version = some files) : ∀ e ∈ files, e.size ≤ u64Max := by
  obtain ⟨text, -, htext⟩ := bind_eq_some_iff.mp h
  unfold listedFor at htext
  split_ifs at htext
  obtain ⟨out, hout, hok⟩ := bind_ok.mp (toOption_eq_some.mp htext)
  split_ifs at hok
  obtain rfl := pure_ok.mp hok
  exact foldlM_ok (fun _ _ _ _ hc hline => readFileLine_size hc hline) (by simp) hout

lemma mayPut_listed_iff (hnames : ListedNames files) (he : e ∈ files) (hsize : e.size ≤ u64Max) :
    mayPut (some files) e.name offset len held = .ok () ↔ offset = held ∧ 1 ≤ len ∧ offset + len ≤ e.size := by
  constructor
  · intro h
    obtain ⟨hoffset, hfit⟩ := mayPut_listed hnames h
    exact ⟨hoffset, mayPut_pos h, hfit e he rfl⟩
  · intro h
    obtain ⟨rfl, hlen, hfit⟩ := h
    have hfind : files.find? (fun e' => e'.name = e.name) = some e := by
      cases hfind : files.find? (fun e' => e'.name = e.name) with
      | none => simpa using List.find?_eq_none.mp hfind e he
      | some e' =>
        have hname : e'.name = e.name := by simpa using List.find?_some hfind
        rw [inj_on_of_nodup_map hnames.2 (mem_of_find?_eq_some hfind) he hname]
    have hpair := hnames.1 e he
    unfold mayPut
    simp only [hfind]
    rw [if_neg (by omega), if_neg (by omega), if_neg (by simpa using hpair), if_neg (by simp),
      if_neg (by omega)]

lemma mem_stillNeeded {held : String → ℕ} {o : ℕ} :
    (name, o) ∈ stillNeeded files held ↔ ∃ e ∈ files, e.name = name ∧ held e.name = o ∧ o < e.size := by
  simp only [stillNeeded, mem_filterMap, ite_none_right_eq_some, Option.some.injEq, Prod.mk.injEq]
  constructor
  · intro ⟨e, he, hlt, hname, ho⟩
    exact ⟨e, he, hname, ho, ho ▸ hlt⟩
  · intro ⟨e, he, hname, ho, hlt⟩
    exact ⟨e, he, ho ▸ hlt, hname, ho⟩

lemma stillNeeded_eq_nil {held : String → ℕ} : stillNeeded files held = [] ↔ ∀ e ∈ files, e.size ≤ held e.name := by
  simp [stillNeeded]

def Store.Holds (s : Store) (version : String) (e : Entry) : Prop :=
  ∃ stage bytes, s.incoming version = some stage ∧ stage.files e.name = some bytes ∧ bytes.length = e.size

/-- What a poll asks for, what a put takes and what an update is applied from. -/
structure Store.Agrees (s : Store) (version : String) : Prop where
  listed : ∀ channel role running now p base need files,
    outstanding s channel role running now = some (p, base, need) → s.verifiedFiles version = some files →
    (∀ name o, (name, o) ∈ need → ∃ e ∈ files, e.name = name ∧ o < e.size) ∧
      ∀ e ∈ files, ∀ offset len, mayPut (some files) e.name offset len (s.held version e.name) = .ok () ↔
        (e.name, offset) ∈ need ∧ 1 ≤ len ∧ len ≤ e.size - offset
  pair : ∀ channel role running now p base need,
    outstanding s channel role running now = some (p, base, need) → s.verifiedFiles version = none →
    ∀ name o, (name, o) ∈ need → (name = "manifest" ∨ name = "manifest.sig") ∧ o = 0 ∧
      ∀ len, 1 ≤ len → len ≤ manifestMax → mayPut none name o len (s.held version name) = .ok ()
  complete : completeStage s = .ok version ↔
    ∃ files, s.verifiedFiles version = some files ∧ ∀ e ∈ files, s.Holds version e

variable {s : Store}

lemma outstanding_need {channel role running base : String} {now : ℤ} {p : Pointer}
    {need : List (String × ℕ)} (hw : s.wantedVersion = some version)
    (h : outstanding s channel role running now = some (p, base, need)) :
    need = match s.verifiedFiles version with
      | some files => stillNeeded files (s.held version)
      | none => manifestNeeded s version := by
  obtain ⟨v, hv, h⟩ := bind_eq_some_iff.mp h
  obtain rfl : version = v := Option.some.inj (hw.symm.trans hv)
  obtain ⟨p', -, h⟩ := bind_eq_some_iff.mp h
  by_cases hold : versionCmp version running ≠ .gt
  · rw [if_pos hold] at h
    cases h
  rw [if_neg hold] at h
  obtain ⟨base', -, h⟩ := bind_eq_some_iff.mp h
  cases hv : s.verifiedFiles version with
  | some files =>
    rw [hv] at h
    simp only [Option.some.injEq, Prod.mk.injEq] at h
    exact h.2.2.symm
  | none =>
    rw [hv] at h
    simp only [ite_none_left_eq_some, Option.some.injEq, Prod.mk.injEq] at h
    exact h.2.2.2.symm

lemma poll_of_put (hw : s.wantedVersion = some version) {channel role running base : String} {now : ℤ} {p : Pointer}
    {need : List (String × ℕ)} (h : outstanding s channel role running now = some (p, base, need))
    (hv : s.verifiedFiles version = some files) (he : e ∈ files) :
    mayPut (some files) e.name offset len (s.held version e.name) = .ok () ↔
      (e.name, offset) ∈ need ∧ 1 ≤ len ∧ len ≤ e.size - offset := by
  have hnames := listedNames_of_verified hv
  have hneed := outstanding_need hw h
  rw [hv] at hneed
  rw [mayPut_listed_iff hnames he (size_of_verified hv e he), hneed, mem_stillNeeded]
  constructor
  · intro ⟨hoffset, hlen, hfit⟩
    exact ⟨⟨e, he, rfl, hoffset.symm, by omega⟩, hlen, by omega⟩
  · intro ⟨⟨e', he', hname, hoffset, hlt⟩, hlen, hfit⟩
    obtain rfl := inj_on_of_nodup_map hnames.2 he' he hname
    exact ⟨hoffset.symm, hlen, by omega⟩

lemma mem_manifestNeeded {o : ℕ} (h : (name, o) ∈ manifestNeeded s version) :
    (name = "manifest" ∨ name = "manifest.sig") ∧ o = 0 := by
  simp only [manifestNeeded, List.mem_map, List.mem_filter, Prod.mk.injEq] at h
  obtain ⟨n, ⟨hn, -⟩, rfl, rfl⟩ := h
  exact ⟨by simpa using hn, rfl⟩

lemma mayPut_pair (hname : name = "manifest" ∨ name = "manifest.sig") (hlen : 1 ≤ len) (hmax : len ≤ manifestMax) :
    mayPut none name 0 len held = .ok () := by
  have hword : manifestMax ≤ u64Max := by decide
  unfold mayPut
  rw [if_neg (by omega), if_neg (by omega), if_pos hname, if_neg (by simp), if_neg (by omega)]

lemma completeStage_iff (hw : s.wantedVersion = some version) : completeStage s = .ok version ↔
    ∃ files, s.verifiedFiles version = some files ∧ ∀ e ∈ files, e.size ≤ s.held version e.name := by
  unfold completeStage
  rw [hw]
  dsimp only
  cases hv : s.verifiedFiles version with
  | none => simp
  | some files =>
    simp only [Option.some.injEq, exists_eq_left', ← stillNeeded_eq_nil]
    cases stillNeeded files (s.held version) with
    | nil | cons need rest => simp

lemma holds_held (h : s.Holds version e) : s.held version e.name = e.size := by
  obtain ⟨stage, bytes, hstage, hbytes, hlength⟩ := h
  simp [Store.held, hstage, hbytes, hlength]

lemma holds_of_held (hpos : 0 < e.size) (h : s.held version e.name = e.size) : s.Holds version e := by
  cases hstage : s.incoming version with
  | none => simp [Store.held, hstage] at h; omega
  | some stage =>
    cases hbytes : stage.files e.name with
    | none => simp [Store.held, hstage, hbytes] at h; omega
    | some bytes =>
      simp only [Store.held, hstage, hbytes, bind_some, map_some, getD_some] at h
      exact ⟨stage, bytes, hstage, hbytes, h⟩

lemma held_le {m : Machine} (h : Staged m) (hw : m.store.wantedVersion = some version)
    (hv : m.store.verifiedFiles version = some files) (he : e ∈ files) :
    m.store.held version e.name ≤ e.size := by
  cases hstage : m.store.incoming version with
  | none => simp [Store.held, hstage]
  | some stage =>
    obtain ⟨hlength, hle, -⟩ := h.before hw hv he hstage
    omega

lemma completeStage_holds_iff {m : Machine} (h : Staged m)
    (hw : m.store.wantedVersion = some version) (hv : m.store.verifiedFiles version = some files) :
    (completeStage m.store = .ok version ↔ ∀ e ∈ files, m.store.Holds version e) ↔
      (∀ e ∈ files, 0 < e.size) ∨ ∃ e ∈ files, m.store.held version e.name < e.size := by
  have hcomplete : completeStage m.store = .ok version ↔ ∀ e ∈ files, e.size ≤ m.store.held version e.name := by
    simp [completeStage_iff hw, hv]
  rw [hcomplete]
  constructor
  · intro hagree
    by_cases hshort : ∃ e ∈ files, m.store.held version e.name < e.size
    · exact .inr hshort
    · push Not at hshort
      refine .inl fun e he => ?_
      obtain ⟨stage, bytes, hstage, hbytes, -⟩ := hagree.mp hshort e he
      exact (h.carried hw hv he hstage hbytes).1
  · intro hsizes
    constructor
    · intro hheld e he
      obtain hpos | ⟨e', he', hlt⟩ := hsizes
      · exact holds_of_held (hpos e he) (Nat.le_antisymm (held_le h hw hv he) (hheld e he))
      · exact absurd (hheld e' he') (by omega)
    · intro hholds e he
      rw [holds_held (hholds e he)]

theorem stage_agrees_iff (store : Store) (hempty : store.incoming = fun _ => none) (turns : List Turn)
    (hturns : ∀ t ∈ turns, t.Steady) (version : String) :
    let s := (turns.foldl System.step (System.start store)).machine.store
    s.wantedVersion = some version → (s.Agrees version ↔ ∀ files, s.verifiedFiles version = some files →
      (∀ e ∈ files, 0 < e.size) ∨ ∃ e ∈ files, s.held version e.name < e.size) := by
  intro s hw
  have hstart : Guarded (System.start store).checking (System.start store).machine :=
    ⟨Staged.empty hempty, fun _ _ hk => by cases hk⟩
  have hstaged := (run_guarded turns (System.start store) hstart hturns).2.staged
  constructor
  · intro hagrees files hv
    refine (completeStage_holds_iff hstaged hw hv).mp ?_
    rw [hagrees.complete]
    simp [s, hv]
  · intro hsizes
    refine ⟨?_, ?_, ?_⟩
    · intro channel role running now p base need files hneed hv
      refine ⟨?_, fun e he offset len => poll_of_put hw hneed hv he⟩
      intro name o ho
      rw [outstanding_need hw hneed, hv] at ho
      obtain ⟨e, he, hname, -, hlt⟩ := mem_stillNeeded.mp ho
      exact ⟨e, he, hname, hlt⟩
    · intro channel role running now p base need hneed hv name o ho
      rw [outstanding_need hw hneed, hv] at ho
      obtain ⟨hname, rfl⟩ := mem_manifestNeeded ho
      exact ⟨hname, rfl, fun len hlen hmax => mayPut_pair hname hlen hmax⟩
    · cases hv : s.verifiedFiles version with
      | none => simp [completeStage_iff hw, hv]
      | some files =>
        have hiff := (completeStage_holds_iff hstaged hw hv).mpr (hsizes files hv)
        simpa using hiff

theorem stage_agrees_small : (∀ t ∈ smallRelease, t.Steady) ∧
      (smallRelease.foldl System.step (System.start smallStore)).machine.store.Agrees "2" := by
  have hsteady : ∀ t ∈ smallRelease, t.Steady := by
    simp [smallRelease, Turn.Steady, PutIo.Reads, PutIo.fine]
  obtain ⟨hwanted, hlisted, -⟩ := run_smallRelease
  refine ⟨hsteady, (stage_agrees_iff smallStore rfl smallRelease hsteady "2" hwanted).mpr ?_⟩
  intro files hfiles
  cases hlisted.symm.trans hfiles
  exact .inl (by simp)

/-- The pair of version 2, and its check: one file of no byte is listed. -/
def hollowRelease : List Turn :=
  [.put .fine ⟨1010000000, "manifest", 0, [1]⟩, .put .fine ⟨1010000000, "manifest.sig", 0, [1]⟩,
    .settle .fine (.ok (String.ofList ("version: 2\nsha256: ".toList ++ List.replicate 64 '0' ++
      "\nfile 0 a\n".toList))) 9]

lemma run_hollowRelease :
    let s := (hollowRelease.foldl System.step (System.start smallStore)).machine.store
    s.wantedVersion = some "2" ∧ s.verifiedFiles "2" = some [⟨"a", 0⟩] ∧ completeStage s = .ok "2" ∧
      ((s.incoming "2").bind fun stage => stage.files "a") = none := by
  decide +kernel

/-- The update is said to be whole without a file that no put can bring. -/
theorem hollow_release_complete : (∀ t ∈ hollowRelease, t.Steady) ∧
      let s := (hollowRelease.foldl System.step (System.start smallStore)).machine.store
      completeStage s = .ok "2" ∧ s.verifiedFiles "2" = some [⟨"a", 0⟩] ∧ ¬ s.Holds "2" ⟨"a", 0⟩ ∧
        ∀ offset len held, mayPut (s.verifiedFiles "2") "a" offset len held ≠ .ok () := by
  refine ⟨by simp [hollowRelease, Turn.Steady, PutIo.Reads, PutIo.fine], ?_⟩
  obtain ⟨-, hlisted, hcomplete, hmissing⟩ := run_hollowRelease
  refine ⟨hcomplete, hlisted, ?_, ?_⟩
  · rintro ⟨stage, bytes, hstage, hbytes, _⟩
    rw [hstage, bind_some, hbytes] at hmissing
    cases hmissing
  · intro offset len held hput
    rw [hlisted] at hput
    have hlen := mayPut_pos hput
    obtain ⟨-, hfit⟩ := mayPut_listed (listedNames_of_verified hlisted) hput
    have hsize := hfit ⟨"a", 0⟩ (mem_singleton_self _) rfl
    simp only at hsize
    omega

end Kryptik.Kryptikd.Update
