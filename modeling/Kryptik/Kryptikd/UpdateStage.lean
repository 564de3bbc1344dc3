import Kryptik.Kryptikd.UpdateSteps

namespace Kryptik.Kryptikd.Update

open Lib.Prog Lib.Fallible List Option Function Store

variable {stage : Stage} {a : PutArgs}

/-- Each byte is the one that some put of the name, into this stage, carried for its place. -/
def Carried (accepted : List Accepted) (version : String) (ino : ℕ) (name : String) (bytes : List UInt8) : Prop :=
  ∀ k b, bytes[k]? = some b → ∃ put ∈ accepted, put.version = version ∧ put.ino = ino ∧
    put.name = name ∧ put.offset ≤ k ∧ put.bytes[k - put.offset]? = some b

lemma Carried.nil (accepted : List Accepted) (version : String) (ino : ℕ) (name : String) :
    Carried accepted version ino name [] := by
  intro k b hb
  simp at hb

lemma Carried.mono {accepted more : List Accepted} {version name : String} {ino : ℕ} {bytes : List UInt8}
    (h : Carried accepted version ino name bytes) : Carried (accepted ++ more) version ino name bytes := by
  intro k b hb
  obtain ⟨put, hput, hrest⟩ := h k b hb
  exact ⟨put, mem_append_left _ hput, hrest⟩

lemma Carried.append {accepted : List Accepted} {old : List UInt8} {put : Accepted}
    (h : Carried accepted put.version put.ino put.name old) (hoffset : put.offset = old.length) (n : ℕ) :
    Carried (accepted ++ [put]) put.version put.ino put.name (old ++ put.bytes.take n) := by
  intro k b hb
  obtain hk | hk := Nat.lt_or_ge k old.length
  · rw [getElem?_append_left hk] at hb
    exact h.mono k b hb
  · rw [getElem?_append_right hk] at hb
    refine ⟨put, by simp, rfl, rfl, rfl, by omega, ?_⟩
    rw [getElem?_take] at hb
    split_ifs at hb
    rwa [hoffset]

/-- What a stage may hold: before a listing the pair alone, behind it nothing of a listed file but what was put,
up to its size, and no file of size 0. -/
def Stage.Sound (accepted : List Accepted) (version : String) (stage : Stage) : Option (List Entry) → Prop
  | none => ∀ name, (stage.files name).isSome → name = "manifest" ∨ name = "manifest.sig"
  | some files => ∀ e ∈ files, ∀ bytes, stage.files e.name = some bytes →
    0 < e.size ∧ bytes.length ≤ e.size ∧ Carried accepted version stage.ino e.name bytes

structure Staged (m : Machine) : Prop where
  fresh : ∀ v stage, m.store.incoming v = some stage → stage.ino < m.store.inodes
  sound : ∀ v stage, m.store.wantedVersion = some v → m.store.incoming v = some stage →
    stage.Sound m.accepted v (m.store.verifiedFiles v)

variable {m : Machine} {version name : String} {files : List Entry}

lemma Staged.of_wanted (hw : m.store.wantedVersion = some version)
    (hfresh : ∀ v stage, m.store.incoming v = some stage → stage.ino < m.store.inodes)
    (hsound : ∀ stage, m.store.incoming version = some stage →
      stage.Sound m.accepted version (m.store.verifiedFiles version)) : Staged m := by
  refine ⟨hfresh, fun v stage hw' hstage => ?_⟩
  obtain rfl : version = v := Option.some.inj (hw.symm.trans hw')
  exact hsound stage hstage

lemma Staged.bare (h : Staged m) (hw : m.store.wantedVersion = some version)
    (hv : m.store.verifiedFiles version = none) (hstage : m.store.incoming version = some stage)
    (hname : (stage.files name).isSome) : name = "manifest" ∨ name = "manifest.sig" := by
  have hsound := h.sound version stage hw hstage
  rw [hv] at hsound
  exact hsound name hname

lemma Staged.carried (h : Staged m) (hw : m.store.wantedVersion = some version)
    (hv : m.store.verifiedFiles version = some files) {e : Entry} (he : e ∈ files) {bytes : List UInt8}
    (hstage : m.store.incoming version = some stage) (hbytes : stage.files e.name = some bytes) :
    0 < e.size ∧ bytes.length ≤ e.size ∧ Carried m.accepted version stage.ino e.name bytes := by
  have hsound := h.sound version stage hw hstage
  rw [hv] at hsound
  exact hsound e he bytes hbytes

lemma Staged.empty (h : m.store.incoming = fun _ => none) : Staged m := by
  constructor <;> simp [h]

lemma makeStage_incoming (s : Store) (version v : String) (h : (s.makeStage version).incoming v = some stage) :
    s.incoming v = some stage ∧ s.inodes ≤ (s.makeStage version).inodes ∨
      v = version ∧ stage = ⟨s.inodes, fun _ => none⟩ ∧ (s.makeStage version).inodes = s.inodes + 1 := by
  unfold Store.makeStage at h ⊢
  split at h
  · exact .inl ⟨h, by simp⟩
  · by_cases hv : v = version
    · subst hv
      simp only [update_self, Option.some.injEq] at h
      exact .inr ⟨rfl, h.symm, by simp⟩
    · simp only [update_of_ne hv] at h
      exact .inl ⟨h, by simp⟩

lemma Staged.makeStage (h : Staged m) (version : String) : Staged (m.edit (Store.makeStage · version)) := by
  refine ⟨?_, ?_⟩
  · intro v stage hstage
    obtain ⟨hold, hle⟩ | ⟨-, rfl, hnext⟩ := makeStage_incoming m.store version v hstage
    · exact Nat.lt_of_lt_of_le (h.fresh v stage hold) hle
    · exact hnext ▸ Nat.lt_succ_self _
  · intro v stage hw hstage
    obtain ⟨hold, -⟩ | ⟨-, rfl, -⟩ := makeStage_incoming m.store version v hstage
    · simpa [Machine.edit] using h.sound v stage (by simpa [Machine.edit] using hw) hold
    · cases (m.edit (Store.makeStage · version)).store.verifiedFiles v <;> simp [Stage.Sound]

lemma setFile_incoming (s : Store) (version name v : String) (bytes : Option (List UInt8))
    (h : (s.setFile version name bytes).incoming v = some stage) :
    v ≠ version ∧ s.incoming v = some stage ∨ v = version ∧ ∃ old, s.incoming version = some old ∧
        stage = { old with files := Function.update old.files name bytes } := by
  unfold setFile at h
  by_cases hv : v = version
  · subst hv
    simp only [update_self, map_eq_some_iff] at h
    obtain ⟨old, hold, rfl⟩ := h
    exact .inr ⟨rfl, old, hold, rfl⟩
  · simp only [update_of_ne hv] at h
    exact .inl ⟨hv, h⟩

lemma Staged.fresh_setFile (h : Staged m) (version name v : String) (bytes : Option (List UInt8))
    (hs : (m.store.setFile version name bytes).incoming v = some stage) :
    stage.ino < m.store.inodes := by
  obtain ⟨-, hold⟩ | ⟨rfl, old, hold, rfl⟩ := setFile_incoming m.store version name v bytes hs
  · exact h.fresh v stage hold
  · exact h.fresh v old hold

lemma Staged.setHalf (h : Staged m) (hw : m.store.wantedVersion = some version)
    (hv : m.store.verifiedFiles version = none) (hname : name = "manifest" ∨ name = "manifest.sig")
    (bytes : Option (List UInt8)) (accepted : List Accepted) :
    Staged ({ m with accepted } |>.edit (setFile · version name bytes)) := by
  refine Staged.of_wanted hw (fun v stage hs => h.fresh_setFile version name v bytes hs) fun stage hs => ?_
  obtain ⟨hne, -⟩ | ⟨-, old, hold, rfl⟩ := setFile_incoming m.store version name version bytes hs
  · exact absurd rfl hne
  change Stage.Sound _ _ _ (m.store.verifiedFiles version)
  rw [hv]
  intro n hn
  by_cases hnn : n = name
  · subst hnn
    exact hname
  · exact h.bare hw hv hold (by simpa [hnn] using hn)

lemma Staged.setListed (h : Staged m) (hw : m.store.wantedVersion = some version)
    (hv : m.store.verifiedFiles version = some files) (bytes : List UInt8) (more : List Accepted)
    (hnew : ∀ e ∈ files, e.name = name → ∀ old, m.store.incoming version = some old →
      0 < e.size ∧ bytes.length ≤ e.size ∧ Carried (m.accepted ++ more) version old.ino name bytes) :
    Staged ({ m with accepted := m.accepted ++ more } |>.edit (setFile · version name (some bytes))) := by
  refine Staged.of_wanted hw (fun v stage hs => h.fresh_setFile version name v _ hs) fun stage hs => ?_
  obtain ⟨hne, -⟩ | ⟨-, old, hold, rfl⟩ := setFile_incoming m.store version name version _ hs
  · exact absurd rfl hne
  change Stage.Sound _ _ _ (m.store.verifiedFiles version)
  rw [hv]
  intro e he got hgot
  by_cases hname : e.name = name
  · subst hname
    obtain rfl : bytes = got := by simpa using hgot
    exact hnew e he rfl old hold
  · obtain ⟨hpos, hle, hcarried⟩ := h.carried hw hv he hold (by simpa [hname] using hgot)
    exact ⟨hpos, hle, hcarried.mono⟩

lemma Staged.before (h : Staged m) (hw : m.store.wantedVersion = some version)
    (hv : m.store.verifiedFiles version = some files) {e : Entry} (he : e ∈ files) {old : Stage}
    (hold : m.store.incoming version = some old) :
    ((old.files e.name).getD []).length = m.store.held version e.name ∧ ((old.files e.name).getD []).length ≤ e.size ∧
      Carried m.accepted version old.ino e.name ((old.files e.name).getD []) := by
  cases hf : old.files e.name with
  | none => simp [Store.held, hold, hf, Carried.nil m.accepted version old.ino e.name]
  | some bytes =>
    obtain ⟨-, hle, hcarried⟩ := h.carried hw hv he hold hf
    exact ⟨by simp [Store.held, hold, hf], hle, hcarried⟩

lemma Staged.open (h : Staged m) (hw : m.store.wantedVersion = some version)
    (hv : m.store.verifiedFiles version = some files) (hpos : ∀ e ∈ files, e.name = name → 0 < e.size) :
    Staged (m.edit (appendFile · version name [])) := by
  have hset : Staged ({ m with accepted := m.accepted ++ [] } |>.edit
      (appendFile · version name [])) := by
    refine h.setListed hw hv _ [] ?_
    rintro e he rfl old hold
    obtain ⟨-, hle, hcarried⟩ := h.before hw hv he hold
    simpa [hold] using And.intro (hpos e he rfl) (And.intro hle hcarried)
  rw [append_nil] at hset
  exact hset

lemma Staged.appendPiece (h : Staged m) (hw : m.store.wantedVersion = some version)
    (hv : m.store.verifiedFiles version = some files) (hheld : m.store.held version a.name = a.offset)
    (hpos : 0 < a.bytes.length)
    (hsize : ∀ e ∈ files, e.name = a.name → a.offset + a.bytes.length ≤ e.size) (k : ℕ) :
    Staged (m.written version a k) := by
  refine h.setListed hw hv _ _ ?_
  intro e he hname old hold
  obtain ⟨hlength, -, hcarried⟩ := h.before hw hv he hold
  rw [hname] at hlength hcarried
  have hfit := hsize e he hname
  refine ⟨by omega, ?_, ?_⟩
  · have htake := length_take_le' k a.bytes
    simp only [hold, bind_some, length_append, hlength, hheld]
    omega
  · let put : Accepted := ⟨version, old.ino, a.name, a.offset, a.bytes⟩
    have hput : Carried (m.accepted ++ [put]) put.version put.ino put.name _ :=
      Carried.append hcarried (hheld.symm.trans hlength.symm) k
    simpa [stageIno, hold] using hput

def Store.Within (s' s : Store) : Prop := ∀ v stage', s'.incoming v = some stage' →
  ∃ stage, s.incoming v = some stage ∧ stage'.ino = stage.ino ∧
    ∀ name bytes, stage'.files name = some bytes → stage.files name = some bytes

lemma Store.Within.refl (s : Store) : s.Within s :=
  fun _ stage hs => ⟨stage, hs, rfl, fun _ _ h => h⟩

lemma Store.Within.trans {s1 s2 s3 : Store} (h1 : s1.Within s2) (h2 : s2.Within s3) : s1.Within s3 := by
  intro v stage1 hs1
  obtain ⟨stage2, hs2, hino2, hfiles2⟩ := h1 v stage1 hs1
  obtain ⟨stage3, hs3, hino3, hfiles3⟩ := h2 v stage2 hs2
  exact ⟨stage3, hs3, hino2.trans hino3, fun name bytes h => hfiles3 name bytes (hfiles2 name bytes h)⟩

lemma Stage.leave_within {stage' : Stage} {version : String} {left : List (String × String)}
    (h : stage.leave version left = some stage') :
    stage'.ino = stage.ino ∧ ∀ name bytes, stage'.files name = some bytes → stage.files name = some bytes := by
  unfold Stage.leave at h
  split_ifs at h
  cases h
  refine ⟨rfl, fun name bytes hname => ?_⟩
  dsimp only at hname
  split_ifs at hname
  exact hname

lemma Store.removeStage_within (s : Store) (version : String) : (s.removeStage version).Within s := by
  intro v stage hs
  by_cases hv : v = version
  · subst hv
    simp [Store.removeStage] at hs
  · simp only [Store.removeStage, update_of_ne hv] at hs
    exact ⟨stage, hs, rfl, fun _ _ h => h⟩

lemma Store.leaveStage_within (s : Store) (version : String) (left : List (String × String)) :
    (s.leaveStage version left).Within s := by
  intro v stage hs
  by_cases hv : v = version
  · subst hv
    simp only [leaveStage, update_self, bind_eq_some_iff] at hs
    obtain ⟨old, hold, hleave⟩ := hs
    exact ⟨old, hold, Stage.leave_within hleave⟩
  · simp only [leaveStage, update_of_ne hv] at hs
    exact ⟨stage, hs, rfl, fun _ _ h => h⟩

lemma Staged.within {m' : Machine} (h : Staged m) (hwithin : m'.store.Within m.store)
    (hwanted : m'.store.wantedVersion = m.store.wantedVersion)
    (hfiles : m'.store.files = m.store.files) (hinodes : m'.store.inodes = m.store.inodes)
    (haccepted : m'.accepted = m.accepted) : Staged m' := by
  refine ⟨fun v stage hs => ?_, fun v stage hw hs => ?_⟩
  · obtain ⟨old, hold, hino, -⟩ := hwithin v stage hs
    rw [hino, hinodes]
    exact h.fresh v old hold
  · obtain ⟨old, hold, hino, hsub⟩ := hwithin v stage hs
    have hsound := h.sound v old (hwanted ▸ hw) hold
    rw [verifiedFiles, hfiles, ← verifiedFiles, haccepted]
    cases hlisting : m.store.verifiedFiles v with
    | none =>
      rw [hlisting] at hsound
      intro name hname
      obtain ⟨bytes, hbytes⟩ := isSome_iff_exists.mp hname
      exact hsound name (by rw [hsub name bytes hbytes]; rfl)
    | some files =>
      rw [hlisting] at hsound
      intro e he bytes hbytes
      rw [hino]
      exact hsound e he bytes (hsub _ _ hbytes)

def ListedNames (files : List Entry) : Prop :=
  (∀ e ∈ files, e.name ≠ "manifest" ∧ e.name ≠ "manifest.sig") ∧ (files.map Entry.name).Nodup

lemma readFileLine_ok {out out' : List Entry} {line : List Char} (hout : ListedNames out)
    (h : readFileLine out line = .ok out') : ListedNames out' := by
  unfold readFileLine at h
  split at h
  · cases h
    exact hout
  split at h
  · cases h
  split at h
  · cases h
  obtain ⟨⟨⟩, -, h⟩ := bind_ok.mp h
  split_ifs at h with hname
  obtain rfl := pure_ok.mp h
  push Not at hname
  obtain ⟨hmanifest, hsig, hnew⟩ := hname
  refine ⟨?_, ?_⟩
  · intro e he
    obtain he | he := mem_append.mp he
    · exact hout.1 e he
    · obtain rfl := mem_singleton.mp he
      exact ⟨hmanifest, hsig⟩
  · rw [map_append, nodup_append]
    refine ⟨hout.2, by simp, ?_⟩
    rintro a ha b hb rfl
    obtain ⟨e, he, hea⟩ := mem_map.mp ha
    refine hnew (any_eq_true.mpr ⟨e, he, ?_⟩)
    simpa [hea] using hb

lemma parseFileList_ok {text : String} (h : parseFileList text = .ok files) : ListedNames files := by
  obtain ⟨out, hout, h⟩ := bind_ok.mp h
  split_ifs at h
  obtain rfl := pure_ok.mp h
  exact foldlM_ok (fun _ _ _ _ hc hline => readFileLine_ok hc hline) ⟨by simp, by simp⟩ hout

lemma mayPut_listed {name : String} {offset len held : ℕ} (hnames : ListedNames files)
    (h : mayPut (some files) name offset len held = .ok ()) :
    offset = held ∧ ∀ e ∈ files, e.name = name → offset + len ≤ e.size := by
  unfold mayPut at h
  cases hfind : files.find? (fun e => e.name = name) with
  | none =>
    simp only [hfind, isSome_some, if_true] at h
    split_ifs at h
  | some e =>
    simp only [hfind, isSome_some, if_true] at h
    split_ifs at h with _ _ _ hoffset hsize
    refine ⟨by simpa using hoffset, fun e' he' hname => ?_⟩
    have hmem := mem_of_find?_eq_some hfind
    have hsame : e.name = name := by simpa using List.find?_some hfind
    obtain rfl := inj_on_of_nodup_map hnames.2 he' hmem (hname.trans hsame.symm)
    omega

lemma mayPut_pos {listed : Option (List Entry)} {offset len held : ℕ}
    (h : mayPut listed name offset len held = .ok ()) : 0 < len := by
  unfold mayPut at h
  split_ifs at h with hlen <;> omega

lemma Staged.list (h : Staged m) (hw : m.store.wantedVersion = some version)
    (hv : m.store.verifiedFiles version = none) {listing : String}
    (hlisted : listedFor listing version = some files)
    (hnames : ListedNames files) : Staged (m.edit (fun s => { s with files := some listing })) := by
  refine Staged.of_wanted hw h.fresh fun stage hs => ?_
  rw [(verifiedFiles_of rfl).trans hlisted]
  intro e he bytes hbytes
  obtain ⟨hne, hne'⟩ := hnames.1 e he
  obtain heq | heq := h.bare hw hv hs (by rw [hbytes]; rfl)
  · exact absurd heq hne
  · exact absurd heq hne'

/-- What is known of a stage while its manifest is checked, since the stage had been cleared
`n` times. -/
structure Checked (m : Machine) (c : Checking) (n : ℕ) : Prop where
  pointer : m.store.storedPointer = some c.pointer
  newest : c.pointer.version = c.version
  old : c.ino < m.store.inodes
  count : n ≤ m.clears
  gone : n < m.clears → m.store.stageIno c.version ≠ some c.ino
  kept : m.store.stageIno c.version = some c.ino →
    m.store.wantedVersion = some c.version ∧ m.store.verifiedFiles c.version = none

def PutIo.Reads (io : PutIo) : Prop := io.readFiles ≠ .failed ∧ io.readHeld ≠ .failed

lemma stageIno_eq_some {s : Store} {version : String} {ino : ℕ} :
    s.stageIno version = some ino ↔ ∃ stage, s.incoming version = some stage ∧ stage.ino = ino := by
  simp [stageIno]

def Unlisted (version : String) (p : Pointer) (m : Machine) : Prop :=
  Staged m ∧ m.store.wantedVersion = some version ∧ m.store.verifiedFiles version = none ∧
    m.store.storedPointer = some p

@[simp] lemma storedPointer_makeStage (s : Store) (version : String) :
    (s.makeStage version).storedPointer = s.storedPointer := by
  unfold Store.makeStage
  split <;> rfl

lemma unlisted_stable (p : Pointer) (hname : name = "manifest" ∨ name = "manifest.sig") :
    StageStable version name (Unlisted version p) where
  make m hm := ⟨hm.1.makeStage version, by simpa [Machine.edit] using hm.2⟩
  clean m hm := ⟨hm.1.setHalf hm.2.1 hm.2.2.1 hname none m.accepted, hm.2⟩
  append m bytes hm := ⟨hm.1.setHalf hm.2.1 hm.2.2.1 hname _ m.accepted, hm.2⟩
  record m accepted hm := by
    refine ⟨.of_wanted hm.2.1 hm.1.fresh fun stage hs => ?_, hm.2⟩
    rw [hm.2.2.1]
    exact fun n hn => hm.1.bare hm.2.1 hm.2.2.1 hs hn
  remove m hm := ⟨hm.1.within (m.store.removeStage_within version) rfl rfl rfl rfl, hm.2⟩
  leave m left hm := ⟨hm.1.within (m.store.leaveStage_within version left) rfl rfl rfl rfl, hm.2⟩

lemma checked_of {c : Checking} {p : Pointer} (h : Unlisted version p m) (hsame : p.version = version)
    (hc : c.Of version p m) : Checked m c m.clears := by
  obtain ⟨rfl, rfl, hino⟩ := hc
  obtain ⟨hstaged, hw, hv, hp⟩ := h
  obtain ⟨stage, hstage, hstageIno⟩ := stageIno_eq_some.mp hino
  exact ⟨hp, hsame, hstageIno ▸ hstaged.fresh c.version stage hstage, Nat.le_refl _,
    fun hlt => absurd hlt (Nat.lt_irrefl _), fun _ => ⟨hw, hv⟩⟩

/-- Behind the listing, and the file as long as the put takes it to be. -/
def Listed (version : String) (files : List Entry) (a : PutArgs) (m : Machine) : Prop :=
  Staged m ∧ m.store.wantedVersion = some version ∧ m.store.verifiedFiles version = some files ∧
    m.store.held version a.name = a.offset

lemma listed_staged {io : PutIo} (h : Listed version files a m) (hpos : 0 < a.bytes.length)
    (hsize : ∀ e ∈ files, e.name = a.name → a.offset + a.bytes.length ≤ e.size) :
    wp (stageBytes io a version true) (fun _ => Staged) (fun _ => Staged) m := by
  have hwritten : ∀ m, Listed version files a m → ∀ k, Staged (m.written version a k) :=
    fun m hm k => hm.1.appendPiece hm.2.1 hm.2.2.1 hm.2.2.2 hpos hsize k
  have hsizes : ∀ e ∈ files, e.name = a.name → 0 < e.size := fun e he hname => by
    have := hsize e he hname
    omega
  refine wp_stageBytes h ?_ ?_ ?_ ?_ ?_ ?_
  · exact fun m hm => ⟨hm.1.makeStage version, by simpa [Machine.edit] using hm.2⟩
  · exact fun hlisted => absurd hlisted (by simp)
  · exact fun m hm => ⟨hm.1.open hm.2.1 hm.2.2.1 hsizes, hm.2.1, hm.2.2.1,
      (held_appendFile_nil m.store version a.name).trans hm.2.2.2⟩
  · exact fun m hm _ => hwritten m hm _
  · exact fun m hm k _ _ _ => hwritten m hm k
  · exact fun _ _ hm => hm.1

lemma listedNames_of_verified {s : Store} (h : s.verifiedFiles version = some files) : ListedNames files := by
  obtain ⟨text, -, htext⟩ := bind_eq_some_iff.mp h
  unfold listedFor at htext
  split_ifs at htext
  exact parseFileList_ok (toOption_eq_some.mp htext)

lemma putLocked_staged {io : PutIo} (hio : io.Reads) (h : Staged m) :
    wp (putLocked io a) (fun r m' => Staged m' ∧ ∀ c, r = .inr c → Checked m' c m'.clears) (fun _ => Staged) m := by
  refine wp_putLocked (fun _ => h) ?_ ?_
  · intro version p files hgrounds
    have hverified : m.store.verifiedFiles version = some files := by
      obtain hsame | ⟨-, hnone⟩ := hgrounds.listed
      · exact hsame.symm
      · cases hnone
    obtain ⟨held, hheld, hmay⟩ := hgrounds.may
    obtain ⟨hoffset, hsize⟩ := mayPut_listed (listedNames_of_verified hverified) hmay
    have hheld : m.store.held version a.name = a.offset := by
      obtain hsame | hfailed := hheld
      · exact (hoffset.trans hsame).symm
      · exact absurd hfailed hio.2
    refine wp_mono (listed_staged ⟨h, hgrounds.wanted, hverified, hheld⟩ (mayPut_pos hmay) hsize)
      (fun _ m' h' => ⟨h', fun c hc => ?_⟩) (fun _ _ h' => h')
    cases hc
  · intro version p hgrounds
    obtain ⟨held, -, hmay⟩ := hgrounds.may
    have hname := mayPut_none hmay
    have hnone : m.store.verifiedFiles version = none := by
      obtain hnone | ⟨hfailed, -⟩ := hgrounds.listed
      · exact hnone.symm
      · exact absurd hfailed hio.1
    have hstable : StageStable version a.name (Unlisted version p) := unlisted_stable p hname
    have hunlisted : Unlisted version p m := ⟨h, hgrounds.wanted, hnone, hgrounds.pointer⟩
    refine wp_mono (hstable.stageBytes rfl false m hunlisted) (fun _ m1 h1 => ?_) (fun _ _ h' => h'.1)
    refine wp_mono (hstable.pairArrived io a p m1 h1) (fun r m2 h2 => ?_) (fun _ _ h' => h'.1)
    exact ⟨h2.1.1, fun c hc => checked_of h2.1 hgrounds.newest (h2.2 c hc)⟩

lemma Staged.of_eq {m' : Machine} (h : Staged m) (hincoming : m'.store.incoming = m.store.incoming)
    (hwanted : m'.store.wanted = m.store.wanted) (hfiles : m'.store.files = m.store.files)
    (hinodes : m'.store.inodes = m.store.inodes) (haccepted : m'.accepted = m.accepted) : Staged m' := by
  refine h.within ?_ (by rw [wantedVersion, wantedVersion, hwanted]) hfiles hinodes haccepted
  rintro v stage hs
  exact ⟨stage, hincoming ▸ hs, rfl, fun _ _ h => h⟩

lemma putSettle_staged {io : SettleIo} {c : Checking} {n : ℕ} {checked : Except String String} {free : ℕ}
    (h : Staged m) (hc : Checked m c n) :
    wp (putSettle io c checked free) (fun _ => Staged) (fun _ => Staged) m := by
  refine wp_putSettle (fun _ _ => h) (fun why => ?_) ?_
  · refine keeps_refuseChecked (fun m h => h.of_eq rfl rfl rfl rfl rfl) (keeps_removeStage ?_ ?_ _) why m h
    · exact fun m h => h.within (m.store.removeStage_within c.version) rfl rfl rfl rfl
    · exact fun m left h => h.within (m.store.leaveStage_within c.version left) rfl rfl rfl rfl
  · intro listing files _ hlink hhead _ hparse
    obtain ⟨hw, hv⟩ := hc.kept hlink
    have hlisted := h.list hw hv (listedFor_isSome hhead hparse) (parseFileList_ok hparse)
    exact wp_mustChange hlisted (fun _ => h) hlisted

end Kryptik.Kryptikd.Update
