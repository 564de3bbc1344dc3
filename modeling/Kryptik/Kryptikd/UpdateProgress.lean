import Kryptik.Kryptikd.UpdateHistory

namespace Kryptik.Kryptikd.Update

open Lib.Text Lib.Prog Lib.History

variable {version name : String} {io : PutIo} {settle : SettleIo} {a : PutArgs} {checked : Except String String}
  {free : ℕ}

def Store.Stuck (s : Store) (version : String) : Prop :=
  s.verifiedFiles version = none ∧ s.held version "manifest" ≠ 0 ∧ s.held version "manifest.sig" ≠ 0

/-- The release the newest statement names is wanted, newer, fetchable and not refused lately. -/
structure Fetchable (s : Store) (channel role running : String) (now : ℤ) (p : Pointer)
    (base : String) : Prop where
  pointer : s.storedPointer = some p
  wanted : s.wantedVersion = some p.version
  newer : versionCmp p.version running = .gt
  base : resolveBase channel p.base role = .ok base
  calm : s.refusedLately now = false

def Store.missing (s : Store) (version : String) : List (String × ℕ) :=
  match s.verifiedFiles version with
  | some files => stillNeeded files (s.held version)
  | none => manifestNeeded s version

lemma manifestNeeded_eq_nil {s : Store} :
    manifestNeeded s version = [] ↔ s.held version "manifest" ≠ 0 ∧ s.held version "manifest.sig" ≠ 0 := by
  simp [manifestNeeded]

lemma missing_or_complete_iff {s : Store} (hw : s.wantedVersion = some version) :
    s.missing version ≠ [] ∨ completeStage s = .ok version ↔ ¬ s.Stuck version := by
  unfold Store.missing Store.Stuck completeStage
  simp only [hw]
  cases hv : s.verifiedFiles version with
  | none => simp only [ne_eq, manifestNeeded_eq_nil, reduceCtorEq, or_false, true_and]
  | some files =>
    dsimp only
    cases stillNeeded files (s.held version) <;> simp

section Poll

variable {m : Machine} {channel role running base : String} {now : ℤ} {p : Pointer}

lemma Fetchable.outstanding (h : Fetchable m.store channel role running now p base) :
    outstanding m.store channel role running now = some (p, base, m.store.missing p.version) := by
  have hpointer : m.store.storedPointer.filter (fun q => q.version = p.version) = some p := by
    simp [h.pointer]
  have hbase : (resolveBase channel p.base role).toOption = some base := by rw [h.base]; rfl
  simp only [Update.outstanding, Store.missing, h.wanted, hpointer, h.newer, hbase, h.calm,
    Option.bind_eq_bind, Option.bind_some]
  cases m.store.verifiedFiles p.version <;> simp

lemma Fetchable.poll (h : Fetchable m.store channel role running now p base) (io : WantIo) :
    poll io channel role running now m = .ok (if m.store.missing p.version ≠ [] then
      .fetch p.version base (m.store.missing p.version) else .idle) m := by
  have hask : asksItself m.store = false := by simp [asksItself, h.pointer, h.wanted]
  have hanswer : pollAnswer m.store channel role running now = if m.store.missing p.version ≠ [] then
      .fetch p.version base (m.store.missing p.version) else .idle := by rw [pollAnswer, h.outstanding]
  have hrun : Update.poll io channel role running now m = .ok (pollAnswer m.store channel role running now) m := by
    unfold Update.poll
    simp only [bind, EStateM.bind, get, getThe, MonadStateOf.get, EStateM.get, hask, Bool.false_eq_true,
      if_false]
    rfl
  rw [hrun, hanswer]

lemma Fetchable.idle (h : Fetchable m.store channel role running now p base) (io : WantIo)
    (hmissing : m.store.missing p.version = []) : Update.poll io channel role running now m = .ok .idle m := by
  rw [h.poll io, hmissing]
  rfl

lemma answered_iff (h : Fetchable m.store channel role running now p base) (io : WantIo) :
    (∃ need m', need ≠ [] ∧ Update.poll io channel role running now m = .ok (.fetch p.version base need) m') ∨
      completeStage m.store = .ok p.version ↔ ¬ m.store.Stuck p.version := by
  rw [← missing_or_complete_iff h.wanted]
  refine or_congr_left ?_
  rw [h.poll io]
  constructor
  · rintro ⟨need, m', hneed, hpoll⟩ hmissing
    simp [hmissing] at hpoll
  · intro hmissing
    exact ⟨_, m, hmissing, by rw [if_pos hmissing]⟩

end Poll

inductive Act
  | latest (role : String) (a : LatestArgs)
  | want (io : WantIo) (a : WantArgs)
  | forget (io : ForgetIo)
  | discard (io : DiscardIo)
  | put (io : PutIo) (settle : SettleIo) (a : PutArgs) (checked : Except String String) (free : ℕ)

def Act.run (m : Machine) : Act → Machine
  | .latest role a => m.after (Update.latest role a)
  | .want io a => m.after (Update.want io a)
  | .forget io => m.after (Update.forget io)
  | .discard io => m.after (discardStage io)
  | .put io settle a checked free => m.after (Update.put io settle a checked free)

def PutIo.Whole (io : PutIo) : Prop :=
  io.write = .whole ∧ io.readPair = .done ∧ io.readRefused = .done ∧ io.remove = .whole ∧ io.openStage = .done

def SettleIo.Whole (io : SettleIo) : Prop :=
  io.lock = .done ∧ io.readLinks = .done ∧ io.putRefused = .done ∧ io.remove = .whole ∧ io.putFiles = .done

def otherHalf (name : String) : String := if name = "manifest" then "manifest.sig" else "manifest"

def Completes (s : Store) (a : PutArgs) : Prop :=
  ∃ v, s.wantedVersion = some v ∧ s.verifiedFiles v = none ∧
    (a.name = "manifest" ∨ a.name = "manifest.sig") ∧ s.held v (otherHalf a.name) ≠ 0

def Act.Whole : Act → Machine → Prop
  | .latest .., _ => True
  | .want io _, _ => io.clear.Whole
  | .forget io, _ => io.clear.Whole
  | .discard io, _ => io.clear.Whole
  | .put io settle a _ _, m => Completes m.store a → io.Whole ∧ settle.Whole

def Unstuck (m : Machine) : Prop := ∀ v, m.store.wantedVersion = some v → ¬ m.store.Stuck v

lemma unstuck_of_empty {m : Machine} (h : m.store.incoming = fun _ => none) : Unstuck m := by
  intro v _ hstuck
  exact hstuck.2.1 (by simp [Store.held, h])

lemma unstuck_of_half {m : Machine} {v : String} (hw : m.store.wantedVersion = some v)
    (hname : name = "manifest" ∨ name = "manifest.sig") (h : m.store.held v name = 0) : Unstuck m := by
  intro w hw' hstuck
  obtain rfl : v = w := Option.some.inj (hw.symm.trans hw')
  obtain rfl | rfl := hname
  · exact hstuck.2.1 h
  · exact hstuck.2.2 h

lemma unstuck_of_verified {m : Machine} {v : String} (hw : m.store.wantedVersion = some v)
    (h : (m.store.verifiedFiles v).isSome) : Unstuck m := by
  intro w hw' hstuck
  obtain rfl : v = w := Option.some.inj (hw.symm.trans hw')
  rw [hstuck.1] at h
  exact Bool.false_ne_true h

variable {m : Machine} {E : Stop → Machine → Prop}

lemma latest_unstuck (role : String) (a : LatestArgs) : Keeps Unstuck (latest role a) :=
  keeps_latest (fun _ h => h) (fun _ h => h) (fun _ h => h)

lemma want_unstuck {io : WantIo} (hio : io.clear.Whole) (a : WantArgs) : Keeps Unstuck (want io a) := by
  intro m hm
  unfold want
  simp only [wp_bind, wp_get]
  refine wp_orElseRefuse (fun p _ => ?_) (fun _ => hm)
  refine wp_wantLocked hm ?_ ?_
  · intro hsame
    refine wp_recordWanted hm ?_ (fun _ h => h)
    intro v hv
    obtain ⟨text, -, htext⟩ := Option.bind_eq_some_iff.mp hsame
    have hback := versionIn_of_isVersion (isVersion_of_versionIn htext)
    rw [wantedVersion_of rfl, hback] at hv
    cases hv
    exact hm p.version hsame
  · refine wp_clearStage hio ?_ ?_
    · exact wp_recordWanted (unstuck_of_empty rfl) (unstuck_of_empty rfl) (fun _ h => h)
    · exact wp_recordWanted (unstuck_of_empty rfl) (unstuck_of_empty rfl) (fun _ h => h)

lemma forget_unstuck {io : ForgetIo} (hio : io.clear.Whole) : Keeps Unstuck (forget io) := by
  intro m hm
  unfold forget
  simp only [wp_bind]
  refine wp_must_id ?_ (fun _ => hm)
  refine wp_look_either ?_ (fun _ => hm) (fun _ => hm)
  refine wp_orRefuse (fun v _ => ?_) (fun _ => hm)
  refine wp_must_id ?_ (fun _ => hm)
  have hnone : Unstuck ((m.edit (fun s => { s with declined := some v })).edit
      (fun s => { s with wanted := none })) := fun _ hv => by cases hv
  have hclear : ∀ m', wp (clearStage io.clear) (fun gone => wp (if gone = true then pure v else refuse .notDeleted)
      (fun _ => Unstuck) (fun _ => Unstuck)) (fun _ => Unstuck) m' :=
    fun m' => wp_clearStage hio (unstuck_of_empty rfl) (unstuck_of_empty rfl)
  refine wp_mustChange ?_ (fun _ => hm) hm
  exact wp_may (hclear _) (hclear _) hm hnone

lemma discard_unstuck {io : DiscardIo} (hio : io.clear.Whole) : Keeps Unstuck (discardStage io) := by
  intro m hm
  unfold discardStage
  cases io.lock with
  | done => exact wp_clearStage hio (unstuck_of_empty rfl) (unstuck_of_empty rfl)
  | failed | crashed late => exact hm

lemma verified_stable (version name : String) : PutStable version name (fun m =>
    m.store.wantedVersion = some version ∧ (m.store.verifiedFiles version).isSome) where
  make m hm := by simpa [Machine.edit] using hm
  clean _ hm := hm
  append _ _ hm := hm
  record _ _ hm := hm
  remove _ hm := hm
  leave _ _ hm := hm
  refused _ _ hm := hm
  files _ _ hlisted hm := ⟨hm.1, hlisted⟩

lemma half_stable (version : String) {other : String} (hne : other ≠ name) : PutStable version name (fun m =>
      m.store.wantedVersion = some version ∧ m.store.held version other = 0) where
  make m hm := by simpa [Machine.edit] using hm
  clean m hm := ⟨hm.1, (held_setFile_of_ne m.store version name other none hne).trans hm.2⟩
  append m bytes hm := ⟨hm.1, (held_appendFile_of_ne m.store version name other bytes hne).trans hm.2⟩
  record _ _ hm := hm
  remove m hm := ⟨hm.1, held_removeStage m.store version other⟩
  leave m _ hm := ⟨hm.1, held_leaveStage m.store version other hm.2⟩
  refused _ _ hm := hm
  files _ _ _ hm := hm

lemma put_stable {p : Pointer} {I : Machine → Prop} (h : PutStable version a.name I) (hfree : ∀ m, I m → Unstuck m)
    (hm : I m) :
    wp (stageBytes io a version false) (fun _ => wp (pairArrived io a version p) (fun r =>
      wp (match r with
        | .inl reply => pure reply
        | .inr c => putSettle settle c checked free) (fun _ => Unstuck) (fun _ => Unstuck))
      (fun _ => Unstuck)) (fun _ => Unstuck) m := by
  refine wp_mono (h.stageBytes rfl false m hm) (fun _ m1 hm1 => ?_) (fun _ m' hm' => hfree m' hm')
  refine wp_mono (h.pairArrived io a p m1 hm1) (fun r m2 hm2 => ?_) (fun _ m' hm' => hfree m' hm')
  cases r with
  | inl reply => exact hfree m2 hm2.1
  | inr c =>
    exact wp_mono (h.putSettle settle (hm2.2 c rfl).1 checked free m2 hm2.1)
      (fun _ m' hm' => hfree m' hm') (fun _ m' hm' => hfree m' hm')

lemma removed_unstuck {m : Machine} (hw : m.store.wantedVersion = some version) :
    Unstuck (m.edit (Store.removeStage · version)) :=
  unstuck_of_half hw (.inl rfl) (held_removeStage m.store version "manifest")

lemma settle_unstuck (hs : settle.Whole) {c : Checking} (hw : m.store.wantedVersion = some c.version)
    (hlink : m.store.stageIno c.version = some c.ino) :
    wp (putSettle settle c checked free) (fun _ => Unstuck) (fun _ => Unstuck) m := by
  obtain ⟨hlock, hlinks, hrefused, hremove, hfiles⟩ := hs
  refine wp_putSettle ?_ ?_ ?_
  · rintro (h | h | h)
    · exact absurd hlock h
    · exact absurd hlinks h
    · exact absurd hlink h
  · intro why
    unfold refuseChecked
    rw [hrefused, hremove]
    exact removed_unstuck hw
  · intro listing files _ _ hhead _ hparse
    rw [hfiles]
    exact unstuck_of_verified hw (by
      rw [verifiedFiles_of rfl, listedFor_isSome hhead hparse]; rfl)

lemma stageIno_of_held {s : Store} (h : s.held version name ≠ 0) : ∃ ino, s.stageIno version = some ino := by
  cases hs : s.incoming version with
  | none => exact absurd (by simp [Store.held, hs]) h
  | some stage => exact ⟨stage.ino, by simp [Store.stageIno, hs]⟩

lemma second_half_unstuck {p : Pointer} (hio : io.Whole) (hsettle : settle.Whole)
    (hw : m.store.wantedVersion = some version) (hname : a.name = "manifest" ∨ a.name = "manifest.sig")
    (hown : m.store.held version a.name = 0) :
    wp (stageBytes io a version false) (fun _ => wp (pairArrived io a version p) (fun r =>
      wp (match r with
        | .inl reply => pure reply
        | .inr c => putSettle settle c checked free) (fun _ => Unstuck) (fun _ => Unstuck))
      (fun _ => Unstuck)) (fun _ => Unstuck) m := by
  obtain ⟨hwrite, hpair, hrefused, hremove, hopen⟩ := hio
  have hfree : ∀ e m, (m.store.wantedVersion = some version ∧ m.store.held version a.name = 0) →
      (fun _ => Unstuck : Stop → Machine → Prop) e m := fun _ _ h => unstuck_of_half h.1 hname h.2
  -- up to the write this half is not there; behind it only the request is known
  have hbytes : wp (stageBytes io a version false) (fun _ m => m.store.wantedVersion = some version)
      (fun _ => Unstuck) m := by
    refine wp_stageBytes ⟨hw, hown⟩ ?_ ?_ ?_ ?_ ?_ hfree
    · intro m hm
      simpa [Machine.edit] using hm
    · exact fun _ m hm => ⟨hm.1, held_setFile_self_none m.store version a.name⟩
    · exact fun m hm => ⟨hm.1, (held_appendFile_nil m.store version a.name).trans hm.2⟩
    · exact fun m hm _ => hm.1
    · intro m _ k crashed hcut
      rw [hwrite] at hcut
      cases hcut
  refine wp_mono hbytes (fun _ m1 hw1 => ?_) (fun _ _ h => h)
  unfold pairArrived startCheck holdStage
  simp only [wp_bind, hpair, hrefused, hremove, hopen, wp_look_done]
  refine wp_ite (fun hboth => ?_) (fun hnot => ?_)
  · have hboth : m1.store.held version "manifest" ≠ 0 ∧ m1.store.held version "manifest.sig" ≠ 0 := by
      simpa using hboth
    simp only [wp_bind, wp_look_done]
    refine wp_ite (fun _ => removed_unstuck hw1) (fun _ => ?_)
    obtain ⟨ino, hino⟩ := stageIno_of_held hboth.1
    simp only [wp_bind, wp_must_done, wp_get, Machine.edit_id, hino, wp_orRefuse_some, wp_pure]
    exact settle_unstuck hsettle hw1 hino
  · intro v hv hstuck
    obtain rfl : version = v := Option.some.inj (hw1.symm.trans hv)
    exact hnot (by simpa using hstuck.2)

lemma otherHalf_ne (h : name = "manifest" ∨ name = "manifest.sig") :
    otherHalf name ≠ name ∧ (otherHalf name = "manifest" ∨ otherHalf name = "manifest.sig") := by
  rcases h with rfl | rfl <;> decide

lemma put_unstuck (hm : Unstuck m) (hwhole : Completes m.store a → io.Whole ∧ settle.Whole) :
    wp (put io settle a checked free) (fun _ => Unstuck) (fun _ => Unstuck) m := by
  unfold put
  simp only [wp_bind]
  refine wp_putLocked (fun _ => hm) ?_ ?_
  · intro version p files hgrounds
    have hverified : (m.store.verifiedFiles version).isSome := by
      obtain hsame | ⟨-, hnone⟩ := hgrounds.listed
      · rw [← hsame]
        rfl
      · cases hnone
    refine wp_mono ((verified_stable version a.name).stageBytes rfl true m ⟨hgrounds.wanted, hverified⟩)
      (fun _ m' h => ?_) (fun _ m' h => ?_)
    · exact unstuck_of_verified h.1 h.2
    · exact unstuck_of_verified h.1 h.2
  · intro version p hgrounds
    obtain ⟨held, -, hmay⟩ := hgrounds.may
    have hname := mayPut_none hmay
    obtain ⟨hne, hother⟩ := otherHalf_ne hname
    cases hfiles : m.store.verifiedFiles version with
    | some files =>
      exact put_stable (verified_stable version a.name) (fun _ h => unstuck_of_verified h.1 h.2)
        ⟨hgrounds.wanted, by rw [hfiles]; rfl⟩
    | none =>
      by_cases hheld : m.store.held version (otherHalf a.name) = 0
      · exact put_stable (half_stable version hne) (fun _ h => unstuck_of_half h.1 hother h.2) ⟨hgrounds.wanted, hheld⟩
      · obtain ⟨hio, hsettle⟩ := hwhole ⟨version, hgrounds.wanted, hfiles, hname, hheld⟩
        refine second_half_unstuck hio hsettle hgrounds.wanted hname ?_
        by_contra hown
        refine hm version hgrounds.wanted ⟨hfiles, ?_⟩
        obtain hname | hname := hname
        · rw [hname] at hown hheld
          exact ⟨hown, hheld⟩
        · rw [hname] at hown hheld
          exact ⟨hheld, hown⟩

lemma run_unstuck {m : Machine} (hm : Unstuck m) {act : Act} (hwhole : act.Whole m) : Unstuck (act.run m) := by
  cases act with
  | latest role a => exact after_of_wp (latest_unstuck role a m hm)
  | want io a => exact after_of_wp (want_unstuck hwhole a m hm)
  | forget io => exact after_of_wp (forget_unstuck hwhole m hm)
  | discard io => exact after_of_wp (discard_unstuck hwhole m hm)
  | put io settle a checked free => exact after_of_wp (put_unstuck hm hwhole)

/-- In a run whose clearings and whose second halves are seen through, what is wanted is asked
for or complete in every state. -/
theorem wanted_asked_or_complete (s : Store) (hs : Unstuck s.opened) (acts : List Act)
    (hwhole : Along Act.run Act.Whole acts s.opened) :
    ∀ channel role running now p base io,
      Fetchable (acts.foldl Act.run s.opened).store channel role running now p base →
      (∃ need m', need ≠ [] ∧ poll io channel role running now (acts.foldl Act.run s.opened) =
        .ok (.fetch p.version base need) m') ∨
        completeStage (acts.foldl Act.run s.opened).store = .ok p.version := by
  have hrun : Unstuck (acts.foldl Act.run s.opened) := by
    generalize s.opened = m at hs hwhole
    induction acts generalizing m with
    | nil => exact hs
    | cons act acts ih => exact ih _ (run_unstuck hs hwhole.1) hwhole.2
  intro channel role running now p base io h
  exact (answered_iff h io).mpr (hrun p.version h.wanted)

def ClearIo.fine : ClearIo := ⟨.done, .whole⟩
def WantIo.fine : WantIo := ⟨.done, .done, .done, .fine, .done, .done⟩
def PutIo.fine : PutIo :=
  ⟨.done, .done, .done, .done, .done, .done, .done, .done, .whole, .done, .done, .whole, .done⟩
def SettleIo.fine : SettleIo := ⟨.done, .done, .done, .whole, .done⟩

def wantedAnew : List Act :=
  [.latest "r" (in2002 (statement "2002-01-01T00:00:00Z").toUTF8 .fine), .want .fine ⟨some "https://c", "r", "1"⟩,
    .discard ⟨.done, .fine⟩]

theorem wanted_asked_after_discard :
    let m := wantedAnew.foldl Act.run Store.empty.opened
    Fetchable m.store "https://c" "r" "1" 1010000000 (stated 1009843200) "https://c/b/" ∧
      ((∃ need m', need ≠ [] ∧ poll .fine "https://c" "r" "1" 1010000000 m =
        .ok (.fetch "2" "https://c/b/" need) m') ∨ completeStage m.store = .ok "2") := by
  intro m
  have hrun : m.store.storedPointer = some (stated 1009843200) ∧
      m.store.wantedVersion = some (stated 1009843200).version ∧ m.store.refusedLately 1010000000 = false := by
    decide +kernel
  have hfetchable : Fetchable m.store "https://c" "r" "1" 1010000000 (stated 1009843200) "https://c/b/" :=
    ⟨hrun.1, hrun.2.1, by decide +kernel, by decide +kernel, hrun.2.2⟩
  exact ⟨hfetchable, wanted_asked_or_complete Store.empty (unstuck_of_empty rfl) wantedAnew
    ⟨trivial, ⟨.inl rfl, rfl⟩, ⟨.inl rfl, rfl⟩, trivial⟩ _ _ _ _ _ _ .fine hfetchable⟩

/-- A statement, a request for what it names, and the pair; the machine goes down in the check. -/
def pairCutShort : List Act :=
  [.latest "r" (in2002 (statement "2002-01-01T00:00:00Z").toUTF8 .fine), .want .fine ⟨some "https://c", "r", "1"⟩,
    .put .fine .fine ⟨1010000000, "manifest", 0, [1]⟩ (.error "") 0,
    .put .fine { SettleIo.fine with lock := .crashed false } ⟨1010000000, "manifest.sig", 0, [1]⟩ (.error "") 0]

lemma run_pairCutShort :
    let s := (pairCutShort.foldl Act.run Store.empty.opened).store
    s.storedPointer = some (stated 1009843200) ∧ s.wantedVersion = some (stated 1009843200).version ∧
      s.refusedLately 1010000000 = false ∧ s.missing (stated 1009843200).version = [] ∧
      completeStage s = .error .noManifest := by
  decide +kernel

/-- The pair waits unlisted: nothing is asked for, and nothing is complete. -/
theorem pair_cut_short_sticks :
    let m := pairCutShort.foldl Act.run Store.empty.opened
    Fetchable m.store "https://c" "r" "1" 1010000000 (stated 1009843200) "https://c/b/" ∧
      poll .fine "https://c" "r" "1" 1010000000 m = .ok .idle m ∧
      completeStage m.store = .error .noManifest := by
  have hrun := run_pairCutShort
  generalize pairCutShort.foldl Act.run Store.empty.opened = m at hrun ⊢
  obtain ⟨hpointer, hwanted, hcalm, hmissing, hcomplete⟩ := hrun
  have hfetchable : Fetchable m.store "https://c" "r" "1" 1010000000 (stated 1009843200) "https://c/b/" :=
    ⟨hpointer, hwanted, by decide +kernel, by decide +kernel, hcalm⟩
  exact ⟨hfetchable, hfetchable.idle .fine hmissing, hcomplete⟩

end Kryptik.Kryptikd.Update
