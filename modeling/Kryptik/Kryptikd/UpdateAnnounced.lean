import Kryptik.Kryptikd.UpdateSigned

namespace Kryptik.Kryptikd.Update

open Lib.Text Lib.Prog Lib.History Option

def Names (p : Pointer) (text : String) : Prop :=
  (listedFor text p.version).isSome → listingLine "sha256" p.manifestSha256 ∈ lines text.toList

instance (p : Pointer) (text : String) : Decidable (Names p text) := inferInstanceAs (Decidable (_ → _))

/-- The stored listing, if it is of the release the stored statement names, is of its manifest. -/
def Store.Announced (s : Store) : Prop :=
  ∀ p text, s.storedPointer = some p → s.files = some text → Names p text

/-- A statement for the release that is listed announces the manifest that is listed. -/
def Store.Repeated (s : Store) (pointer : ByteArray) : Prop :=
  ∀ p text, pointerIn pointer = some p → s.files = some text → Names p text

/-- So does a statement that the turn accepts and stores. -/
def Turn.Repeats (t : Turn) (s : System) : Prop :=
  ∀ role a, t = .latest role a → (s.step t).machine.store.pointer = some a.pointer →
    s.machine.store.Repeated a.pointer

/-- What holds between turns: a check that runs goes by the stored statement. -/
structure System.Announced (s : System) : Prop where
  listing : s.machine.store.Announced
  checking : ∀ c n, s.checking = some (c, n) →
    s.machine.store.storedPointer = some c.pointer ∧ c.pointer.version = c.version

variable {m m0 : Machine}

/-- What the calls of a user leave: the statement, and no new listing. -/
structure Withdrawn (m0 m : Machine) : Prop where
  pointer : m.store.storedPointer = m0.store.storedPointer
  files : m.store.files = m0.store.files ∨ m.store.files = none

lemma Withdrawn.announced (h : Withdrawn m0 m) (hm : m0.store.Announced) : m.store.Announced := by
  intro p text hp htext
  obtain hfiles | hfiles := h.files
  · exact hm p text (h.pointer ▸ hp) (hfiles ▸ htext)
  · rw [hfiles] at htext
    cases htext

lemma withdrawn_incoming (io : ClearIo) {m : Machine} (h : Withdrawn m0 m) :
    wp (match io.incoming with
      | .whole => do
        modify Machine.clear
        return true
      | .cut left crashed => do
        edit (Store.leaveIncoming · left)
        if crashed then throw .crashed
        return false : Call Bool) (fun _ => Withdrawn m0) (fun _ => Withdrawn m0) m := by
  cases io.incoming with
  | whole => exact ⟨h.pointer, h.files⟩
  | cut left crashed =>
    have hleft : Withdrawn m0 (m.edit (Store.leaveIncoming · left)) := ⟨h.pointer, h.files⟩
    exact wp_ite (fun _ => hleft) (fun _ => hleft)

lemma keeps_clearStage (io : ClearIo) : Keeps (Withdrawn m0) (clearStage io) := by
  intro m h
  have hnone : Withdrawn m0 (m.edit fun s => { s with files := none }) := ⟨h.pointer, .inr rfl⟩
  unfold clearStage
  rw [wp_bind]
  exact wp_may (withdrawn_incoming io hnone) (withdrawn_incoming io h) h hnone

lemma keeps_wantLocked (io : WantIo) (p : Pointer) : Keeps (Withdrawn m0) (wantLocked io p) := by
  have hrecord : Keeps (Withdrawn m0) (recordWanted io p) := fun m h =>
    wp_recordWanted h ⟨h.pointer, h.files⟩ fun _ h => ⟨h.pointer, h.files⟩
  intro m h
  refine wp_wantLocked h (fun _ => hrecord m h) ?_
  exact wp_mono (keeps_clearStage io.clear m h) (fun _ m' h' => hrecord m' h') fun _ _ h' => h'

lemma keeps_forget (io : ForgetIo) : Keeps (Withdrawn m0) (forget io) := by
  refine .bind (keeps_mustChange fun _ hm => hm) fun _ => .bind keeps_look fun wanted => .bind keeps_orRefuse fun v => ?_
  refine .bind (keeps_mustChange fun _ hm => hm) fun _ => ?_
  refine .bind (keeps_mustChange fun _ hm => ⟨hm.pointer, hm.files⟩) fun _ => ?_
  refine .bind (fun m hm => wp_may ⟨hm.pointer, hm.files⟩ hm hm ⟨hm.pointer, hm.files⟩) fun _ => ?_
  exact .bind (keeps_clearStage io.clear) fun gone => .ite (fun _ => .ret v) fun _ => .stop fun _ hm => hm

lemma keeps_discardStage (io : DiscardIo) : Keeps (Withdrawn m0) (discardStage io) := by
  unfold discardStage
  cases io.lock with
  | done => exact keeps_clearStage io.clear
  | failed => exact .ret false
  | crashed late => exact .stop fun _ hm => hm

lemma latest_announced {role : String} {a : LatestArgs} (hm : m.store.Announced)
    (hrepeats : (m.after (latest role a)).store.pointer = some a.pointer → m.store.Repeated a.pointer) :
    (m.after (latest role a)).store.Announced := by
  have hkeeps : Keeps (fun m' => m'.store.files = m.store.files ∧
      (m'.store.pointer = m.store.pointer ∨ m'.store.pointer = some a.pointer)) (latest role a) :=
    keeps_latest (fun _ h => h) (fun _ h => h) fun _ h => ⟨h.1, .inr rfl⟩
  obtain ⟨hfiles, hpointer⟩ := after_of_wp (hkeeps m ⟨rfl, .inl rfl⟩)
  intro p text hp htext
  rw [hfiles] at htext
  obtain hkept | hstored := hpointer
  · rw [Store.storedPointer, hkept] at hp
    exact hm p text hp htext
  · exact hrepeats hstored p text ((storedPointer_of hstored).symm.trans hp) htext

lemma withdrawn_stable (m0 : Machine) (version name : String) : StageStable version name (Withdrawn m0) where
  make m hm := by
    have hfiles : (m.store.makeStage version).files = m.store.files := by
      unfold Store.makeStage
      split <;> rfl
    exact ⟨(storedPointer_makeStage m.store version).trans hm.pointer, hfiles ▸ hm.files⟩
  clean _ hm := ⟨hm.pointer, hm.files⟩
  append _ _ hm := ⟨hm.pointer, hm.files⟩
  record _ _ hm := ⟨hm.pointer, hm.files⟩
  remove _ hm := ⟨hm.pointer, hm.files⟩
  leave _ _ hm := ⟨hm.pointer, hm.files⟩

lemma putLocked_withdrawn (io : PutIo) (a : PutArgs) (m : Machine) : wp (putLocked io a) (fun r m' => Withdrawn m m' ∧
        ∀ c, r = .inr c → m.store.storedPointer = some c.pointer ∧ c.pointer.version = c.version)
      (fun _ => Withdrawn m) m := by
  have hstart : Withdrawn m m := ⟨rfl, .inl rfl⟩
  refine wp_putLocked (fun _ => hstart) ?_ ?_
  · intro version p files hgrounds
    refine wp_mono ((withdrawn_stable m version a.name).stageBytes rfl true m hstart) ?_ fun _ _ h => h
    intro _ m' h
    exact ⟨h, nofun⟩
  · intro version p hgrounds
    have hstable := withdrawn_stable m version a.name
    refine wp_mono (hstable.stageBytes rfl false m hstart) (fun _ m1 h1 => ?_) fun _ _ h => h
    refine wp_mono (hstable.pairArrived io a p m1 h1) (fun r m2 h2 => ⟨h2.1, fun c hc => ?_⟩) fun _ _ h => h
    obtain ⟨hversion, hpointer, -⟩ := h2.2 c hc
    rw [hpointer, hversion]
    exact ⟨hgrounds.pointer, hgrounds.newest⟩

lemma putSettle_announced {io : SettleIo} {c : Checking} {checked : Except String String} {free : ℕ}
    (hm : m.store.Announced) (hpointer : m.store.storedPointer = some c.pointer) :
    (m.after (putSettle io c checked free)).store.Announced := by
  refine after_of_wp (P := fun m => m.store.Announced) (wp_putSettle (fun _ _ => hm) (fun why => ?_) ?_)
  · have hstable := withdrawn_stable m c.version c.name
    have hkeeps : Keeps (Withdrawn m) (refuseChecked io c why : Call Reply) :=
      keeps_refuseChecked (fun _ h => ⟨h.pointer, h.files⟩) (keeps_removeStage hstable.remove hstable.leave _) why
    exact wp_mono (hkeeps m ⟨rfl, Or.inl rfl⟩) (fun _ _ h => h.announced hm) fun _ _ h => h.announced hm
  · intro listing files _ _ _ hsha _
    have hlisted : (m.edit fun s => { s with files := some listing }).store.Announced := by
      intro p text hp htext _
      obtain rfl : c.pointer = p := Option.some.inj (hpointer.symm.trans hp)
      obtain rfl : listing = text := Option.some.inj htext
      exact hsha
    exact wp_mustChange hlisted (fun _ => hm) hlisted

lemma System.Announced.withdraw {s : System} (h : s.Announced) (hm : Withdrawn s.machine m)
    (asking : ℕ → Option Pointer) :
    System.Announced ⟨m, s.checking, asking⟩ := by
  refine ⟨hm.announced h.listing, fun c n hc => ?_⟩
  obtain ⟨hpointer, hversion⟩ := h.checking c n hc
  exact ⟨hm.pointer.trans hpointer, hversion⟩

lemma step_announced (t : Turn) (s : System) (h : s.Announced) (ht : t.Repeats s) : (s.step t).Announced := by
  cases t with
  | latest role a =>
    cases hk : s.checking with
    | some k =>
      have hstep : s.step (.latest role a) = s := by simp [System.step, hk]
      rwa [hstep]
    | none =>
      have hstep : s.step (.latest role a) = { s with machine := s.machine.after (latest role a) } := by
        simp [System.step, hk]
      have hrepeats := ht role a rfl
      rw [hstep] at hrepeats ⊢
      exact ⟨latest_announced h.listing hrepeats, fun c n hc => absurd hc (by simp [hk])⟩
  | put io a =>
    cases hk : s.checking with
    | some k =>
      have hstep : s.step (.put io a) = s := by simp [System.step, hk]
      rwa [hstep]
    | none =>
      have hstep : s.step (.put io a) = s.put io a := by simp [System.step, hk]
      rw [hstep]
      have hput := putLocked_withdrawn io a s.machine
      unfold System.put
      split
      · rename_i hok
        exact ⟨(wp_ok hput hok).1.announced h.listing, fun c n hc => absurd hc (by simp [hk])⟩
      · rename_i hok
        obtain ⟨hkept, hchecked⟩ := wp_ok hput hok
        refine ⟨hkept.announced h.listing, fun c n hc => ?_⟩
        cases hc
        obtain ⟨hpointer, hversion⟩ := hchecked _ rfl
        exact ⟨hkept.pointer.trans hpointer, hversion⟩
      · rename_i herror
        exact ⟨(wp_error hput herror).announced h.listing, fun c n hc => absurd hc (by simp [hk])⟩
  | settle io checked free =>
    cases hk : s.checking with
    | none =>
      have hstep : s.step (.settle io checked free) = s := by simp [System.step, hk]
      rwa [hstep]
    | some k =>
      obtain ⟨c, n⟩ := k
      simp only [System.step, hk]
      exact ⟨putSettle_announced h.listing (h.checking c n hk).1, fun _ _ h => by cases h⟩
  | read process a => exact ⟨h.listing, h.checking⟩
  | want process io =>
    cases hask : s.asking process with
    | none =>
      have hstep : s.step (.want process io) = s := by simp [System.step, hask]
      rwa [hstep]
    | some p =>
      have hkept : Withdrawn s.machine (s.machine.after (wantLocked io p)) :=
        after_of_wp (keeps_wantLocked io p _ ⟨rfl, .inl rfl⟩)
      simp only [System.step, hask]
      exact h.withdraw hkept _
  | forget io =>
    have hkept : Withdrawn s.machine (s.machine.after (forget io)) :=
      after_of_wp (keeps_forget io _ ⟨rfl, .inl rfl⟩)
    exact h.withdraw hkept _
  | discard io =>
    have hkept : Withdrawn s.machine (s.machine.after (discardStage io)) :=
      after_of_wp (keeps_discardStage io _ ⟨rfl, .inl rfl⟩)
    exact h.withdraw hkept _

lemma run_announced (turns : List Turn) (s : System) (h : s.Announced)
    (hturns : Along System.step Turn.Repeats turns s) : (turns.foldl System.step s).Announced := by
  induction turns generalizing s with
  | nil => exact h
  | cons t turns ih => exact ih (s.step t) (step_announced t s h hturns.1) hturns.2

lemma verifiedFiles_text {s : Store} {version : String} {files : List Entry}
    (h : s.verifiedFiles version = some files) : ∃ text, s.files = some text ∧ (listedFor text version).isSome := by
  obtain ⟨text, htext, hlisted⟩ := bind_eq_some_iff.mp h
  exact ⟨text, htext, isSome_iff_exists.mpr ⟨files, hlisted⟩⟩

lemma completeStage_listed {s : Store} {v : String} (h : completeStage s = .ok v) :
    s.wantedVersion = some v ∧ ∃ files, s.verifiedFiles v = some files := by
  unfold completeStage at h
  split at h
  · cases h
  · rename_i version hwanted
    split at h
    · cases h
    · rename_i files hfiles
      split at h
      · cases h
        exact ⟨hwanted, files, hfiles⟩
      · cases h

lemma putLocked_piece {io : PutIo} {a : PutArgs} {r : Reply ⊕ Checking} {m' : Machine}
    (h : putLocked io a m = .ok r m') (hname : a.name ≠ "manifest" ∧ a.name ≠ "manifest.sig") :
    ∃ p files, m.store.storedPointer = some p ∧ m.store.wantedVersion = some p.version ∧
      m.store.verifiedFiles p.version = some files := by
  have hgrounds : wp (putLocked io a) (fun _ _ => ∃ p files, m.store.storedPointer = some p ∧
      m.store.wantedVersion = some p.version ∧ m.store.verifiedFiles p.version = some files) (fun _ _ => True) m := by
    refine wp_putLocked (fun _ => trivial) ?_ ?_
    · intro version p files hgrounds
      have hlisted : m.store.verifiedFiles version = some files := by
        obtain hsame | ⟨-, hnone⟩ := hgrounds.listed
        · exact hsame.symm
        · cases hnone
      obtain rfl := hgrounds.newest
      exact wp_of_cases (fun _ _ _ => ⟨p, files, hgrounds.pointer, hgrounds.wanted, hlisted⟩) fun _ _ _ => trivial
    · intro version p hgrounds
      obtain ⟨held, -, hmay⟩ := hgrounds.may
      exact absurd (mayPut_none hmay) (not_or.mpr hname)
  exact wp_ok hgrounds h

theorem listing_as_announced (store : Store) (hstart : store.files = none) (turns : List Turn)
    (hturns : Along System.step Turn.Repeats turns (System.start store)) :
    let m := (turns.foldl System.step (System.start store)).machine
    (∀ p files, m.store.storedPointer = some p → m.store.wantedVersion = some p.version →
      m.store.verifiedFiles p.version = some files →
      ∃ text, m.store.files = some text ∧ listingLine "sha256" p.manifestSha256 ∈ lines text.toList) ∧
    (∀ io a r m', putLocked io a m = .ok r m' → a.name ≠ "manifest" ∧ a.name ≠ "manifest.sig" →
      ∃ p text, m.store.storedPointer = some p ∧ m.store.wantedVersion = some p.version ∧
        m.store.files = some text ∧ listingLine "sha256" p.manifestSha256 ∈ lines text.toList) ∧
    ∀ v, completeStage m.store = .ok v → ∃ text, m.store.files = some text ∧ (listedFor text v).isSome ∧
      ∀ p, m.store.storedPointer = some p → p.version = v →
        listingLine "sha256" p.manifestSha256 ∈ lines text.toList := by
  intro m
  have hannounced : System.Announced (System.start store) := by
    refine ⟨fun p text _ htext => ?_, nofun⟩
    have hnone : (System.start store).machine.store.files = none := hstart
    rw [hnone] at htext
    cases htext
  have hlisting := (run_announced turns _ hannounced hturns).listing
  have hnames : ∀ p files, m.store.storedPointer = some p → m.store.verifiedFiles p.version = some files →
      ∃ text, m.store.files = some text ∧ listingLine "sha256" p.manifestSha256 ∈ lines text.toList := by
    intro p files hp hfiles
    obtain ⟨text, htext, hlisted⟩ := verifiedFiles_text hfiles
    exact ⟨text, htext, hlisting p text hp htext hlisted⟩
  refine ⟨fun p files hp _ hfiles => hnames p files hp hfiles, ?_, ?_⟩
  · intro io a r m' hput hname
    obtain ⟨p, files, hp, hwanted, hfiles⟩ := putLocked_piece hput hname
    obtain ⟨text, htext, hsha⟩ := hnames p files hp hfiles
    exact ⟨p, text, hp, hwanted, htext, hsha⟩
  · intro v hcomplete
    obtain ⟨-, files, hfiles⟩ := completeStage_listed hcomplete
    obtain ⟨text, htext, hlisted⟩ := verifiedFiles_text hfiles
    refine ⟨text, htext, hlisted, ?_⟩
    intro p hp hversion
    exact hlisting p text hp htext (hversion ▸ hlisted)

def stagedRelease : List Turn :=
  [.latest "r" (in2002 (statement "2002-01-01T00:00:00Z").toUTF8 .fine), .read 0 ⟨some "https://c", "r", "1"⟩,
    .want 0 .fine] ++ smallRelease ++ [.put .fine ⟨1010000000, "a", 1, [7]⟩]

def restatement (version : String) : Turn :=
  .latest "r" ⟨1010010000, "1", (String.ofList ("KRYPTIK-LATEST-1\nrole: r\nversion: ".toList ++ version.toList ++
    "\nissued: 2002-01-02T00:00:00Z\nmanifest-sha256: ".toList ++ List.replicate 64 '1' ++
    "\nbase: b\n".toList)).toUTF8, .ok (), .fine⟩

/-- What is wanted is listed, and the listing names the announced manifest, or not. -/
def Store.listedAs (s : Store) (same : Bool) : Bool :=
  s.storedPointer.any fun p => s.files.any fun text => s.wantedVersion = some p.version ∧
    (s.verifiedFiles p.version).isSome ∧ completeStage s = .ok p.version ∧
    decide (listingLine "sha256" p.manifestSha256 ∈ lines text.toList) = same

lemma Store.listedAs_true {s : Store} {same : Bool} (h : s.listedAs same = true) :
    ∃ p text, s.storedPointer = some p ∧ s.wantedVersion = some p.version ∧ (s.verifiedFiles p.version).isSome ∧
      s.files = some text ∧ completeStage s = .ok p.version ∧
      decide (listingLine "sha256" p.manifestSha256 ∈ lines text.toList) = same := by
  obtain ⟨p, hp, h⟩ := (any_eq_true _ _).mp h
  obtain ⟨text, htext, h⟩ := (any_eq_true _ _).mp h
  obtain ⟨hwanted, hlisted, hcomplete, hsame⟩ := of_decide_eq_true h
  exact ⟨p, text, hp, hwanted, hlisted, htext, hcomplete, hsame⟩

lemma run_restated :
    let s := stagedRelease.foldl System.step (System.start Store.empty)
    s.machine.store.listedAs true = true ∧ (s.step (restatement "2")).machine.store.listedAs false = true ∧
      (s.step (restatement "3")).machine.store.storedPointer.any (fun p => p.version = "3") = true ∧
      completeStage (s.step (restatement "3")).machine.store = .ok "2" := by
  decide +kernel

theorem listing_as_announced_staged :
    let s := (stagedRelease.foldl System.step (System.start Store.empty)).machine.store
    Along System.step Turn.Repeats stagedRelease (System.start Store.empty) ∧
      ∃ p text, s.storedPointer = some p ∧ s.wantedVersion = some p.version ∧ s.files = some text ∧
        listingLine "sha256" p.manifestSha256 ∈ lines text.toList := by
  have hrepeats : Along System.step Turn.Repeats stagedRelease (System.start Store.empty) := by
    refine ⟨?_, Along.of_forall ?_ _⟩
    · intro _ _ _ _ p text _ htext
      cases htext
    · simp [smallRelease, Turn.Repeats]
  have hlisting := (listing_as_announced Store.empty rfl stagedRelease hrepeats).1
  obtain ⟨p, text, hp, hwanted, hlisted, -⟩ := Store.listedAs_true run_restated.1
  obtain ⟨files, hfiles⟩ := isSome_iff_exists.mp hlisted
  obtain ⟨text, htext, hsha⟩ := hlisting p files hp hwanted hfiles
  exact ⟨hrepeats, p, text, hp, hwanted, htext, hsha⟩

/-- A release that has arrived stays staged when its version is announced again with another manifest, and when
another version is announced. -/
theorem restated_release_kept :
    let s := stagedRelease.foldl System.step (System.start Store.empty)
    let again := (s.step (restatement "2")).machine.store
    let next := (s.step (restatement "3")).machine.store
    (∃ p text, again.storedPointer = some p ∧ again.wantedVersion = some p.version ∧
      (again.verifiedFiles p.version).isSome ∧ again.files = some text ∧
      listingLine "sha256" p.manifestSha256 ∉ lines text.toList ∧ completeStage again = .ok p.version) ∧
    ∃ p, next.storedPointer = some p ∧ p.version = "3" ∧ completeStage next = .ok "2" := by
  obtain ⟨-, hagain, hnext, hcomplete⟩ := run_restated
  obtain ⟨p, text, hp, hwanted, hlisted, htext, hstaged, hsha⟩ := Store.listedAs_true hagain
  obtain ⟨q, hq, hversion⟩ := (any_eq_true _ _).mp hnext
  exact ⟨⟨p, text, hp, hwanted, hlisted, htext, of_decide_eq_false hsha, hstaged⟩,
    q, hq, of_decide_eq_true hversion, hcomplete⟩

end Kryptik.Kryptikd.Update
