import Kryptik.Kryptikd.UpdateProgress
import Kryptik.Kryptikd.UpdateStage

namespace Kryptik.Kryptikd.Update

open Lib.Text Lib.Prog Lib.History Function

variable {c : Checking}

/-- The broker, in a put whose manifest is being checked or between calls, and the processes
that have read the statement and wait for the lock of the stage. -/
structure System where
  machine : Machine
  /-- With how often the stage had been cleared when the check began. -/
  checking : Option (Checking × ℕ)
  asking : ℕ → Option Pointer

def System.start (s : Store) : System := ⟨s.opened, none, fun _ => none⟩

inductive Turn
  | latest (role : String) (a : LatestArgs)
  | put (io : PutIo) (a : PutArgs)
  | settle (io : SettleIo) (checked : Except String String) (free : ℕ)
  | read (process : ℕ) (a : WantArgs)
  | want (process : ℕ) (io : WantIo)
  | forget (io : ForgetIo)
  | discard (io : DiscardIo)

def System.put (s : System) (io : PutIo) (a : PutArgs) : System :=
  match putLocked io a s.machine with
  | .ok (.inl _) m => { s with machine := m }
  | .ok (.inr c) m => { s with machine := m, checking := some (c, m.clears) }
  | .error _ m => { s with machine := m }

/-- One section under the lock. The broker serves one call at a time. -/
def System.step (s : System) : Turn → System
  | .latest role a =>
    if s.checking.isSome then s else { s with machine := s.machine.after (Update.latest role a) }
  | .put io a => if s.checking.isSome then s else s.put io a
  | .settle io checked free =>
    match s.checking with
    | none => s
    | some (c, _) =>
      { s with machine := s.machine.after (putSettle io c checked free), checking := none }
  | .read process a =>
    { s with asking := Function.update s.asking process (wantRead a s.machine.store).toOption }
  | .want process io =>
    match s.asking process with
    | none => s
    | some p =>
      { s with
        machine := s.machine.after (wantLocked io p)
        asking := Function.update s.asking process none }
  | .forget io => { s with machine := s.machine.after (Update.forget io) }
  | .discard io => { s with machine := s.machine.after (discardStage io) }

/-- Removals are not cut short, and the reads of a put do not fail. -/
def Turn.Steady : Turn → Prop
  | .latest .. | .settle .. | .read .. => True
  | .put io _ => io.Reads
  | .want _ io => io.clear.Whole
  | .forget io => (io.removeWanted = .done ∨ io.removeWanted = .failed) ∧ io.clear.Whole
  | .discard io => io.clear.Whole

/-- What a turn writes to the stage, and to `files`. -/
structure Turn.Signed (t : Turn) (s : System) : Prop where
  stage : (s.step t).machine.store.Within s.machine.store ∨
    ∃ io a p, t = .put io a ∧ s.machine.store.storedPointer = some p ∧ s.machine.store.wantedVersion = some p.version ∧
      ∀ v, v ≠ p.version → (s.step t).machine.store.incoming v = s.machine.store.incoming v
  listing : (s.step t).machine.store.files = s.machine.store.files ∨ (s.step t).machine.store.files = none ∨
    ∃ io listing free c n p, t = .settle io (.ok listing) free ∧ s.checking = some (c, n) ∧
      (s.step t).machine.store.files = some listing ∧ s.machine.store.stageIno c.version = some c.ino ∧
      (lines listing.toList).head? = some (listingLine "version" c.version) ∧
      s.machine.store.storedPointer = some p ∧ p.version = c.version ∧
      listingLine "sha256" p.manifestSha256 ∈ lines listing.toList
  cleared : ∀ io checked free c n, t = .settle io checked free → s.checking = some (c, n) →
    n < s.machine.clears → (s.step t).machine.store.files = s.machine.store.files

/-- What the stage holds, and what a check that runs goes by. -/
structure Guarded (k : Option (Checking × ℕ)) (m : Machine) : Prop where
  staged : Staged m
  checked : ∀ c n, k = some (c, n) → Checked m c n

/-- What every call but a put leaves: of the stage what was there, and no new listing. -/
structure Kept (m0 : Machine) (k : Option (Checking × ℕ)) (m : Machine) : Prop extends Guarded k m where
  within : m.store.Within m0.store
  files : m.store.files = m0.store.files ∨ m.store.files = none

variable {m m0 m' : Machine} {k : Option (Checking × ℕ)}

lemma Kept.start (h : Guarded k m) : Kept m k m := ⟨h, Store.Within.refl _, .inl rfl⟩

lemma Checked.of_eq {n : ℕ} (h : Checked m c n) (hpointer : m'.store.storedPointer = m.store.storedPointer)
    (hwanted : m'.store.wantedVersion = m.store.wantedVersion) (hfiles : m'.store.files = m.store.files)
    (hincoming : m'.store.incoming = m.store.incoming) (hinodes : m'.store.inodes = m.store.inodes)
    (hclears : m'.clears = m.clears) : Checked m' c n := by
  have hino : m'.store.stageIno c.version = m.store.stageIno c.version := by
    rw [Store.stageIno, Store.stageIno, hincoming]
  have hverified : m'.store.verifiedFiles c.version = m.store.verifiedFiles c.version := by
    rw [Store.verifiedFiles, Store.verifiedFiles, hfiles]
  exact ⟨hpointer.trans h.pointer, h.newest, hinodes ▸ h.old, hclears ▸ h.count,
    fun hlt => hino ▸ h.gone (hclears ▸ hlt), fun hlink => ⟨hwanted.trans (h.kept (hino ▸ hlink)).1,
      hverified.trans (h.kept (hino ▸ hlink)).2⟩⟩

lemma Kept.of_eq (h : Kept m0 k m) (hpointer : m'.store.storedPointer = m.store.storedPointer)
    (hwanted : m'.store.wantedVersion = m.store.wantedVersion) (hfiles : m'.store.files = m.store.files)
    (hincoming : m'.store.incoming = m.store.incoming) (hinodes : m'.store.inodes = m.store.inodes)
    (haccepted : m'.accepted = m.accepted) (hclears : m'.clears = m.clears) : Kept m0 k m' := by
  have hwithin : m'.store.Within m.store := fun v stage hs => ⟨stage, hincoming ▸ hs, rfl, fun _ _ h => h⟩
  exact ⟨⟨h.staged.within hwithin hwanted hfiles hinodes haccepted,
    fun c n hk => (h.checked c n hk).of_eq hpointer hwanted hfiles hincoming hinodes hclears⟩,
    hwithin.trans h.within, hfiles ▸ h.files⟩

lemma Kept.cleared (h : Kept m0 k m) (hpointer : m'.store.storedPointer = m.store.storedPointer)
    (hfiles : m'.store.files = m.store.files ∨ m'.store.files = none)
    (hincoming : m'.store.incoming = fun _ => none) (hinodes : m'.store.inodes = m.store.inodes)
    (hclears : m.clears ≤ m'.clears) : Kept m0 k m' := by
  have hnone : ∀ v ino, m'.store.stageIno v ≠ some ino := by simp [Store.stageIno, hincoming]
  refine ⟨⟨Staged.empty hincoming, fun c n hk => ?_⟩, fun v stage hs => ?_, ?_⟩
  · have hc := h.checked c n hk
    exact ⟨hpointer.trans hc.pointer, hc.newest, hinodes ▸ hc.old, hc.count.trans hclears,
      fun _ => hnone _ _, fun hlink => absurd hlink (hnone _ _)⟩
  · rw [hincoming] at hs
    cases hs
  · obtain hfiles | hfiles := hfiles
    · exact hfiles ▸ h.files
    · exact .inr hfiles

lemma latest_kept (role : String) (a : LatestArgs) : Keeps (Kept m0 none) (latest role a) := by
  have hnone : ∀ m m' : Machine, Kept m0 none m → m'.store.wantedVersion = m.store.wantedVersion →
      m'.store.files = m.store.files → m'.store.incoming = m.store.incoming →
      m'.store.inodes = m.store.inodes → m'.accepted = m.accepted → Kept m0 none m' := by
    intro m m' h hwanted hfiles hincoming hinodes haccepted
    have hwithin : m'.store.Within m.store := fun v stage hs => ⟨stage, hincoming ▸ hs, rfl, fun _ _ h => h⟩
    exact ⟨⟨h.staged.within hwithin hwanted hfiles hinodes haccepted, fun _ _ hk => by cases hk⟩,
      hwithin.trans h.within, hfiles ▸ h.files⟩
  exact keeps_latest (fun m h => hnone m _ h rfl rfl rfl rfl rfl) (fun m h => hnone m _ h rfl rfl rfl rfl rfl)
    (fun m h => hnone m _ h rfl rfl rfl rfl rfl)

lemma recordWanted_same {version : String} {s : Store} (h : s.wantedVersion = some version) :
    { s with wanted := some version }.wantedVersion = s.wantedVersion := by
  obtain ⟨text, -, htext⟩ := Option.bind_eq_some_iff.mp h
  rw [h]
  exact (wantedVersion_of rfl).trans (versionIn_of_isVersion (isVersion_of_versionIn htext))

lemma wantLocked_kept {io : WantIo} (hio : io.clear.Whole) (p : Pointer) : Keeps (Kept m0 k) (wantLocked io p) := by
  intro m h
  have hdeclined : ∀ m, Kept m0 k m → Kept m0 k (m.edit (fun s => { s with declined := none })) :=
    fun m h => h.of_eq rfl rfl rfl rfl rfl rfl rfl
  have hcleared : ∀ m' : Machine, m'.store.storedPointer = m.store.storedPointer →
      (m'.store.files = m.store.files ∨ m'.store.files = none) →
      (m'.store.incoming = fun _ => none) → m'.store.inodes = m.store.inodes → m.clears ≤ m'.clears →
      wp (recordWanted io p) (fun _ => Kept m0 k) (fun _ => Kept m0 k) m' := by
    intro m' hpointer hfiles hincoming hinodes hclears
    exact wp_recordWanted (h.cleared hpointer hfiles hincoming hinodes hclears)
      (h.cleared hpointer hfiles hincoming hinodes hclears) hdeclined
  refine wp_wantLocked h (fun hsame => ?_) (wp_clearStage hio ?_ ?_)
  · exact wp_recordWanted h (h.of_eq rfl (recordWanted_same hsame) rfl rfl rfl rfl rfl) hdeclined
  · exact hcleared _ rfl (.inr rfl) rfl rfl (Nat.le_succ _)
  · exact hcleared _ rfl (.inl rfl) rfl rfl (Nat.le_succ _)

lemma forget_kept {io : ForgetIo} (hremove : io.removeWanted = .done ∨ io.removeWanted = .failed)
    (hio : io.clear.Whole) : Keeps (Kept m0 k) (forget io) := by
  intro m h
  unfold forget
  simp only [wp_bind]
  refine wp_must_id ?_ (fun _ => h)
  refine wp_look_either ?_ (fun _ => h) (fun _ => h)
  refine wp_orRefuse (fun v _ => ?_) (fun _ => h)
  refine wp_must_id ?_ (fun _ => h)
  have hdeclined : Kept m0 k (m.edit (fun s => { s with declined := some v })) :=
    h.of_eq rfl rfl rfl rfl rfl rfl rfl
  refine wp_mustChange ?_ (fun _ => h) hdeclined
  -- the request is dropped a step before the stage is
  obtain hremove | hremove := hremove
  all_goals
    rw [hremove]
    exact wp_clearStage hio (h.cleared rfl (.inr rfl) rfl rfl (Nat.le_succ _))
      (h.cleared rfl (.inl rfl) rfl rfl (Nat.le_succ _))

lemma discard_kept {io : DiscardIo} (hio : io.clear.Whole) : Keeps (Kept m0 k) (discardStage io) := by
  intro m h
  unfold discardStage
  cases io.lock with
  | done =>
    exact wp_clearStage hio (h.cleared rfl (.inr rfl) rfl rfl (Nat.le_succ _))
      (h.cleared rfl (.inl rfl) rfl rfl (Nat.le_succ _))
  | failed | crashed late => exact h

lemma elsewhere_stable (m0 : Machine) (version name : String) : StageStable version name (fun m =>
    m.store.files = m0.store.files ∧ ∀ v, v ≠ version → m.store.incoming v = m0.store.incoming v) where
  make m hm := by
    refine ⟨Eq.trans ?_ hm.1, fun v hv => Eq.trans ?_ (hm.2 v hv)⟩
    · simp only [Machine.edit, Store.makeStage]
      split <;> rfl
    · simp only [Machine.edit, Store.makeStage]
      split
      · rfl
      · exact update_of_ne hv _ _
  clean m hm := ⟨hm.1, fun v hv => (update_of_ne hv _ _).trans (hm.2 v hv)⟩
  append m _ hm := ⟨hm.1, fun v hv => (update_of_ne hv _ _).trans (hm.2 v hv)⟩
  record _ _ hm := hm
  remove m hm := ⟨hm.1, fun v hv => (update_of_ne hv _ _).trans (hm.2 v hv)⟩
  leave m _ hm := ⟨hm.1, fun v hv => (update_of_ne hv _ _).trans (hm.2 v hv)⟩

/-- What a put up to its check leaves where it does not write. -/
def Elsewhere (m0 m : Machine) : Prop :=
  m.store.files = m0.store.files ∧ (m.store.Within m0.store ∨ ∃ p, m0.store.storedPointer = some p ∧
      m0.store.wantedVersion = some p.version ∧
      ∀ v, v ≠ p.version → m.store.incoming v = m0.store.incoming v)

lemma putLocked_elsewhere (io : PutIo) (a : PutArgs) (m : Machine) :
    wp (putLocked io a) (fun _ => Elsewhere m) (fun _ => Elsewhere m) m := by
  have hwritten : ∀ version p files, PutGrounds io a m version p files → ∀ m',
      (m'.store.files = m.store.files ∧ ∀ v, v ≠ version → m'.store.incoming v = m.store.incoming v) →
      Elsewhere m m' := by
    intro version p files hgrounds m' h
    obtain rfl := hgrounds.newest
    exact ⟨h.1, .inr ⟨p, hgrounds.pointer, hgrounds.wanted, h.2⟩⟩
  refine wp_putLocked (fun _ => ⟨rfl, .inl (Store.Within.refl _)⟩) ?_ ?_
  · intro version p files hgrounds
    have hstable := elsewhere_stable m version a.name
    exact wp_mono (hstable.stageBytes rfl true m ⟨rfl, fun _ _ => rfl⟩)
      (fun _ m' h => hwritten version p _ hgrounds m' h) (fun _ m' h => hwritten version p _ hgrounds m' h)
  · intro version p hgrounds
    have hstable := elsewhere_stable m version a.name
    refine wp_mono (hstable.stageBytes rfl false m ⟨rfl, fun _ _ => rfl⟩) (fun _ m1 h1 => ?_)
      (fun _ m' h => hwritten version p _ hgrounds m' h)
    exact wp_mono (hstable.pairArrived io a p m1 h1) (fun _ m' h => hwritten version p _ hgrounds m' h.1)
      (fun _ m' h => hwritten version p _ hgrounds m' h)

/-- What a check leaves: less of the stage, or a listing of it that names the statement's manifest. -/
structure Settled (m0 : Machine) (c : Checking) (checked : Except String String) (m : Machine) : Prop where
  within : m.store.Within m0.store
  files : m.store.files = m0.store.files ∨ ∃ listing, checked = .ok listing ∧
    m.store.files = some listing ∧ m0.store.stageIno c.version = some c.ino ∧
    (lines listing.toList).head? = some (listingLine "version" c.version) ∧
    listingLine "sha256" c.pointer.manifestSha256 ∈ lines listing.toList

lemma Settled.start {checked : Except String String} : Settled m c checked m :=
  ⟨Store.Within.refl _, .inl rfl⟩

lemma putSettle_settled (io : SettleIo) (c : Checking) (checked : Except String String) (free : ℕ) (m : Machine) :
    wp (putSettle io c checked free) (fun _ => Settled m c checked) (fun _ => Settled m c checked) m := by
  refine wp_putSettle (fun _ _ => .start) (fun why => ?_) ?_
  · refine keeps_refuseChecked (fun _ h => ⟨h.within, h.files⟩) (keeps_removeStage ?_ ?_ _) why m .start
    · exact fun m h => ⟨(m.store.removeStage_within c.version).trans h.within, h.files⟩
    · exact fun m left h => ⟨(m.store.leaveStage_within c.version left).trans h.within, h.files⟩
  · intro listing files hchecked hlink hhead hsha _
    have hlisted : Settled m c checked (m.edit (fun s => { s with files := some listing })) :=
      ⟨Store.Within.refl _, .inr ⟨listing, hchecked, rfl, hlink, hhead, hsha⟩⟩
    exact wp_mustChange hlisted (fun _ => .start) hlisted

variable {s : System} {t : Turn}

lemma Kept.signed (h : Kept s.machine k (s.step t).machine)
    (ht : ∀ io checked free, t ≠ .settle io checked free) : t.Signed s := by
  refine ⟨.inl h.within, ?_, fun io checked free c n hsettle => absurd hsettle (ht io checked free)⟩
  obtain hfiles | hfiles := h.files
  · exact .inl hfiles
  · exact .inr (.inl hfiles)

lemma Turn.Signed.of_same (h : (s.step t).machine = s.machine) : t.Signed s :=
  ⟨.inl (by rw [h]; exact Store.Within.refl _), .inl (by rw [h]), fun _ _ _ _ _ _ _ _ => by rw [h]⟩

lemma put_guarded {io : PutIo} {a : PutArgs} (hio : io.Reads) (h : Guarded none s.machine) (hk : s.checking = none) :
    Elsewhere s.machine (s.put io a).machine ∧ Guarded (s.put io a).checking (s.put io a).machine := by
  have hput := wp_and (putLocked_elsewhere io a s.machine) (putLocked_staged (a := a) hio h.staged)
  unfold System.put
  split
  · rename_i hok
    obtain ⟨helse, hstaged, -⟩ := wp_ok hput hok
    exact ⟨helse, hstaged, fun c n hc => by rw [hk] at hc; cases hc⟩
  · rename_i hok
    obtain ⟨helse, hstaged, hchecked⟩ := wp_ok hput hok
    refine ⟨helse, hstaged, fun c n hc => ?_⟩
    cases hc
    exact hchecked _ rfl
  · rename_i herror
    obtain ⟨helse, hstaged⟩ := wp_error hput herror
    exact ⟨helse, hstaged, fun c n hc => by rw [hk] at hc; cases hc⟩

lemma settle_guarded (io : SettleIo) (checked : Except String String) (free : ℕ) {n : ℕ}
    (h : Guarded s.checking s.machine) (hk : s.checking = some (c, n)) :
    (Turn.settle io checked free).Signed s ∧ Guarded none (s.machine.after (putSettle io c checked free)) := by
  have hc := h.checked c n hk
  have hstep : s.step (.settle io checked free) =
      { s with machine := s.machine.after (putSettle io c checked free), checking := none } := by
    simp [System.step, hk]
  have hsettled := after_of_wp (putSettle_settled io c checked free s.machine)
  have hstaged : Staged (s.machine.after (putSettle io c checked free)) :=
    after_of_wp (putSettle_staged h.staged hc)
  refine ⟨⟨?_, ?_, ?_⟩, hstaged, fun _ _ hnone => by cases hnone⟩
  · rw [hstep]
    exact .inl hsettled.within
  · rw [hstep]
    obtain hsame | ⟨listing, rfl, hfiles, hlink, hhead, hsha⟩ := hsettled.files
    · exact .inl hsame
    · exact .inr (.inr ⟨io, listing, free, c, n, c.pointer, rfl, hk, hfiles, hlink, hhead, hc.pointer, hc.newest, hsha⟩)
  · intro _ _ _ c' n' _ hk' hlt
    cases hk.symm.trans hk'
    rw [hstep]
    obtain hsame | ⟨listing, -, -, hlink, -⟩ := hsettled.files
    · exact hsame
    · exact absurd hlink (hc.gone hlt)

lemma step_guarded (t : Turn) (s : System) (h : Guarded s.checking s.machine) (ht : t.Steady) :
    t.Signed s ∧ Guarded (s.step t).checking (s.step t).machine := by
  cases t with
  | latest role a =>
    cases hk : s.checking with
    | some k =>
      have hstep : s.step (.latest role a) = s := by simp [System.step, hk]
      exact ⟨.of_same (by rw [hstep]), by rwa [hstep]⟩
    | none =>
      have hstep : s.step (.latest role a) = { s with machine := s.machine.after (latest role a) } := by
        simp [System.step, hk]
      rw [hk] at h
      have hkept := after_of_wp (latest_kept role a _ (.start h))
      refine ⟨Kept.signed (k := none) (by rw [hstep]; exact hkept) (by simp), ?_⟩
      rw [hstep]
      rw [hk]
      exact hkept.toGuarded
  | put io a =>
    cases hk : s.checking with
    | some k =>
      have hstep : s.step (.put io a) = s := by simp [System.step, hk]
      exact ⟨.of_same (by rw [hstep]), by rwa [hstep]⟩
    | none =>
      have hstep : s.step (.put io a) = s.put io a := by simp [System.step, hk]
      rw [hk] at h
      obtain ⟨⟨hfiles, hstage⟩, hguarded⟩ := put_guarded (a := a) ht h hk
      rw [← hstep] at hfiles hstage hguarded
      refine ⟨⟨?_, .inl hfiles, fun _ _ _ _ _ hsettle => by cases hsettle⟩, hguarded⟩
      obtain hwithin | ⟨p, hp, hw, helse⟩ := hstage
      · exact .inl hwithin
      · exact .inr ⟨io, a, p, rfl, hp, hw, helse⟩
  | settle io checked free =>
    cases hk : s.checking with
    | none =>
      have hstep : s.step (.settle io checked free) = s := by simp [System.step, hk]
      exact ⟨.of_same (by rw [hstep]), by rwa [hstep]⟩
    | some k =>
      obtain ⟨hsigned, hguarded⟩ := settle_guarded io checked free h hk
      refine ⟨hsigned, ?_⟩
      simp only [System.step, hk]
      exact hguarded
  | read process a => exact ⟨.of_same rfl, h⟩
  | want process io =>
    cases hask : s.asking process with
    | none =>
      have hstep : s.step (.want process io) = s := by simp [System.step, hask]
      exact ⟨.of_same (by rw [hstep]), by rwa [hstep]⟩
    | some p =>
      have hkept := after_of_wp (wantLocked_kept ht p _ (.start h))
      have hstep : (s.step (.want process io)).machine = s.machine.after (wantLocked io p) ∧
          (s.step (.want process io)).checking = s.checking := by simp [System.step, hask]
      refine ⟨Kept.signed (k := s.checking) (by rw [hstep.1]; exact hkept) (by simp), ?_⟩
      rw [hstep.1, hstep.2]
      exact hkept.toGuarded
  | forget io =>
    have hkept := after_of_wp (forget_kept ht.1 ht.2 _ (.start h))
    exact ⟨hkept.signed (by simp), hkept.toGuarded⟩
  | discard io =>
    have hkept := after_of_wp (discard_kept ht _ (.start h))
    exact ⟨hkept.signed (by simp), hkept.toGuarded⟩

lemma run_guarded (turns : List Turn) (s : System) (h : Guarded s.checking s.machine)
    (hturns : ∀ t ∈ turns, t.Steady) :
    Along System.step Turn.Signed turns s ∧
      Guarded (turns.foldl System.step s).checking (turns.foldl System.step s).machine := by
  induction turns generalizing s with
  | nil => exact ⟨trivial, h⟩
  | cons t turns ih =>
    obtain ⟨hsigned, hnext⟩ := step_guarded t s h (hturns t List.mem_cons_self)
    obtain ⟨hrest, hlast⟩ := ih (s.step t) hnext (fun t' ht' => hturns t' (List.mem_cons_of_mem t ht'))
    exact ⟨⟨hsigned, hrest⟩, hlast⟩

/-- From an empty stage: what each turn writes was signed, and what is staged of a listed file
was put, up to its size. -/
theorem stage_holds_signed (store : Store) (hempty : store.incoming = fun _ => none) (turns : List Turn)
    (hturns : ∀ t ∈ turns, t.Steady) :
    Along System.step Turn.Signed turns (System.start store) ∧
      let m := (turns.foldl System.step (System.start store)).machine
      ∀ v files e stage bytes, m.store.wantedVersion = some v → m.store.verifiedFiles v = some files →
        e ∈ files → m.store.incoming v = some stage → stage.files e.name = some bytes →
        bytes.length ≤ e.size ∧ Carried m.accepted v stage.ino e.name bytes := by
  have hstart : Guarded (System.start store).checking (System.start store).machine :=
    ⟨Staged.empty hempty, fun _ _ hk => by cases hk⟩
  obtain ⟨hsigned, hguarded⟩ := run_guarded turns _ hstart hturns
  refine ⟨hsigned, fun v files e stage bytes hw hv he hs hb => ?_⟩
  exact (hguarded.staged.carried hw hv he hs hb).2

def smallStore : Store :=
  { Store.empty with pointer := some (statement "2002-01-01T00:00:00Z").toUTF8, wanted := some "2" }

def smallRelease : List Turn :=
  [.put .fine ⟨1010000000, "manifest", 0, [1]⟩, .put .fine ⟨1010000000, "manifest.sig", 0, [1]⟩,
    .settle .fine (.ok (String.ofList ("version: 2\nsha256: ".toList ++ List.replicate 64 '0' ++
      "\nfile 2 a\n".toList))) 9,
    .put .fine ⟨1010000000, "a", 0, [7]⟩]

lemma run_smallRelease :
    let m := (smallRelease.foldl System.step (System.start smallStore)).machine
    m.store.wantedVersion = some "2" ∧ m.store.verifiedFiles "2" = some [⟨"a", 2⟩] ∧
      (m.store.incoming "2").bind (fun stage => stage.files "a") = some [7] := by
  decide +kernel

theorem stage_holds_signed_small : (∀ t ∈ smallRelease, t.Steady) ∧
      Along System.step Turn.Signed smallRelease (System.start smallStore) ∧
      let m := (smallRelease.foldl System.step (System.start smallStore)).machine
      ∃ stage, m.store.incoming "2" = some stage ∧ stage.files "a" = some [7] ∧
        Carried m.accepted "2" stage.ino "a" [7] := by
  have hsteady : ∀ t ∈ smallRelease, t.Steady := by
    simp [smallRelease, Turn.Steady, PutIo.Reads, PutIo.fine]
  obtain ⟨hsigned, hcarried⟩ := stage_holds_signed smallStore rfl smallRelease hsteady
  refine ⟨hsteady, hsigned, ?_⟩
  have hrun := run_smallRelease
  obtain ⟨hwanted, hlisted, hfile⟩ := hrun
  obtain ⟨stage, hstage, hbytes⟩ := Option.bind_eq_some_iff.mp hfile
  exact ⟨stage, hstage, hbytes, (hcarried "2" [⟨"a", 2⟩] ⟨"a", 2⟩ stage [7] hwanted hlisted (by simp) hstage hbytes).2⟩

end Kryptik.Kryptikd.Update
