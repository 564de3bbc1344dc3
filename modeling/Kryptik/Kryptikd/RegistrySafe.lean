import Kryptik.Kryptikd.Registry

namespace Kryptik.Kryptikd.Registry

open Lib.LockFile

/-- What each program point has of the lock. Past the removal of the lock file nothing is
owned: another entry may stand in its place. -/
def Pc.grip : Pc → Grip
  | .idle | .createDir _ | .setMode _ | .stateExists _ | .stateFields _ | .heldOpen .. => .none
  | .reclaimExists _ | .openLock .. => .none
  | .heldLock _ _ fd | .heldClose _ _ fd _ | .flock _ _ fd | .closeBusy _ _ fd => .opened fd
  | .dropClose fd => .opened fd
  | .sameInode _ fd | .closeGone _ fd => .locked fd
  | .removeDir _ fd | .reclaimClose _ fd _ | .dropUnlock fd => .locked fd
  | .reclaimLocked _ fd | .umount _ fd | .readDir _ fd | .removeEach _ fd _ => .owner fd
  | .removeLock _ fd => .owner fd
  | .handle fd | .writeOpen _ fd _ | .writeText _ fd _ => .owner fd

lemma grip_of_live {pc : Pc} {fd : ℕ} (h : pc.live = some fd) : pc.grip = .owner fd := by
  unfold Pc.live at h
  split at h
  all_goals simp_all [Pc.grip]

@[simp] lemma grip_nextAttempt (attempt : ℕ) : (nextAttempt attempt).grip = .none := by
  unfold nextAttempt
  split <;> rfl

@[simp] lemma grip_reclaimed (caller : Caller) : (reclaimed caller).grip = .none := by
  cases caller with
  | alone => rfl
  | claim attempt => exact grip_nextAttempt attempt

@[simp] lemma grip_notRunning (caller : Caller) : (notRunning caller).grip = .none := by
  cases caller with
  | alone => rfl
  | claim attempt => rw [notRunning, apply_ite Pc.grip]; exact ite_self _

@[simp] lemma grip_running (launcher : Bool) (caller : Caller) : (running launcher caller).grip = .none := by
  cases caller with
  | alone => rfl
  | claim attempt => rw [running, apply_ite Pc.grip, grip_nextAttempt]; exact ite_self _

@[simp] lemma grip_gone (purpose : Purpose) : (gone purpose).grip = .none := by
  cases purpose with
  | claim attempt => exact grip_nextAttempt attempt
  | reclaim caller => exact grip_reclaimed caller

@[simp] lemma grip_busy (purpose : Purpose) (tries : ℕ) : (busy purpose tries).grip = .none := by
  cases tries <;> rfl

@[simp] lemma grip_heldBy (fd : ℕ) (purpose : Purpose) : (heldBy fd purpose).grip = .owner fd := by
  cases purpose <;> rfl

@[simp] lemma grip_writeFailed (first : Bool) (fd : ℕ) : (writeFailed first fd).grip = .owner fd := by
  cases first <;> rfl

@[simp] lemma grip_swept (fd : ℕ) (ok : Bool) (sweeper : Sweeper) : (swept fd ok sweeper).grip = .locked fd := by
  cases sweeper <;> rfl

variable {P : Type}

def Sound (s : System P) : Prop := Held s.disk (fun p => (s.pc p).grip)

lemma start_sound (left : Option Dir) : Sound (System.start left : System P) := by
  refine ⟨?_, ?_, ?_, ?_⟩
  · intro i hi
    have hi : left.bind Dir.lock = some i := hi
    simp [System.start, hi]
  · intro p i hi
    simp [System.start, Pc.grip, Grip.fd] at hi
  · simp [System.start, Pc.grip, Grip.locks]
  · intro p i hp
    simp [System.start, Pc.grip] at hp

variable [DecidableEq P] {d : Disk P} {grip : P → Grip} {p : P}

lemma moves_write (h : Held d grip) {fd : ℕ} (hg : grip p = .owner fd) (name text : String) :
    Moves p d grip (d.write name text) (.owner fd) := h.edit hg (Disk.lock_write d name text)

lemma moves_unlink (h : Held d grip) {fd : ℕ} (hg : grip p = .owner fd) (name : String) :
    Moves p d grip (d.unlink name) (.owner fd) := h.edit hg (Disk.lock_unlink d name)

lemma go_moves (h : Held d grip) (a : Answer) (pc : Pc) (hg : grip p = pc.grip) :
    Moves p d grip (go p a d pc).2 (go p a d pc).1.grip := by
  have hfd : ∀ fd, pc.grip.fd = some fd → (grip p).fd = some fd := fun fd hfd => by rw [hg, hfd]
  cases pc with
  | idle | stateFields caller | reclaimLocked caller fd | handle fd | umount sweeper fd =>
    exact h.stay hg
  | createDir attempt =>
    rw [go]
    split_ifs
    · exact h.stay hg
    split
    · rename_i hd
      exact h.mkdir hg hd
    · exact h.stay hg
  | setMode attempt =>
    rw [go]
    split_ifs
    · exact h.stay hg
    · exact h.stay hg
  | stateExists caller =>
    rw [go]
    split_ifs
    · exact h.stay (by rw [hg, grip_notRunning]; rfl)
    · exact h.stay hg
  | heldOpen caller launcher =>
    rw [go]
    split_ifs
    · exact h.stay hg
    split
    · rename_i hl
      exact h.open hg hl
    · exact h.stay (by rw [hg, grip_notRunning]; rfl)
  | heldLock caller launcher fd =>
    rw [go]
    split_ifs
    · exact h.stay hg
    split
    · rename_i hd
      exact h.lockShared hg hd
    · exact h.stay hg
  | heldClose caller launcher fd held =>
    have hnone : (go p a d (.heldClose caller launcher fd held)).1.grip = .none := by
      cases held <;> simp [go]
    rw [hnone]
    exact h.close (hfd fd rfl)
  | reclaimExists caller =>
    rw [go]
    split_ifs
    · exact h.stay (by rw [hg, grip_reclaimed]; rfl)
    · exact h.stay hg
  | openLock purpose tries =>
    rw [go]
    split_ifs
    · exact h.stay hg
    split
    · rename_i hd
      exact h.create hg hd
    · exact h.stay (by rw [hg, grip_gone]; rfl)
  | flock purpose tries fd =>
    rw [go]
    split_ifs
    · exact h.stay hg
    split
    · rename_i hd
      exact h.lockExclusive hg hd
    · exact h.stay hg
  | closeBusy purpose tries fd =>
    rw [go, grip_busy]
    exact h.close (hfd fd rfl)
  | sameInode purpose fd =>
    rw [go]
    split_ifs with hsame
    · rw [grip_heldBy]
      exact h.confirm hg hsame.2
    · exact h.stay hg
  | closeGone purpose fd =>
    rw [go, grip_gone]
    exact h.close (hfd fd rfl)
  | reclaimClose caller fd ok =>
    have hnone : (go p a d (.reclaimClose caller fd ok)).1.grip = .none := by
      cases ok
      · rfl
      · exact grip_reclaimed caller
    rw [hnone]
    exact h.close (hfd fd rfl)
  | writeOpen first fd name =>
    rw [go]
    split_ifs
    · exact h.stay (by rw [hg, grip_writeFailed]; rfl)
    · exact moves_write h hg name ""
  | writeText first fd name =>
    have hown : (go p a d (.writeText first fd name)).1.grip = .owner fd := by
      rw [go, apply_ite Pc.grip, grip_writeFailed]
      exact ite_self _
    rw [hown]
    exact moves_write h hg name a.text
  | readDir sweeper fd =>
    rw [go]
    split_ifs
    · rw [grip_swept]
      exact h.disown hg
    · rw [grip_swept]
      exact h.disown hg
    · exact h.stay hg
  | removeEach sweeper fd names =>
    cases names with
    | nil => exact h.stay hg
    | cons name names =>
      rw [go]
      split_ifs
      · exact h.stay hg
      · exact moves_unlink h hg name
  | removeLock sweeper fd =>
    rw [go]
    split_ifs
    · exact h.disown hg
    · exact h.unlinkLock hg
  | removeDir sweeper fd =>
    have hstay := h.stay hg
    rw [go]
    split_ifs
    · rwa [grip_swept]
    · rwa [grip_swept]
    split
    · rename_i hd
      rw [grip_swept]
      exact h.rmdir hg hd
    · rwa [grip_swept]
  | dropUnlock fd => exact h.release (hfd fd rfl) rfl (fun j hj => (Option.some.inj hj).symm)
  | dropClose fd => exact h.close (hfd fd rfl)

lemma put_sound {s : System P} {pc : Pc} {d : Disk P}
    (h : Moves p s.disk (fun q => (s.pc q).grip) d pc.grip) : Sound (s.put p pc d) := by
  have hgrip : (fun q => ((s.put p pc d).pc q).grip) = Function.update (fun q => (s.pc q).grip) p pc.grip := by
    funext q
    by_cases hqp : q = p
    · subst hqp
      simp [System.put]
    · simp [System.put, hqp]
  rw [Sound, hgrip]
  exact h.held

lemma step_sound {s : System P} (h : Sound s) (p : P) (act : Act) : Sound (s.step p act) ∧
      ∀ q fd, q ≠ p → (s.pc q).grip = .owner fd → (s.step p act).disk.dir = s.disk.dir := by
  have hput : ∀ pc d, Moves p s.disk (fun q => (s.pc q).grip) d pc.grip → Sound (s.put p pc d) ∧
        ∀ q fd, q ≠ p → (s.pc q).grip = .owner fd → (s.put p pc d).disk.dir = s.disk.dir :=
    fun pc d hm => ⟨put_sound hm, hm.kept⟩
  unfold System.step
  split
  · rename_i c hpc
    refine hput _ _ (Held.stay h ?_)
    rw [hpc]
    cases c <;> rfl
  · exact hput _ _ (go_moves h _ _ rfl)
  · rename_i hpc
    exact hput _ _ (Held.stay h (by rw [hpc]; rfl))
  · rename_i hpc
    exact hput _ _ (Held.stay h (by rw [hpc]; rfl))
  · exact hput _ _ (Held.exit h)
  · exact ⟨h, fun _ _ _ _ => rfl⟩

lemma run_sound {s : System P} (h : Sound s) (acts : List (P × Act)) : Sound (s.run acts) := by
  induction acts generalizing s with
  | nil => exact h
  | cons act acts ih => exact ih (step_sound h act.1 act.2).1

/-- The entry belongs to one live `Handle`: its lock is on the lock file in place, no other is
live, and no other process's next step changes a file of the entry. -/
structure Exclusive (s : System P) : Prop where
  locked : ∀ p fd, (s.pc p).live = some fd → s.disk.lock = some fd ∧ s.disk.exclusive fd = some p
  one : ∀ p q fd fd', (s.pc p).live = some fd → (s.pc q).live = some fd' → p = q
  kept : ∀ p q fd act, (s.pc q).live = some fd → p ≠ q → (s.step p act).disk.dir = s.disk.dir

theorem exclusive_in_every_run (left : Option Dir) (acts : List (P × Act)) :
    Exclusive ((System.start left).run acts) := by
  have h := run_sound (start_sound left) acts
  refine ⟨?_, ?_, ?_⟩
  · intro p fd hp
    have hown := grip_of_live hp
    exact ⟨h.owner p fd hown, (h.exclusive fd p).mpr (by rw [hown]; rfl)⟩
  · intro p q fd fd' hp hq
    exact h.owner_unique (grip_of_live hp) (grip_of_live hq)
  · intro p q fd act hq hpq
    exact (step_sound h p act).2 q fd (Ne.symm hpq) (grip_of_live hq)

-- A reclaim that has unlinked the lock of a stale entry meets a claim before its `rmdir`.
example :
    let ok : Act := .go ⟨false, false, [], "@0"⟩
    let swept := (System.start (some ⟨none, []⟩)).run ((1, .call .reclaim) :: List.replicate 9 (1, ok))
    let claimed := swept.run ((0, .call .claim) :: List.replicate 20 (0, ok))
    swept.pc 1 = .removeDir (.reclaim .alone) 0 ∧ (claimed.pc 0).live = some 2 ∧
      (claimed.step 1 ok).disk.dir = claimed.disk.dir := by
  decide

end Kryptik.Kryptikd.Registry
