import Mathlib

namespace Kryptik.Lib.LockFile

variable {g : Grip}

/-- A directory: the inode its lock file names, and its other files. -/
structure Dir where
  lock : Option ℕ
  files : List (String × String)
  deriving DecidableEq

variable {P : Type}

/-- One directory entry and the advisory locks on the inodes its lock file ever named.
An inode number is not given out twice: one that is open stays allocated. -/
structure Disk (P : Type) where
  dir : Option Dir
  next : ℕ
  exclusive : ℕ → Option P
  shared : ℕ → List P

namespace Disk

def lock (d : Disk P) : Option ℕ := d.dir.bind Dir.lock

def mkdir (d : Disk P) : Option (Disk P) :=
  match d.dir with
  | none => some { d with dir := some ⟨none, []⟩ }
  | some _ => none

def create (d : Disk P) : Option (ℕ × Disk P) :=
  match d.dir with
  | none => none
  | some dir =>
    match dir.lock with
    | some i => some (i, d)
    | none => some (d.next, { d with dir := some { dir with lock := some d.next }, next := d.next + 1 })

def lockExclusive [DecidableEq P] (d : Disk P) (p : P) (i : ℕ) : Option (Disk P) :=
  if d.exclusive i = none ∧ d.shared i = [] then
    some { d with exclusive := Function.update d.exclusive i (some p) }
  else none

def lockShared [DecidableEq P] (d : Disk P) (p : P) (i : ℕ) : Option (Disk P) :=
  if d.exclusive i = none then some { d with shared := Function.update d.shared i (p :: d.shared i) }
  else none

def release [DecidableEq P] (d : Disk P) (p : P) (i : ℕ) : Disk P :=
  { d with
    exclusive := Function.update d.exclusive i (if d.exclusive i = some p then none else d.exclusive i)
    shared := Function.update d.shared i ((d.shared i).filter (· ≠ p)) }

def exit [DecidableEq P] (d : Disk P) (p : P) : Disk P :=
  { d with
    exclusive := fun i => if d.exclusive i = some p then none else d.exclusive i
    shared := fun i => (d.shared i).filter (· ≠ p) }

def write (d : Disk P) (name text : String) : Disk P :=
  { d with dir := d.dir.map (fun dir =>
      { dir with files := (name, text) :: dir.files.filter (fun f => f.1 ≠ name) }) }

def unlink (d : Disk P) (name : String) : Disk P :=
  { d with dir := d.dir.map (fun dir => { dir with files := dir.files.filter (fun f => f.1 ≠ name) }) }

def unlinkLock (d : Disk P) : Disk P :=
  { d with dir := d.dir.map (fun dir => { dir with lock := none }) }

def rmdir (d : Disk P) : Option (Disk P) :=
  match d.dir with
  | some ⟨none, []⟩ => some { d with dir := none }
  | _ => none

@[simp] lemma lock_write (d : Disk P) (name text : String) : (d.write name text).lock = d.lock := by
  cases h : d.dir <;> simp [lock, write, h]

@[simp] lemma lock_unlink (d : Disk P) (name : String) : (d.unlink name).lock = d.lock := by
  cases h : d.dir <;> simp [lock, unlink, h]

@[simp] lemma lock_unlinkLock (d : Disk P) : d.unlinkLock.lock = none := by
  cases h : d.dir <;> simp [lock, unlinkLock, h]

lemma mkdir_some {d d' : Disk P} (h : d.mkdir = some d') :
    d.lock = none ∧ d' = { d with dir := some ⟨none, []⟩ } := by
  unfold mkdir at h
  split at h
  · rename_i hd
    exact ⟨by simp [lock, hd], (Option.some.inj h).symm⟩
  · simp at h

lemma rmdir_some {d d' : Disk P} (h : d.rmdir = some d') : d.lock = none ∧ d' = { d with dir := none } := by
  unfold rmdir at h
  split at h
  · rename_i hd
    exact ⟨by simp [lock, hd], (Option.some.inj h).symm⟩
  · simp at h

lemma create_some {d d' : Disk P} {i : ℕ} (h : d.create = some (i, d')) : d.lock = some i ∧ d' = d ∨
      d.lock = none ∧ i = d.next ∧ d'.lock = some i ∧ d'.next = d.next + 1 ∧ d'.exclusive = d.exclusive := by
  unfold create at h
  split at h
  · simp at h
  · rename_i dir hd
    split at h
    · rename_i j hj
      cases h
      exact .inl ⟨by simp [lock, hd, hj], rfl⟩
    · rename_i hj
      cases h
      exact .inr ⟨by simp [lock, hd, hj], rfl, by simp [lock], rfl, rfl⟩

lemma lockExclusive_some [DecidableEq P] {d d' : Disk P} {p : P} {i : ℕ} (h : d.lockExclusive p i = some d') :
    d.exclusive i = none ∧ d' = { d with exclusive := Function.update d.exclusive i (some p) } := by
  unfold lockExclusive at h
  split_ifs at h with hfree
  exact ⟨hfree.1, (Option.some.inj h).symm⟩

lemma lockShared_some [DecidableEq P] {d d' : Disk P} {p : P} {i : ℕ} (h : d.lockShared p i = some d') :
    d' = { d with shared := Function.update d.shared i (p :: d.shared i) } := by
  unfold lockShared at h
  split_ifs at h
  exact (Option.some.inj h).symm

end Disk

/-- What a process has of the lock: no descriptor, one, one with the lock, or one with the lock
that it has seen in place since. -/
inductive Grip
  | none
  | opened (i : ℕ)
  | locked (i : ℕ)
  | owner (i : ℕ)
  deriving DecidableEq

def Grip.fd : Grip → Option ℕ
  | none => Option.none
  | opened i | locked i | owner i => some i

def Grip.locks : Grip → Option ℕ
  | none | opened _ => Option.none
  | locked i | owner i => some i

lemma Grip.fd_of_locks {i : ℕ} (h : g.locks = some i) : g.fd = some i := by
  cases g with
  | none => exact h
  | opened j => exact absurd h (by simp [locks])
  | locked j | owner j => exact h

/-- The locks are those of the processes' grips, and what an owner has locked is in place. -/
structure Held (d : Disk P) (grip : P → Grip) : Prop where
  placed : ∀ i, d.lock = some i → i < d.next
  opened : ∀ p i, (grip p).fd = some i → i < d.next
  exclusive : ∀ i p, d.exclusive i = some p ↔ (grip p).locks = some i
  owner : ∀ p i, grip p = .owner i → d.lock = some i

variable {d d' : Disk P} {grip : P → Grip} {p q : P} {i j : ℕ}

lemma Held.owner_unique (h : Held d grip) (hp : grip p = .owner i) (hq : grip q = .owner j) : p = q := by
  have hi := h.owner p i hp
  have hj := h.owner q j hq
  obtain rfl : i = j := Option.some.inj (hi.symm.trans hj)
  have hip : d.exclusive i = some p := (h.exclusive i p).mpr (by rw [hp]; rfl)
  have hiq : d.exclusive i = some q := (h.exclusive i q).mpr (by rw [hq]; rfl)
  exact Option.some.inj (hip.symm.trans hiq)

lemma Held.no_owner (h : Held d grip) (hl : d.lock = none) (q : P) (j : ℕ) : grip q ≠ .owner j := by
  intro hq
  have hj := h.owner q j hq
  rw [hl] at hj
  simp at hj

variable [DecidableEq P]

/-- A step of `p` that keeps the invariant and leaves the directory alone while another owns it. -/
structure Moves (p : P) (d : Disk P) (grip : P → Grip) (d' : Disk P) (g : Grip) : Prop where
  held : Held d' (Function.update grip p g)
  kept : ∀ q j, q ≠ p → grip q = .owner j → d'.dir = d.dir

lemma Held.regrip (h : Held d grip) (hlocks : g.locks = (grip p).locks) (hfd : ∀ i, g.fd = some i → i < d.next)
    (howner : ∀ i, g = .owner i → d.lock = some i) :
    Moves p d grip d g := by
  refine ⟨⟨h.placed, ?_, ?_, ?_⟩, fun _ _ _ _ => rfl⟩
  · intro q i hq
    by_cases hqp : q = p
    · subst hqp
      exact hfd i (by simpa using hq)
    · exact h.opened q i (by simpa [hqp] using hq)
  · intro i q
    rw [h.exclusive]
    by_cases hqp : q = p
    · subst hqp
      simp [hlocks]
    · simp [hqp]
  · intro q i hq
    by_cases hqp : q = p
    · subst hqp
      exact howner i (by simpa using hq)
    · exact h.owner q i (by simpa [hqp] using hq)

lemma Held.stay (h : Held d grip) (hg : grip p = g) : Moves p d grip d g := by
  subst hg
  exact h.regrip rfl (h.opened p) (h.owner p)

lemma Held.open (h : Held d grip) (hg : grip p = .none) (hi : d.lock = some i) : Moves p d grip d (.opened i) := by
  refine h.regrip (by rw [hg]; rfl) ?_ (by simp)
  intro j hj
  obtain rfl : i = j := Option.some.inj hj
  exact h.placed i hi

lemma Held.confirm (h : Held d grip) (hg : grip p = .locked i) (hi : d.lock = some i) :
    Moves p d grip d (.owner i) := by
  refine h.regrip (by rw [hg]; rfl) ?_ ?_
  · intro j hj
    exact h.opened p j (by rw [hg]; exact hj)
  · intro j hj
    obtain rfl := Grip.owner.inj hj
    exact hi

lemma Held.disown (h : Held d grip) (hg : grip p = .owner i) : Moves p d grip d (.locked i) := by
  refine h.regrip (by rw [hg]; rfl) ?_ (by simp)
  intro j hj
  exact h.opened p j (by rw [hg]; exact hj)

lemma Held.unplace (h : Held d grip) {dir : Option Dir} (hdir : dir.bind Dir.lock = none)
    (howner : ∀ q j, q ≠ p → grip q ≠ .owner j) (hlocks : g.locks = (grip p).locks) (hfd : g.fd = (grip p).fd)
    (hg : ∀ i, g ≠ .owner i) :
    Moves p d grip { d with dir := dir } g := by
  refine ⟨⟨?_, ?_, ?_, ?_⟩, fun q j hqp hq => absurd hq (howner q j hqp)⟩
  · intro i hi
    rw [Disk.lock, hdir] at hi
    simp at hi
  · intro q i hq
    by_cases hqp : q = p
    · subst hqp
      exact h.opened q i (by simpa [hfd] using hq)
    · exact h.opened q i (by simpa [hqp] using hq)
  · intro i q
    rw [h.exclusive]
    by_cases hqp : q = p
    · subst hqp
      simp [hlocks]
    · simp [hqp]
  · intro q i hq
    by_cases hqp : q = p
    · subst hqp
      exact absurd (by simpa using hq) (hg i)
    · exact absurd (by simpa [hqp] using hq) (howner q i hqp)

lemma Held.mkdir (h : Held d grip) (hg : grip p = g) (hd : d.mkdir = some d') : Moves p d grip d' g := by
  subst hg
  obtain ⟨hl, rfl⟩ := Disk.mkdir_some hd
  exact h.unplace rfl (fun q j _ => h.no_owner hl q j) rfl rfl (h.no_owner hl p)

lemma Held.rmdir (h : Held d grip) (hg : grip p = g) (hd : d.rmdir = some d') : Moves p d grip d' g := by
  subst hg
  obtain ⟨hl, rfl⟩ := Disk.rmdir_some hd
  exact h.unplace rfl (fun q j _ => h.no_owner hl q j) rfl rfl (h.no_owner hl p)

lemma Held.unlinkLock (h : Held d grip) (hg : grip p = .owner i) : Moves p d grip d.unlinkLock (.locked i) := by
  refine h.unplace ?_ ?_ (by rw [hg]; rfl) (by rw [hg]; rfl) (by simp)
  · exact Disk.lock_unlinkLock d
  · exact fun q j hqp hq => hqp (h.owner_unique hq hg)

lemma Held.edit (h : Held d grip) (hg : grip p = .owner i) {dir : Option Dir}
    (hdir : dir.bind Dir.lock = d.lock) : Moves p d grip { d with dir := dir } (.owner i) := by
  rw [← hg]
  refine ⟨?_, fun q j hqp hq => absurd (h.owner_unique hq hg) hqp⟩
  rw [Function.update_eq_self]
  exact ⟨fun k hk => h.placed k (hdir.symm.trans hk), h.opened, h.exclusive, fun q k hq => hdir.trans (h.owner q k hq)⟩

lemma Held.create (h : Held d grip) (hg : grip p = .none) (hd : d.create = some (i, d')) :
    Moves p d grip d' (.opened i) := by
  obtain ⟨hl, rfl⟩ | ⟨hl, rfl, hl', hnext, hex⟩ := Disk.create_some hd
  · exact h.open hg hl
  refine ⟨⟨?_, ?_, ?_, ?_⟩, fun q j _ hq => absurd hq (h.no_owner hl q j)⟩
  · intro j hj
    rw [hl'] at hj
    cases hj
    omega
  · intro q j hq
    by_cases hqp : q = p
    · subst hqp
      obtain rfl : d.next = j := by simpa [Grip.fd] using hq
      omega
    · have hj := h.opened q j (by simpa [hqp] using hq)
      omega
  · intro j q
    rw [hex, h.exclusive]
    by_cases hqp : q = p
    · subst hqp
      simp [hg, Grip.locks]
    · simp [hqp]
  · intro q j hq
    by_cases hqp : q = p
    · subst hqp
      simp at hq
    · exact absurd (by simpa [hqp] using hq) (h.no_owner hl q j)

lemma Held.lockExclusive (h : Held d grip) (hg : grip p = .opened i)
    (hd : d.lockExclusive p i = some d') : Moves p d grip d' (.locked i) := by
  obtain ⟨hfree, rfl⟩ := Disk.lockExclusive_some hd
  have hnone : ∀ q, (grip q).locks ≠ some i := by
    intro q hq
    rw [(h.exclusive i q).mpr hq] at hfree
    simp at hfree
  refine ⟨⟨h.placed, ?_, ?_, ?_⟩, fun _ _ _ _ => rfl⟩
  · intro q j hq
    by_cases hqp : q = p
    · subst hqp
      exact h.opened q j (by simpa [hg, Grip.fd] using hq)
    · exact h.opened q j (by simpa [hqp] using hq)
  · intro j q
    by_cases hqp : q = p
    · subst hqp
      have hjq := h.exclusive j q
      rw [hg] at hjq
      by_cases hji : j = i
      · subst hji
        simp [Grip.locks]
      · simp [Grip.locks, hji, Ne.symm hji, hjq]
    · have hpq : p ≠ q := Ne.symm hqp
      by_cases hji : j = i
      · subst hji
        simp [hqp, hpq, hnone q]
      · simp [hqp, hji, h.exclusive j q]
  · intro q j hq
    by_cases hqp : q = p
    · subst hqp
      simp at hq
    · exact h.owner q j (by simpa [hqp] using hq)

lemma Held.lockShared (h : Held d grip) (hg : grip p = g) (hd : d.lockShared p i = some d') :
    Moves p d grip d' g := by
  subst hg
  obtain rfl := Disk.lockShared_some hd
  refine ⟨?_, fun _ _ _ _ => rfl⟩
  rw [Function.update_eq_self]
  exact ⟨h.placed, h.opened, h.exclusive, h.owner⟩

lemma Held.unlock (h : Held d grip) (hlocks : g.locks = none) (hfd : ∀ i, g.fd = some i → i < d.next)
    {ex : ℕ → Option P} {sh : ℕ → List P} (hex : ∀ i, ex i = if d.exclusive i = some p then none else d.exclusive i) :
    Moves p d grip { d with exclusive := ex, shared := sh } g := by
  refine ⟨⟨h.placed, ?_, ?_, ?_⟩, fun _ _ _ _ => rfl⟩
  · intro q j hq
    by_cases hqp : q = p
    · subst hqp
      exact hfd j (by simpa using hq)
    · exact h.opened q j (by simpa [hqp] using hq)
  · intro j q
    simp only [hex]
    by_cases hqp : q = p
    · subst hqp
      split_ifs with hj <;> simp [hlocks, hj]
    · rw [Function.update_of_ne hqp, ← h.exclusive]
      split_ifs with hj
      · simp [hj, Ne.symm hqp]
      · rfl
  · intro q j hq
    by_cases hqp : q = p
    · subst hqp
      obtain rfl : g = .owner j := by simpa using hq
      simp [Grip.locks] at hlocks
    · exact h.owner q j (by simpa [hqp] using hq)

lemma Held.exit (h : Held d grip) : Moves p d grip (d.exit p) .none :=
  h.unlock rfl (by simp [Grip.fd]) (fun _ => rfl)

lemma Held.release (h : Held d grip) (hi : (grip p).fd = some i) (hlocks : g.locks = none)
    (hfd : ∀ j, g.fd = some j → j = i) : Moves p d grip (d.release p i) g := by
  have hone : ∀ j, d.exclusive j = some p → j = i := by
    intro j hj
    have hl := (h.exclusive j p).mp hj
    exact Option.some.inj ((Grip.fd_of_locks hl).symm.trans hi)
  refine h.unlock hlocks ?_ ?_
  · intro j hj
    obtain rfl := hfd j hj
    exact h.opened p j hi
  · intro j
    by_cases hji : j = i
    · subst hji
      simp
    · have hj : d.exclusive j ≠ some p := fun hj => hji (hone j hj)
      simp [hji, hj]

lemma Held.close (h : Held d grip) (hi : (grip p).fd = some i) :
    Moves p d grip (d.release p i) .none := h.release hi rfl (by simp [Grip.fd])

end Kryptik.Lib.LockFile
