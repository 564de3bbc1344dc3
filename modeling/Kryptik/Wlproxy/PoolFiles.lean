import Kryptik.Wlproxy.Shm

namespace Kryptik.Wlproxy.Shm

open Lib Tables List

variable {file : ℕ × ℕ}

def poolsOn (pools : Table ℕ Pool) (file : ℕ × ℕ) : ℕ :=
  total (fun _ p => if p.file = file then 1 else 0) pools

/-- Of one file: how many pools were on it, and the largest size that one of
them reached since there was none. -/
structure FileUse where
  live : ℕ
  largest : ℕ

def FileUse.after (file : ℕ × ℕ) (u : FileUse) : FileEvent → FileUse
  | .created f size => if f = file then ⟨u.live + 1, max u.largest size⟩ else u
  | .resized f size => if f = file then ⟨u.live, max u.largest size⟩ else u
  | .released f _ =>
    if f ≠ file then u else if u.live ≤ 1 then ⟨0, 0⟩ else ⟨u.live - 1, u.largest⟩

def fileUse (file : ℕ × ℕ) (events : List FileEvent) : FileUse :=
  events.foldl (FileUse.after file) ⟨0, 0⟩

/-- What a release may have done: with other pools left on the file it punched
nothing, and the last one punched all that was ever used. -/
def Release (before : FileUse) : Option ℕ → Prop
  | none => 1 < before.live
  | some range => before.live = 1 ∧ before.largest ≤ range

/-- The history of the files agrees with the pools, and each file's largest
size is covered by one of its pools until the last is released. -/
structure Filed (pools : Table ℕ Pool) (events : List FileEvent) : Prop where
  live : ∀ file, (fileUse file events).live = poolsOn pools file
  covered : ∀ file, 0 < poolsOn pools file → ∃ g p, pools.lookup g = some p ∧ p.file = file ∧
    (fileUse file events).largest ≤ p.range
  fresh : ∀ file, poolsOn pools file = 0 → (fileUse file events).largest = 0
  releases : ∀ before file punched later, events = before ++ .released file punched :: later →
    Release (fileUse file before) punched

variable {pools : Table ℕ Pool} {events : List FileEvent} {g : ℕ} {p p' : Pool}

lemma fileUse_concat (file : ℕ × ℕ) (events : List FileEvent) (e : FileEvent) :
    fileUse file (events ++ [e]) = (fileUse file events).after file e := by
  simp [fileUse]

lemma poolsOn_pos (h : pools.lookup g = some p) (hf : p.file = file) : 0 < poolsOn pools file := by
  have := le_total (fun _ p => if p.file = file then 1 else 0) h
  rw [if_pos hf] at this
  exact this

lemma Filed.releases_concat (h : Filed pools events) {e : FileEvent}
    (he : ∀ file punched, e = .released file punched → Release (fileUse file events) punched) :
    ∀ before file punched later, events ++ [e] = before ++ .released file punched :: later →
      Release (fileUse file before) punched := by
  intro before file punched later hs
  obtain rfl | ⟨later, e', rfl⟩ := eq_nil_or_concat' later
  · obtain ⟨rfl, he'⟩ := append_inj' hs rfl
    exact he file punched (singleton_inj.mp he')
  · rw [← cons_append, ← append_assoc] at hs
    exact h.releases before file punched later (append_inj' hs rfl).1

lemma poolsOn_update (h : pools.lookup g = some p) (hf : p'.file = p.file) (file : ℕ × ℕ) :
    poolsOn (pools.insert g p') file = poolsOn pools file := by
  have := total_update (fun _ p => if p.file = file then 1 else 0) h p'
  simp only [hf, poolsOn] at this ⊢
  omega

lemma Filed.grow (h : Filed pools events) (hg : pools.lookup g = some p)
    (hf : p'.file = p.file) (hr : p.range ≤ p'.range) : Filed (pools.insert g p') events where
  live file := by rw [h.live, poolsOn_update hg hf]
  covered file hpos := by
    rw [poolsOn_update hg hf] at hpos
    obtain ⟨g1, p1, hl, hfile, hle⟩ := h.covered file hpos
    by_cases he : g1 = g
    · subst he
      cases hg.symm.trans hl
      exact ⟨g1, p', AList.lookup_insert pools, hf.trans hfile, hle.trans hr⟩
    · exact ⟨g1, p1, by rw [AList.lookup_insert_ne he, hl], hfile, hle⟩
  fresh file := by rw [poolsOn_update hg hf]; exact h.fresh file
  releases := h.releases

lemma Filed.create (h : Filed pools events) (hg : pools.lookup g = none) :
    Filed (pools.insert g p) (events ++ [.created p.file p.range]) := by
  have hon (file : ℕ × ℕ) : poolsOn (pools.insert g p) file =
      (if p.file = file then 1 else 0) + poolsOn pools file := total_insert _ hg p
  have hother {file : ℕ × ℕ} (hf : p.file ≠ file) :
      fileUse file (events ++ [.created p.file p.range]) = fileUse file events := by
    rw [fileUse_concat, FileUse.after, if_neg hf]
  have hself : fileUse p.file (events ++ [.created p.file p.range]) =
      ⟨(fileUse p.file events).live + 1, max (fileUse p.file events).largest p.range⟩ := by
    rw [fileUse_concat, FileUse.after, if_pos rfl]
  have hkeep {g1 : ℕ} {p1 : Pool} (hl : pools.lookup g1 = some p1) : (pools.insert g p).lookup g1 = some p1 := by
    rw [AList.lookup_insert_ne, hl]
    rintro rfl
    rw [hg] at hl
    cases hl
  refine ⟨fun file => ?_, fun file hpos => ?_, fun file hz => ?_, h.releases_concat (by simp)⟩
  · by_cases hf : p.file = file
    · subst hf
      rw [hself, hon, if_pos rfl, h.live, Nat.add_comm]
    · rw [hother hf, hon, if_neg hf, h.live, Nat.zero_add]
  · by_cases hf : p.file = file
    · subst hf
      rw [hself]
      obtain hlt | hge := Nat.lt_or_ge p.range (fileUse p.file events).largest
      · have hon' : 0 < poolsOn pools p.file := Nat.pos_of_ne_zero fun hz => by
          rw [h.fresh _ hz] at hlt
          omega
        obtain ⟨g1, p1, hl, hfile, hle⟩ := h.covered p.file hon'
        exact ⟨g1, p1, hkeep hl, hfile, Nat.max_le.mpr ⟨hle, (Nat.le_of_lt hlt).trans hle⟩⟩
      · exact ⟨g, p, AList.lookup_insert pools, rfl, Nat.max_le.mpr ⟨hge, Nat.le_refl _⟩⟩
    · rw [hon, if_neg hf, Nat.zero_add] at hpos
      rw [hother hf]
      obtain ⟨g1, p1, hl, hfile, hle⟩ := h.covered file hpos
      exact ⟨g1, p1, hkeep hl, hfile, hle⟩
  · by_cases hf : p.file = file
    · rw [hon, if_pos hf] at hz
      omega
    · rw [hon, if_neg hf, Nat.zero_add] at hz
      rw [hother hf]
      exact h.fresh file hz

lemma Filed.resize (h : Filed pools events) (hg : pools.lookup g = some p)
    (hf : p'.file = p.file) (hr : p.range ≤ p'.range) {size : ℕ} (hs : size ≤ p'.range) :
    Filed (pools.insert g p') (events ++ [.resized p.file size]) := by
  have h' := h.grow hg hf hr
  have hother {file : ℕ × ℕ} (hf : p.file ≠ file) :
      fileUse file (events ++ [.resized p.file size]) = fileUse file events := by
    rw [fileUse_concat, FileUse.after, if_neg hf]
  have hself : fileUse p.file (events ++ [.resized p.file size]) =
      ⟨(fileUse p.file events).live, max (fileUse p.file events).largest size⟩ := by
    rw [fileUse_concat, FileUse.after, if_pos rfl]
  refine ⟨fun file => ?_, fun file hpos => ?_, fun file hz => ?_, h'.releases_concat (by simp)⟩
  · by_cases hfile : p.file = file
    · subst hfile
      rw [hself, h'.live]
    · rw [hother hfile, h'.live]
  · by_cases hfile : p.file = file
    · subst hfile
      rw [hself]
      obtain ⟨g1, p1, hl, hfile1, hle⟩ := h'.covered p.file hpos
      obtain hs1 | hs1 := Nat.le_total size p1.range
      · exact ⟨g1, p1, hl, hfile1, Nat.max_le.mpr ⟨hle, hs1⟩⟩
      · exact ⟨g, p', AList.lookup_insert pools, hf, Nat.max_le.mpr ⟨(hle.trans hs1).trans hs, hs⟩⟩
    · rw [hother hfile]
      exact h'.covered file hpos
  · have hfile : p.file ≠ file := by
      rintro rfl
      have hl : (pools.insert g p').lookup g = some p' := AList.lookup_insert pools
      exact absurd hz (Nat.pos_iff_ne_zero.mp (poolsOn_pos hl hf))
    rw [hother hfile]
    exact h'.fresh file hz

lemma poolsOn_erase (h : pools.lookup g = some p) (file : ℕ × ℕ) :
    (if p.file = file then 1 else 0) + poolsOn (pools.erase g) file = poolsOn pools file :=
  total_erase (fun _ p => if p.file = file then 1 else 0) h

lemma fileUse_released_other (hf : p.file ≠ file) (punched : Option ℕ) :
    fileUse file (events ++ [.released p.file punched]) = fileUse file events := by
  rw [fileUse_concat, FileUse.after, if_pos hf]

lemma fileUse_released_self (events : List FileEvent) (punched : Option ℕ) :
    fileUse p.file (events ++ [.released p.file punched]) =
      if (fileUse p.file events).live ≤ 1 then ⟨0, 0⟩
      else ⟨(fileUse p.file events).live - 1, (fileUse p.file events).largest⟩ := by
  rw [fileUse_concat, FileUse.after, if_neg (not_not_intro rfl)]

lemma Filed.erase_other (h : Filed pools events) (hg : pools.lookup g = some p) (punched : Option ℕ)
    (hf : p.file ≠ file) :
    poolsOn (pools.erase g) file = poolsOn pools file ∧
    fileUse file (events ++ [.released p.file punched]) = fileUse file events ∧
    (0 < poolsOn pools file → ∃ g1 p1, (pools.erase g).lookup g1 = some p1 ∧ p1.file = file ∧
      (fileUse file events).largest ≤ p1.range) := by
  have hon := poolsOn_erase hg file
  rw [if_neg hf, Nat.zero_add] at hon
  refine ⟨hon, fileUse_released_other hf punched, fun hpos => ?_⟩
  obtain ⟨g1, p1, hl, hfile, hle⟩ := h.covered file hpos
  refine ⟨g1, p1, ?_, hfile, hle⟩
  rw [AList.lookup_erase_ne, hl]
  rintro rfl
  cases hg.symm.trans hl
  exact hf hfile

lemma Filed.release (h : Filed pools events) (hg : pools.lookup g = some p) {g' : ℕ}
    (hne : g' ≠ g) (hg' : pools.lookup g' = some p') (hf : p'.file = p.file)
    (hr : p.range ≤ p'.range) : Filed (pools.erase g) (events ++ [.released p.file none]) := by
  have hl' : (pools.erase g).lookup g' = some p' := by rw [AList.lookup_erase_ne hne, hg']
  have hon := poolsOn_erase hg p.file
  rw [if_pos rfl] at hon
  have hpos := poolsOn_pos hl' hf
  have hlive : 1 < (fileUse p.file events).live := by rw [h.live]; omega
  have hself := fileUse_released_self (p := p) events none
  rw [if_neg (Nat.not_le.mpr hlive)] at hself
  refine ⟨fun file => ?_, fun file hp => ?_, fun file hz => ?_, h.releases_concat ?_⟩
  · by_cases hfile : p.file = file
    · subst hfile
      rw [hself, h.live]
      dsimp only
      omega
    · obtain ⟨he, hu, _⟩ := h.erase_other hg none hfile
      rw [hu, he, h.live]
  · by_cases hfile : p.file = file
    · subst hfile
      rw [hself]
      obtain ⟨g1, p1, hl, hfile1, hle⟩ := h.covered p.file (by omega)
      by_cases he : g1 = g
      · subst he
        cases hg.symm.trans hl
        exact ⟨g', p', hl', hf, hle.trans hr⟩
      · exact ⟨g1, p1, by rw [AList.lookup_erase_ne he, hl], hfile1, hle⟩
    · obtain ⟨he, hu, hc⟩ := h.erase_other hg none hfile
      rw [hu]
      exact hc (he ▸ hp)
  · by_cases hfile : p.file = file
    · subst hfile
      omega
    · obtain ⟨he, hu, _⟩ := h.erase_other hg none hfile
      rw [hu]
      exact h.fresh file (he ▸ hz)
  · intro file punched he
    obtain ⟨rfl, rfl⟩ := FileEvent.released.inj he
    exact hlive

lemma Filed.releaseLast (h : Filed pools events) (hg : pools.lookup g = some p)
    (hlast : poolsOn (pools.erase g) p.file = 0) :
    Filed (pools.erase g) (events ++ [.released p.file (some p.range)]) := by
  have hon := poolsOn_erase hg p.file
  rw [if_pos rfl, hlast] at hon
  have hlive : (fileUse p.file events).live = 1 := by rw [h.live, ← hon]
  have hself := fileUse_released_self (p := p) events (some p.range)
  rw [if_pos (Nat.le_of_eq hlive)] at hself
  refine ⟨fun file => ?_, fun file hp => ?_, fun file hz => ?_, h.releases_concat ?_⟩
  · by_cases hfile : p.file = file
    · subst hfile
      rw [hself, hlast]
    · obtain ⟨he, hu, _⟩ := h.erase_other hg (some p.range) hfile
      rw [hu, he, h.live]
  · by_cases hfile : p.file = file
    · subst hfile
      omega
    · obtain ⟨he, hu, hc⟩ := h.erase_other hg (some p.range) hfile
      rw [hu]
      exact hc (he ▸ hp)
  · by_cases hfile : p.file = file
    · subst hfile
      rw [hself]
    · obtain ⟨he, hu, _⟩ := h.erase_other hg (some p.range) hfile
      rw [hu]
      exact h.fresh file (he ▸ hz)
  · intro file punched he
    obtain ⟨rfl, rfl⟩ := FileEvent.released.inj he
    refine ⟨hlive, ?_⟩
    obtain ⟨g1, p1, hl, hfile, hle⟩ := h.covered p.file (by omega)
    by_cases he1 : g1 = g
    · subst he1
      cases hg.symm.trans hl
      exact hle
    · have hl' : (pools.erase g).lookup g1 = some p1 := by rw [AList.lookup_erase_ne he1, hl]
      exact absurd hlast (Nat.pos_iff_ne_zero.mp (poolsOn_pos hl' hfile))

end Kryptik.Wlproxy.Shm
