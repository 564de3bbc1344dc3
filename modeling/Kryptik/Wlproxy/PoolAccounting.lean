import Kryptik.Wlproxy.PoolFiles

namespace Kryptik.Wlproxy

open Lib Prog Tables Protocol List Policy

def Fault.IsRefusal (e : Fault) : Prop := ∃ why, e = .refused why

namespace Shm

variable {sf : Surface}

def backed (bufferPools : Table ℕ ℕ) (g : ℕ) : ℕ :=
  total (fun _ b => if b = g then 1 else 0) bufferPools

def heldBy (surfaces : Table ℕ Surface) (g : ℕ) : ℕ :=
  total (fun _ sf => sf.held.count (some g)) surfaces

/-- The budgets charge exactly the pools there are, within their bounds. -/
structure Charged (pools : Table ℕ Pool) (count bytes : ℕ) : Prop where
  count_eq : count = size pools
  count_le : count ≤ Policy.maxShmPoolsPerSession
  bytes_eq : bytes = total (fun _ p => p.range) pools
  bytes_le : bytes ≤ Policy.maxShmBytesPerSession
  size_le : ∀ g p, pools.lookup g = some p → p.size ≤ p.range
  range_le : ∀ g p, pools.lookup g = some p → p.range ≤ Policy.maxShmPoolBytes

/-- Each pool counts the buffers that name it and knows whether an object does. -/
structure Named (pools : Table ℕ Pool) (poolIds bufferPools : Table ℕ ℕ) (nextPool : ℕ) : Prop where
  buffers : ∀ g p, pools.lookup g = some p → p.buffers = backed bufferPools g
  deleted : ∀ g p, pools.lookup g = some p → (p.deleted = true ↔ ∀ id, poolIds.lookup id ≠ some g)
  ids : ∀ id g, poolIds.lookup id = some g → g ∈ pools
  ids_inj : ∀ id id' g, poolIds.lookup id = some g → poolIds.lookup id' = some g → id = id'
  bufferIds : ∀ id g, bufferPools.lookup id = some g → g ∈ pools
  known : ∀ g ∈ pools, g ≤ nextPool

/-- Each pool counts how often surfaces hold it; the pools named in `extra` are
still counted although no surface has them any more. One that `was` there goes only once no surface holds it. -/
structure Held (was : List ℕ) (pools : Table ℕ Pool) (surfaces : Table ℕ Surface) (nextPool : ℕ)
    (extra : List ℕ) : Prop where
  count : ∀ g p, pools.lookup g = some p → p.held = heldBy surfaces g + extra.count g
  known : ∀ s sf, surfaces.lookup s = some sf → ∀ g, some g ∈ sf.held → g ≤ nextPool
  pending : ∀ s sf, surfaces.lookup s = some sf → ∀ g, sf.pending = some (some g) → g ≤ nextPool
  extra : ∀ g ∈ extra, g ≤ nextPool
  gone : ∀ g ∈ was, g ∉ pools → heldBy surfaces g = 0

def Unused (p : Pool) : Prop := p.deleted = true ∧ p.buffers = 0 ∧ p.held = 0

def InUse (pools : Table ℕ Pool) (free : Option ℕ) : Prop :=
  ∀ g p, pools.lookup g = some p → some g ≠ free → ¬ Unused p

/-- The ids that name pools and buffers are among the `live` ones. -/
structure Keyed (live : Interface → ℕ → Prop) (poolIds bufferPools : Table ℕ ℕ) : Prop where
  pools : ∀ id ∈ poolIds, live .wlShmPool id
  buffers : ∀ id ∈ bufferPools, live .wlBuffer id

structure Sound (live : Interface → ℕ → Prop) (was : List ℕ) (t : Shm) (extra : List ℕ) (free : Option ℕ) :
    Prop where
  charged : Charged t.pools t.poolCount t.poolBytes
  named : Named t.pools t.poolIds t.bufferPools t.nextPool
  keyed : Keyed live t.poolIds t.bufferPools
  held : Held was t.pools t.surfaces t.nextPool extra
  inUse : InUse t.pools free
  filed : Filed t.pools t.fileEvents

/-- The charges and the history of the files are in order, whatever uses the pools. -/
structure Booked (t : Shm) : Prop where
  charged : Charged t.pools t.poolCount t.poolBytes
  filed : Filed t.pools t.fileEvents

lemma Sound.booked {live : Interface → ℕ → Prop} {was : List ℕ} {t : Shm} {extra : List ℕ}
    {free : Option ℕ} (h : Sound live was t extra free) : t.Booked := ⟨h.charged, h.filed⟩

def Ends (e : Fault) (t : Shm) : Prop := e.IsRefusal ∧ t.Booked

lemma Sound.ends {live : Interface → ℕ → Prop} {was : List ℕ} {t : Shm} {extra : List ℕ}
    {free : Option ℕ} (h : Sound live was t extra free) (why : SessionError) : Ends (.refused why) t :=
  ⟨⟨why, rfl⟩, h.booked⟩

variable {pools : Table ℕ Pool} {poolIds bufferPools : Table ℕ ℕ} {surfaces : Table ℕ Surface}
  {nextPool count bytes g : ℕ} {was extra : List ℕ} {free : Option ℕ} {p p' : Pool}

lemma Charged.grow (h : Charged pools count bytes) (hg : pools.lookup g = some p)
    (hs : p'.size ≤ p'.range) (hr : p.range ≤ p'.range) (hm : p'.range ≤ maxShmPoolBytes)
    (hb : bytes + (p'.range - p.range) ≤ maxShmBytesPerSession) :
    Charged (pools.insert g p') count (bytes + (p'.range - p.range)) where
  count_eq := by
    have := total_update (fun _ _ => 1) hg p'
    rw [h.count_eq, size_eq_total, size_eq_total]
    omega
  count_le := h.count_le
  bytes_eq := by
    have := total_update (fun _ p => p.range) hg p'
    rw [h.bytes_eq]
    omega
  bytes_le := hb
  size_le g1 p1 hl := by
    obtain ⟨rfl, rfl⟩ | ⟨_, hl⟩ := lookup_of_insert hl
    · exact hs
    · exact h.size_le g1 p1 hl
  range_le g1 p1 hl := by
    obtain ⟨rfl, rfl⟩ | ⟨_, hl⟩ := lookup_of_insert hl
    · exact hm
    · exact h.range_le g1 p1 hl

lemma Charged.update (h : Charged pools count bytes) (hg : pools.lookup g = some p)
    (hs : p'.size = p.size) (hr : p'.range = p.range) : Charged (pools.insert g p') count bytes := by
  have h' := h.grow hg (by rw [hs, hr]; exact h.size_le g p hg) (Nat.le_of_eq hr.symm)
      (by rw [hr]; exact h.range_le g p hg) (by rw [hr, Nat.sub_self]; exact h.bytes_le)
  rwa [hr, Nat.sub_self, Nat.add_zero] at h'

lemma Charged.erase (h : Charged pools count bytes) (hg : pools.lookup g = some p) :
    1 ≤ count ∧ p.range ≤ bytes ∧ Charged (pools.erase g) (count - 1) (bytes - p.range) := by
  have hc := total_erase (fun _ _ => 1) hg
  have hb := total_erase (fun _ p => p.range) hg
  simp only [← size_eq_total, ← h.count_eq] at hc
  simp only [← h.bytes_eq] at hb
  refine ⟨by omega, by omega, by omega, (Nat.sub_le _ _).trans h.count_le, by omega,
    (Nat.sub_le _ _).trans h.bytes_le, fun g1 p1 hl => ?_, fun g1 p1 hl => ?_⟩
  · exact h.size_le g1 p1 (lookup_of_erase hl).2
  · exact h.range_le g1 p1 (lookup_of_erase hl).2

lemma Charged.create (h : Charged pools count bytes) (hg : pools.lookup g = none)
    (hs : p.size ≤ p.range) (hm : p.range ≤ maxShmPoolBytes)
    (hc : count < maxShmPoolsPerSession)
    (hb : bytes + p.range ≤ maxShmBytesPerSession) :
    Charged (pools.insert g p) (count + 1) (bytes + p.range) where
  count_eq := by
    have := total_insert (fun _ _ => 1) hg p
    rw [h.count_eq, size_eq_total, size_eq_total]
    omega
  count_le := hc
  bytes_eq := by
    have := total_insert (fun _ p => p.range) hg p
    rw [h.bytes_eq]
    omega
  bytes_le := hb
  size_le g1 p1 hl := by
    obtain ⟨rfl, rfl⟩ | ⟨_, hl⟩ := lookup_of_insert hl
    · exact hs
    · exact h.size_le g1 p1 hl
  range_le g1 p1 hl := by
    obtain ⟨rfl, rfl⟩ | ⟨_, hl⟩ := lookup_of_insert hl
    · exact hm
    · exact h.range_le g1 p1 hl

variable {id : ℕ}

lemma backed_pos (h : bufferPools.lookup id = some g) : 0 < backed bufferPools g := by
  have := le_total (fun _ b => if b = g then 1 else 0) h
  rwa [if_pos rfl] at this

lemma mem_update (hg : pools.lookup g = some p) {g' : ℕ} : g' ∈ pools.insert g p' ↔ g' ∈ pools := by
  rw [AList.mem_insert]
  exact or_iff_right_of_imp fun h => mem_iff_lookup.mpr ⟨p, h ▸ hg⟩

lemma Named.update (h : Named pools poolIds bufferPools nextPool) (hg : pools.lookup g = some p)
    (hb : p'.buffers = p.buffers) (hd : p'.deleted = p.deleted) :
    Named (pools.insert g p') poolIds bufferPools nextPool where
  buffers g1 p1 hl := by
    obtain ⟨rfl, rfl⟩ | ⟨_, hl⟩ := lookup_of_insert hl
    · exact hb.trans (h.buffers g1 p hg)
    · exact h.buffers g1 p1 hl
  deleted g1 p1 hl := by
    obtain ⟨rfl, rfl⟩ | ⟨_, hl⟩ := lookup_of_insert hl
    · exact hd ▸ h.deleted g1 p hg
    · exact h.deleted g1 p1 hl
  ids id g1 hl := (mem_update hg).mpr (h.ids id g1 hl)
  ids_inj := h.ids_inj
  bufferIds id g1 hl := (mem_update hg).mpr (h.bufferIds id g1 hl)
  known g1 hl := h.known g1 ((mem_update hg).mp hl)

lemma Named.erase (h : Named pools poolIds bufferPools nextPool) (hg : pools.lookup g = some p)
    (hu : Unused p) : Named (pools.erase g) poolIds bufferPools nextPool where
  buffers g1 p1 hl := h.buffers g1 p1 (lookup_of_erase hl).2
  deleted g1 p1 hl := h.deleted g1 p1 (lookup_of_erase hl).2
  ids id g1 hl := by
    refine AList.mem_erase.mpr ⟨?_, h.ids id g1 hl⟩
    rintro rfl
    exact (h.deleted g1 p hg).mp hu.1 id hl
  ids_inj := h.ids_inj
  bufferIds id g1 hl := by
    refine AList.mem_erase.mpr ⟨?_, h.bufferIds id g1 hl⟩
    rintro rfl
    have := backed_pos hl
    rw [← h.buffers g1 p hg, hu.2.1] at this
    exact Nat.lt_irrefl 0 this
  known g1 hl := h.known g1 (AList.mem_erase.mp hl).2

lemma Named.create (h : Named pools poolIds bufferPools nextPool)
    (hid : poolIds.lookup id = none) (hb : p.buffers = 0) (hd : p.deleted = false) :
    Named (pools.insert (nextPool + 1) p) (poolIds.insert id (nextPool + 1)) bufferPools
      (nextPool + 1) where
  buffers g1 p1 hl := by
    obtain ⟨rfl, rfl⟩ | ⟨_, hl⟩ := lookup_of_insert hl
    · rw [hb]
      refine (total_eq_zero _ fun id' b hl' => if_neg ?_).symm
      rintro rfl
      exact absurd (h.known _ (h.bufferIds id' _ hl')) (Nat.not_succ_le_self nextPool)
    · exact h.buffers g1 p1 hl
  deleted g1 p1 hl := by
    obtain ⟨rfl, rfl⟩ | ⟨hne, hl⟩ := lookup_of_insert hl
    · rw [hd]
      exact iff_of_false Bool.false_ne_true fun hall => hall id (AList.lookup_insert poolIds)
    · rw [h.deleted g1 p1 hl]
      refine forall_congr' fun id' => ?_
      rw [lookup_insert_if]
      split
      · subst id'
        rw [hid]
        exact iff_of_true (by simp) fun he => hne (Option.some.inj he).symm
      · exact Iff.rfl
  ids id' g1 hl := by
    obtain ⟨rfl, rfl⟩ | ⟨_, hl⟩ := lookup_of_insert hl
    · exact AList.mem_insert _ |>.mpr (.inl rfl)
    · exact AList.mem_insert _ |>.mpr (.inr (h.ids id' g1 hl))
  ids_inj id1 id2 g1 h1 h2 := by
    rcases lookup_of_insert h1 with ⟨e1, f1⟩ | ⟨_, l1⟩ <;>
      obtain ⟨e2, f2⟩ | ⟨_, l2⟩ := lookup_of_insert h2
    · exact e1.trans e2.symm
    · have := h.known g1 (h.ids id2 g1 l2)
      omega
    · have := h.known g1 (h.ids id1 g1 l1)
      omega
    · exact h.ids_inj id1 id2 g1 l1 l2
  bufferIds id' g1 hl := AList.mem_insert _ |>.mpr (.inr (h.bufferIds id' g1 hl))
  known g1 hl := by
    obtain rfl | hl := AList.mem_insert _ |>.mp hl
    · exact Nat.le_refl _
    · exact (h.known g1 hl).trans (Nat.le_succ _)

lemma Named.buffer (h : Named pools poolIds bufferPools nextPool) (hg : pools.lookup g = some p)
    (hid : bufferPools.lookup id = none) :
    Named (pools.insert g { p with buffers := p.buffers + 1 }) poolIds (bufferPools.insert id g) nextPool := by
  have hbacked (g1 : ℕ) : backed (bufferPools.insert id g) g1 =
      (if g = g1 then 1 else 0) + backed bufferPools g1 := total_insert _ hid g
  refine ⟨fun g1 p1 hl => ?_, fun g1 p1 hl => ?_, fun id' g1 hl => (mem_update hg).mpr (h.ids id' g1 hl),
    h.ids_inj, fun id' g1 hl => (mem_update hg).mpr ?_, fun g1 hl => h.known g1 ((mem_update hg).mp hl)⟩
  · rw [hbacked]
    obtain ⟨rfl, rfl⟩ | ⟨hne, hl⟩ := lookup_of_insert hl
    · rw [if_pos rfl, ← h.buffers g1 p hg, Nat.add_comm]
    · rw [if_neg (Ne.symm hne), Nat.zero_add]
      exact h.buffers g1 p1 hl
  · obtain ⟨rfl, rfl⟩ | ⟨_, hl⟩ := lookup_of_insert hl
    · exact h.deleted g1 p hg
    · exact h.deleted g1 p1 hl
  · obtain ⟨rfl, rfl⟩ | ⟨_, hl⟩ := lookup_of_insert hl
    · exact mem_iff_lookup.mpr ⟨p, hg⟩
    · exact h.bufferIds id' g1 hl

lemma Named.deletePool (h : Named pools poolIds bufferPools nextPool)
    (hid : poolIds.lookup id = some g) (hg : pools.lookup g = some p) :
    Named (pools.insert g { p with deleted := true }) (poolIds.erase id) bufferPools nextPool where
  buffers g1 p1 hl := by
    obtain ⟨rfl, rfl⟩ | ⟨_, hl⟩ := lookup_of_insert hl
    · exact h.buffers g1 p hg
    · exact h.buffers g1 p1 hl
  deleted g1 p1 hl := by
    obtain ⟨rfl, rfl⟩ | ⟨hne, hl⟩ := lookup_of_insert hl
    · refine iff_of_true rfl fun id' hl' => ?_
      obtain ⟨hne, hl'⟩ := lookup_of_erase hl'
      exact hne (h.ids_inj id' id g1 hl' hid)
    · rw [h.deleted g1 p1 hl]
      refine forall_congr' fun id' => ?_
      rw [lookup_erase_if]
      split
      · subst id'
        rw [hid]
        exact iff_of_true (fun he => hne (Option.some.inj he).symm) (by simp)
      · exact Iff.rfl
  ids id' g1 hl := (mem_update hg).mpr (h.ids id' g1 (lookup_of_erase hl).2)
  ids_inj id1 id2 g1 h1 h2 := h.ids_inj id1 id2 g1 (lookup_of_erase h1).2 (lookup_of_erase h2).2
  bufferIds id' g1 hl := (mem_update hg).mpr (h.bufferIds id' g1 hl)
  known g1 hl := h.known g1 ((mem_update hg).mp hl)

lemma Named.deleteBuffer (h : Named pools poolIds bufferPools nextPool)
    (hid : bufferPools.lookup id = some g) (hg : pools.lookup g = some p) :
    Named (pools.insert g { p with buffers := p.buffers - 1 }) poolIds (bufferPools.erase id) nextPool := by
  have hbacked (g1 : ℕ) : (if g = g1 then 1 else 0) + backed (bufferPools.erase id) g1 =
      backed bufferPools g1 := total_erase (fun _ b => if b = g1 then 1 else 0) hid
  refine ⟨fun g1 p1 hl => ?_, fun g1 p1 hl => ?_, fun id' g1 hl => (mem_update hg).mpr (h.ids id' g1 hl),
    h.ids_inj, fun id' g1 hl => (mem_update hg).mpr (h.bufferIds id' g1 (lookup_of_erase hl).2),
    fun g1 hl => h.known g1 ((mem_update hg).mp hl)⟩
  · have := hbacked g1
    obtain ⟨rfl, rfl⟩ | ⟨hne, hl⟩ := lookup_of_insert hl
    · rw [if_pos rfl, ← h.buffers g1 p hg] at this
      exact (Nat.eq_sub_of_add_eq' this).symm
    · rw [if_neg (Ne.symm hne), Nat.zero_add] at this
      rw [this]
      exact h.buffers g1 p1 hl
  · obtain ⟨rfl, rfl⟩ | ⟨_, hl⟩ := lookup_of_insert hl
    · exact h.deleted g1 p hg
    · exact h.deleted g1 p1 hl

lemma heldBy_put (surfaces : Table ℕ Surface) (s : ℕ) (sf : Surface) (g : ℕ) :
    ((surfaces.lookup s).getD {}).held.count (some g) + heldBy (surfaces.insert s sf) g =
      sf.held.count (some g) + heldBy surfaces g :=
  total_put (fun _ sf => sf.held.count (some g)) {} rfl surfaces sf

lemma Held.update (h : Held was pools surfaces nextPool extra) (hg : pools.lookup g = some p)
    (hh : p'.held = p.held) : Held was (pools.insert g p') surfaces nextPool extra where
  count g1 p1 hl := by
    obtain ⟨rfl, rfl⟩ | ⟨_, hl⟩ := lookup_of_insert hl
    · exact hh.trans (h.count g1 p hg)
    · exact h.count g1 p1 hl
  known := h.known
  pending := h.pending
  extra := h.extra
  gone g1 hw hn := h.gone g1 hw fun hm => hn ((mem_update hg).mpr hm)

lemma Held.erase (h : Held was pools surfaces nextPool extra) (hg : pools.lookup g = some p) (hp : p.held = 0) :
    Held was (pools.erase g) surfaces nextPool extra where
  count g1 p1 hl := h.count g1 p1 (lookup_of_erase hl).2
  known := h.known
  pending := h.pending
  extra := h.extra
  gone g1 hw hn := by
    by_cases hne : g1 = g
    · have := h.count g p hg
      rw [hne]
      omega
    · exact h.gone g1 hw fun hm => hn (AList.mem_erase.mpr ⟨hne, hm⟩)

lemma Held.create (h : Held was pools surfaces nextPool extra) (hh : p.held = 0) :
    Held was (pools.insert (nextPool + 1) p) surfaces (nextPool + 1) extra where
  count g1 p1 hl := by
    obtain ⟨rfl, rfl⟩ | ⟨_, hl⟩ := lookup_of_insert hl
    · have hs : heldBy surfaces (nextPool + 1) = 0 := total_eq_zero _ fun s sf hl' =>
        count_eq_zero.mpr fun hm => Nat.not_succ_le_self nextPool (h.known s sf hl' _ hm)
      have he := count_eq_zero.mpr fun hm => Nat.not_succ_le_self nextPool (h.extra _ hm)
      rw [hh, hs, he]
    · exact h.count g1 p1 hl
  known s sf hl g1 hm := (h.known s sf hl g1 hm).trans (Nat.le_succ _)
  pending s sf hl g1 hm := (h.pending s sf hl g1 hm).trans (Nat.le_succ _)
  extra g1 hm := (h.extra g1 hm).trans (Nat.le_succ _)
  gone g1 hw hn := h.gone g1 hw fun hm => hn ((AList.mem_insert _).mpr (.inr hm))

variable {s : ℕ}

lemma Held.put (h : Held was pools surfaces nextPool extra) (freed : List ℕ)
    (hc : ∀ g, ((surfaces.lookup s).getD {}).held.count (some g) = sf.held.count (some g) + freed.count g)
    (hp : sf.pending = ((surfaces.lookup s).getD {}).pending ∨ sf.pending = none) :
    Held was pools (surfaces.insert s sf) nextPool (freed ++ extra) := by
  have hold (g : ℕ) (hm : some g ∈ ((surfaces.lookup s).getD {}).held) : g ≤ nextPool := by
    cases hl : surfaces.lookup s with
    | none => simp [hl] at hm
    | some old => exact h.known s old hl g (by simpa [hl] using hm)
  refine ⟨fun g p hl => ?_, fun s1 sf1 hl g hm => ?_, fun s1 sf1 hl g hm => ?_, fun g hm => ?_, fun g hw hn => ?_⟩
  · have h1 := heldBy_put surfaces s sf g
    have h2 := hc g
    rw [h.count g p hl, count_append]
    omega
  · obtain ⟨rfl, rfl⟩ | ⟨_, hl⟩ := lookup_of_insert hl
    · refine hold g (count_pos_iff.mp ?_)
      rw [hc g]
      exact Nat.lt_add_right _ (count_pos_iff.mpr hm)
    · exact h.known s1 sf1 hl g hm
  · obtain ⟨rfl, rfl⟩ | ⟨_, hl⟩ := lookup_of_insert hl
    · rcases hp with hp | hp <;> rw [hp] at hm
      · cases hl' : surfaces.lookup s1 with
        | none => simp [hl'] at hm
        | some old => exact h.pending s1 old hl' g (by simpa [hl'] using hm)
      · cases hm
    · exact h.pending s1 sf1 hl g hm
  · obtain hm | hm := mem_append.mp hm
    · refine hold g (count_pos_iff.mp ?_)
      rw [hc g]
      exact Nat.lt_add_left _ (count_pos_iff.mpr hm)
    · exact h.extra g hm
  · have h1 := heldBy_put surfaces s sf g
    have h2 := hc g
    have h3 := h.gone g hw hn
    omega

lemma Held.keep (h : Held was pools surfaces nextPool extra) (hh : sf.held = ((surfaces.lookup s).getD {}).held)
    (hp : sf.pending = ((surfaces.lookup s).getD {}).pending ∨ sf.pending = none) :
    Held was pools (surfaces.insert s sf) nextPool extra :=
  h.put [] (fun g => by rw [hh]; rfl) hp

lemma count_reduceOption (l : List (Option ℕ)) (g : ℕ) : l.reduceOption.count g = l.count (some g) := by
  induction l with
  | nil => rfl
  | cons a l ih => cases a <;> simp [reduceOption_cons_of_some, reduceOption_cons_of_none,
      count_cons, ih]

lemma Held.eraseSurface (h : Held was pools surfaces nextPool extra) (hs : surfaces.lookup s = some sf) :
    Held was pools (surfaces.erase s) nextPool (sf.held.reduceOption ++ extra) where
  count g p hl := by
    have he := total_erase (fun _ sf => sf.held.count (some g)) hs
    rw [h.count g p hl, count_append, count_reduceOption, heldBy, heldBy]
    omega
  known s1 sf1 hl := h.known s1 sf1 (lookup_of_erase hl).2
  pending s1 sf1 hl := h.pending s1 sf1 (lookup_of_erase hl).2
  extra g hm := by
    obtain hm | hm := mem_append.mp hm
    · exact h.known s sf hs g (reduceOption_mem_iff.mp hm)
    · exact h.extra g hm
  gone g hw hn := by
    have he := total_erase (fun _ sf => sf.held.count (some g)) hs
    have hz := h.gone g hw hn
    rw [heldBy] at hz ⊢
    omega

lemma InUse.erase (h : InUse pools (some g)) : InUse (pools.erase g) none := by
  intro g1 p1 hl _
  obtain ⟨hne, hl⟩ := lookup_of_erase hl
  exact h g1 p1 hl fun he => hne (Option.some.inj he)

lemma InUse.update (h : InUse pools none) : InUse (pools.insert g p') (some g) := by
  intro g1 p1 hl hne
  obtain ⟨rfl, rfl⟩ | ⟨_, hl⟩ := lookup_of_insert hl
  · exact absurd rfl hne
  · exact h g1 p1 hl (by simp)

lemma InUse.keep (h : InUse pools free) (hp : ¬ Unused p') : InUse (pools.insert g p') free := by
  intro g1 p1 hl hne
  obtain ⟨rfl, rfl⟩ | ⟨_, hl⟩ := lookup_of_insert hl
  · exact hp
  · exact h g1 p1 hl hne

lemma InUse.settle (h : InUse pools (some g)) (hp : ∀ p, pools.lookup g = some p → ¬ Unused p) :
    InUse pools none := by
  intro g1 p1 hl _
  by_cases he : g1 = g
  · subst he
    exact hp p1 hl
  · exact h g1 p1 hl fun he' => he (Option.some.inj he')

end Shm

end Kryptik.Wlproxy
