import Kryptik.Wlproxy.PoolAccounting

namespace Kryptik.Wlproxy

open Lib Prog Tables Protocol List Option

lemma Kernel.other_some {k : Kernel} {pools : Table ℕ Pool} {file : ℕ × ℕ} {g : ℕ} {p : Pool}
    (h : k.other pools file = some (g, p)) : pools.lookup g = some p ∧ p.file = file := by
  obtain ⟨e, he, hep⟩ := mem_map.mp (mem_of_getElem? h)
  obtain ⟨hmem, hfile⟩ := mem_filter.mp he
  cases hep
  exact ⟨lookup_entries.mp hmem, of_decide_eq_true hfile⟩

lemma Kernel.other_none {k : Kernel} {pools : Table ℕ Pool} {file : ℕ × ℕ}
    (h : k.other pools file = none) : Shm.poolsOn pools file = 0 := by
  have hlen : (onFile pools file).length = 0 := by
    obtain hz | hpos := Nat.eq_zero_or_pos (onFile pools file).length
    · exact hz
    · exact absurd (getElem?_eq_none_iff.mp h) (Nat.not_le.mpr (Nat.mod_lt _ hpos))
  refine total_eq_zero _ fun g p hl => if_neg fun hf => ?_
  have hmem : (g, p) ∈ onFile pools file := mem_map.mpr
    ⟨⟨g, p⟩, mem_filter.mpr ⟨lookup_entries.mpr hl, decide_eq_true hf⟩, rfl⟩
  rw [length_eq_zero_iff.mp hlen] at hmem
  exact not_mem_nil hmem

namespace Shm

variable (k : Kernel) {live : Interface → ℕ → Prop} {t : Shm} {was extra : List ℕ} {g : ℕ} {p : Pool}

lemma Sound.handOver (h : Sound live was t extra (some g)) (hg : t.pools.lookup g = some p)
    (hu : Unused p) {g' : ℕ} {p' : Pool} (hg' : (t.pools.erase g).lookup g' = some p')
    (hf : p'.file = p.file) (hlt : p'.range < p.range) :
    Sound live was { t with
      pools := (t.pools.erase g).insert g' { p' with range := p.range }
      poolBytes := t.poolBytes - p.range + (p.range - p'.range)
      poolCount := t.poolCount - 1
      fileEvents := t.fileEvents ++ [.released p.file none] } extra none := by
  obtain ⟨hne, hl'⟩ := lookup_of_erase hg'
  obtain ⟨_, hb, hc⟩ := h.charged.erase hg
  have hle := h.charged.bytes_le
  have hsize := h.charged.size_le g' p' hl'
  refine ⟨?_, ?_, h.keyed, ?_, ?_, ?_⟩
  · exact hc.grow hg' (hsize.trans (Nat.le_of_lt hlt)) (Nat.le_of_lt hlt)
      (h.charged.range_le g p hg) (by dsimp only; omega)
  · exact (h.named.erase hg hu).update hg' rfl rfl
  · exact (h.held.erase hg hu.2.2).update hg' rfl
  · exact h.inUse.erase.keep (h.inUse g' p' hl' fun he => hne (Option.some.inj he))
  · rw [← erase_insert_comm (Ne.symm hne)]
    have hgrown : Filed (t.pools.insert g' { p' with range := p.range }) t.fileEvents :=
      h.filed.grow hl' rfl (Nat.le_of_lt hlt)
    exact hgrown.release (by rw [AList.lookup_insert_ne (Ne.symm hne), hg]) hne
      (AList.lookup_insert t.pools) hf (Nat.le_refl _)

lemma releasePoolIfUnused_sound (h : Sound live was t extra (some g)) :
    wp (releasePoolIfUnused k g) (fun _ t' => Sound live was t' extra none) Ends t := by
  unfold releasePoolIfUnused
  simp only [wp_bind, wp_get]
  split
  · rename_i hg
    exact ⟨h.charged, h.named, h.keyed, h.held, h.inUse.settle (by simp [hg]), h.filed⟩
  · rename_i p hg
    refine wp_ite (fun hu => ?_) fun hu => ?_
    · obtain ⟨h1, hb, hc⟩ := h.charged.erase hg
      simp only [wp_bind, wp_checkedSub hb, wp_checkedSub h1]
      split
      · rename_i g' p' ho
        obtain ⟨hl, hf⟩ := Kernel.other_some ho
        refine wp_ite (fun hlt => ?_) fun hge => ?_
        · exact h.handOver hg hu hl hf hlt
        · obtain ⟨hne, hl'⟩ := lookup_of_erase hl
          exact ⟨hc, h.named.erase hg hu, h.keyed, h.held.erase hg hu.2.2, h.inUse.erase,
            h.filed.release hg hne hl' hf (Nat.not_lt.mp hge)⟩
      · rename_i ho
        exact ⟨hc, h.named.erase hg hu, h.keyed, h.held.erase hg hu.2.2, h.inUse.erase,
          h.filed.releaseLast hg (Kernel.other_none ho)⟩
    · exact ⟨h.charged, h.named, h.keyed, h.held,
        h.inUse.settle fun p' hp' => Option.some.inj (hg.symm.trans hp') ▸ hu, h.filed⟩

lemma unhold_sound (h : Sound live was t (g :: extra) none) :
    wp (unhold k g) (fun _ t' => Sound live was t' extra none) Ends t := by
  have hcount (g1 : ℕ) (hne : g1 ≠ g) : (g :: extra).count g1 = extra.count g1 :=
    count_cons_of_ne (Ne.symm hne)
  unfold unhold
  simp only [wp_bind, wp_get]
  split
  · rename_i p hg
    have hheld := h.held.count g p hg
    rw [count_cons_self] at hheld
    rw [wp_bind, wp_checkedSub (by omega)]
    refine releasePoolIfUnused_sound k ⟨h.charged.update hg rfl rfl, h.named.update hg rfl rfl,
      h.keyed, ⟨fun g1 p1 hl => ?_, h.held.known, h.held.pending, fun g1 hm => h.held.extra g1 (mem_cons_of_mem g hm),
        fun g1 hw hn => h.held.gone g1 hw fun hm => hn ((mem_update hg).mpr hm)⟩, h.inUse.update,
      h.filed.grow hg rfl (Nat.le_refl _)⟩
    obtain ⟨rfl, rfl⟩ | ⟨hne, hl⟩ := lookup_of_insert hl
    · dsimp only
      omega
    · rw [h.held.count g1 p1 hl, hcount g1 hne]
  · rename_i hg
    refine releasePoolIfUnused_sound k ⟨h.charged, h.named, h.keyed, ⟨fun g1 p1 hl => ?_, h.held.known,
      h.held.pending, fun g1 hm => h.held.extra g1 (mem_cons_of_mem g hm), h.held.gone⟩, ?_, h.filed⟩
    · rw [h.held.count g1 p1 hl, hcount g1 (by rintro rfl; simp [hg] at hl)]
    · exact fun g1 p1 hl _ => h.inUse g1 p1 hl (by simp)

lemma forM_unhold_sound (freed : List ℕ) (h : Sound live was t (freed ++ extra) none) :
    wp (freed.forM (unhold k)) (fun _ t' => Sound live was t' extra none) Ends t := by
  induction freed generalizing t with
  | nil => exact h
  | cons g freed ih =>
    exact (wp_bind (unhold k g) _).mpr
      (wp_mono (unhold_sound k h) (fun _ _ ht => ih ht) (fun _ _ he => he))

lemma Sound.surface (h : Sound live was t extra none) {s : ℕ} {sf : Surface} (freed : List ℕ)
    (hc : ∀ g, (t.surface s).held.count (some g) = sf.held.count (some g) + freed.count g)
    (hp : sf.pending = (t.surface s).pending ∨ sf.pending = none) :
    Sound live was { t with surfaces := t.surfaces.insert s sf } (freed ++ extra) none :=
  ⟨h.charged, h.named, h.keyed, h.held.put freed hc hp, h.inUse, h.filed⟩

lemma Sound.sameHeld (h : Sound live was t extra none) {s : ℕ} {sf : Surface}
    (hh : sf.held = (t.surface s).held) (hp : sf.pending = (t.surface s).pending) :
    Sound live was { t with surfaces := t.surfaces.insert s sf } extra none :=
  ⟨h.charged, h.named, h.keyed, h.held.keep hh (Or.inl hp), h.inUse, h.filed⟩

def cachedCount (t : Shm) : ℕ := total (fun _ sf => if sf.cached then 1 else 0) t.surfaces

def childCount (t : Shm) : ℕ := total (fun _ sf => sf.children.length) t.surfaces

/-- Bounds the turns left to the loop of `apply`: a cached surface on top pays
for the children it pushes with its cache, and any other one is paid for. -/
def potential (t : Shm) (todo : List ℕ) : ℕ :=
  t.cachedCount * t.childCount + todo.length +
    if (todo.head?.bind t.surfaces.lookup).any Surface.cached then 0 else t.childCount

variable {s : ℕ} {sf : Surface} {todo : List ℕ}

def applied (sf : Surface) : Surface := { sf with held := sf.held.getLast?.toList, cached := false }

lemma applyOne_some (hs : t.surfaces.lookup s = some sf) :
    (t.applyOne s).1 = { t with surfaces := t.surfaces.insert s (applied sf) } := by
  simp only [applyOne, hs]
  rfl

lemma childCount_applyOne (t : Shm) (s : ℕ) : (t.applyOne s).1.childCount = t.childCount := by
  cases hs : t.surfaces.lookup s with
  | none => simp only [applyOne, hs]
  | some sf =>
    have h := total_update (fun _ sf => sf.children.length) hs (applied sf)
    rw [applyOne_some hs]
    exact Nat.add_left_cancel h

lemma cachedCount_applyOne (hs : t.surfaces.lookup s = some sf) :
    (if sf.cached then 1 else 0) + (t.applyOne s).1.cachedCount = t.cachedCount := by
  have h := total_update (fun _ sf => if sf.cached then 1 else 0) hs (applied sf)
  rw [applyOne_some hs]
  exact h.trans (Nat.zero_add _)

lemma length_kids_le (t : Shm) (s : ℕ) : (t.applyOne s).2.2.length ≤ t.childCount := by
  cases hs : t.surfaces.lookup s with
  | none => simp [applyOne, hs]
  | some sf =>
    simp only [applyOne, hs]
    exact (length_filter_le _ _).trans (le_total (fun _ sf => sf.children.length) hs)

lemma kids_cached {c : ℕ} (hc : c ∈ (t.applyOne s).2.2) :
    ((t.applyOne s).1.surfaces.lookup c).any Surface.cached := by
  cases hs : t.surfaces.lookup s with
  | none => simp [applyOne, hs] at hc
  | some sf =>
    simp only [applyOne, hs, mem_filter] at hc ⊢
    revert hc
    generalize AList.lookup c _ = found
    cases found <;> simp

lemma potential_cons (t : Shm) (s : ℕ) (todo : List ℕ) : t.potential (s :: todo) =
    t.cachedCount * t.childCount + (todo.length + 1) +
      if (t.surfaces.lookup s).any Surface.cached then 0 else t.childCount := rfl

lemma potential_le (t : Shm) (todo : List ℕ) : t.potential todo ≤
    t.cachedCount * t.childCount + todo.length + t.childCount := by
  unfold potential
  split <;> omega

lemma potential_pushed (t : Shm) (kids todo : List ℕ) (hk : kids ≠ [])
    (hc : ∀ c ∈ kids, (t.surfaces.lookup c).any Surface.cached) :
    t.potential (kids.reverse ++ todo) = t.cachedCount * t.childCount + (kids.length + todo.length) := by
  obtain ⟨l, c, rfl⟩ := (eq_nil_or_concat' kids).resolve_left hk
  have := hc c (by simp)
  simp [potential, this]
  omega

lemma potential_applyOne (t : Shm) (s : ℕ) (todo : List ℕ) :
    (t.applyOne s).1.potential ((t.applyOne s).2.2.reverse ++ todo) < t.potential (s :: todo) := by
  have hkids := length_kids_le t s
  have hchild := childCount_applyOne t s
  rw [potential_cons]
  cases hs : t.surfaces.lookup s with
  | none =>
    have h1 : (t.applyOne s).1 = t := by simp only [applyOne, hs]
    have h2 : (t.applyOne s).2.2 = [] := by simp only [applyOne, hs]
    rw [h1, h2]
    have := potential_le t todo
    simp only [reverse_nil, nil_append, any_none]
    simp only [Bool.false_eq_true, if_false]
    omega
  | some sf =>
    have hcached := cachedCount_applyOne hs
    have hpush : (t.applyOne s).1.potential ((t.applyOne s).2.2.reverse ++ todo) ≤
        (t.applyOne s).1.cachedCount * t.childCount + todo.length + t.childCount := by
      by_cases hk : (t.applyOne s).2.2 = []
      · rw [hk, ← hchild]
        exact potential_le _ todo
      · rw [potential_pushed _ _ _ hk fun c hc => kids_cached hc, hchild]
        omega
    by_cases hf : sf.cached = true
    · rw [if_pos hf] at hcached
      rw [← hcached, Nat.add_mul]
      omega
    · rw [if_neg hf, Nat.zero_add] at hcached
      simp only [any_some, if_neg hf]
      rw [hcached] at hpush
      omega

lemma potential_le_applyFuel (t : Shm) (s : ℕ) : t.potential [s] ≤ t.applyFuel := by
  have hle : t.cachedCount ≤ size t.surfaces := by
    rw [size_eq_total]
    refine total_le_total _ (fun _ sf => ?_) t.surfaces
    split <;> omega
  have := potential_le t [s]
  have hm : t.cachedCount * t.childCount ≤ size t.surfaces * t.childCount :=
    Nat.mul_le_mul_right _ hle
  have he : t.applyFuel = size t.surfaces * t.childCount + t.childCount + 1 := by
    rw [applyFuel, childCount, Nat.add_mul, Nat.one_mul]
  rw [length_singleton] at this
  omega

lemma count_applied (sf : Surface) (g : ℕ) : sf.held.count (some g) =
    (applied sf).held.count (some g) + sf.held.dropLast.reduceOption.count g := by
  rw [count_reduceOption]
  rcases eq_nil_or_concat' sf.held with h | ⟨l, a, h⟩ <;>
    simp [applied, h, Nat.add_comm]

lemma surface_of_lookup (hs : t.surfaces.lookup s = some sf) : t.surface s = sf := by
  rw [surface, hs, getD_some]

lemma Sound.applyOne (h : Sound live was t extra none) (s : ℕ) :
    Sound live was (t.applyOne s).1 ((t.applyOne s).2.1 ++ extra) none := by
  cases hs : t.surfaces.lookup s with
  | none =>
    simp only [Shm.applyOne, hs]
    exact h
  | some sf =>
    have hf : (t.applyOne s).2.1 = sf.held.dropLast.reduceOption := by simp only [Shm.applyOne, hs]
    rw [applyOne_some hs, hf]
    exact h.surface _ (by rw [surface_of_lookup hs]; exact count_applied sf) (.inl (by rw [surface_of_lookup hs]; rfl))

lemma Sound.perm {l : List ℕ} (h : Sound live was t extra none) (hl : extra.Perm l) : Sound live was t l none :=
  ⟨h.charged, h.named, h.keyed, ⟨fun g p hg => by rw [h.held.count g p hg, hl.count_eq g], h.held.known,
    h.held.pending, fun g hm => h.held.extra g (hl.mem_iff.mpr hm), h.held.gone⟩, h.inUse, h.filed⟩

lemma applyLoop_sound (n : ℕ) (todo freed : List ℕ) (hn : t.potential todo ≤ n)
    (h : Sound live was t (freed ++ extra) none) :
    wp (applyLoop n todo freed) (fun freed' t' => Sound live was t' (freed' ++ extra) none) Ends t := by
  induction n generalizing t todo freed with
  | zero =>
    cases todo with
    | nil => exact h
    | cons s todo => exact absurd hn (by rw [potential_cons]; omega)
  | succ n ih =>
    cases todo with
    | nil => exact h
    | cons s todo =>
      have hlt := potential_applyOne t s todo
      refine ih _ _ (by omega) ((h.applyOne s).perm ?_)
      rw [← append_assoc]
      exact perm_append_comm.append_right extra

lemma apply_sound (s : ℕ) (h : Sound live was t extra none) :
    wp (apply k s) (fun _ t' => Sound live was t' extra none) Ends t := by
  simp only [apply, wp_bind, wp_get]
  refine wp_mono (applyLoop_sound _ [s] [] (potential_le_applyFuel t s) h) (fun freed t' ht => ?_) (fun _ _ he => he)
  exact forM_unhold_sound k freed ht

lemma Sound.orphan (h : Sound live was t extra none) (s : ℕ) (parent : Option ℕ) :
    Sound live was (t.orphan s parent) extra none := by
  unfold Shm.orphan
  split
  · exact h
  · split
    · exact h
    · rename_i hl
      exact h.sameHeld (by rw [surface_of_lookup hl]) (by rw [surface_of_lookup hl])

lemma endRole_sound (s : ℕ) (h : Sound live was t extra none) :
    wp (endRole s) (fun _ t' => Sound live was t' extra none) Ends t := by
  simp only [endRole, wp_bind, wp_get]
  split
  · exact h
  · rename_i hl
    exact (h.sameHeld (by rw [surface_of_lookup hl]) (by rw [surface_of_lookup hl])).orphan s _

lemma detach_sound (s : ℕ) (h : Sound live was t extra none) :
    wp (detach k s) (fun _ t' => Sound live was t' extra none) Ends t := by
  refine wp_ite (fun _ => ?_) fun _ => ?_
  · exact (wp_bind _ _).mpr
      (wp_mono (apply_sound k s h) (fun _ _ ht => endRole_sound s ht) fun _ _ he => he)
  · exact endRole_sound s h

lemma Held.hold {pools pools' : Table ℕ Pool} {surfaces : Table ℕ Surface} {nextPool : ℕ}
    (h : Held was pools surfaces nextPool extra) (hs : surfaces.lookup s = some sf) {a : Option ℕ}
    (ha : sf.pending = some a) (hw : ∀ g ∈ was, g ∈ pools')
    (hp : ∀ g p, pools'.lookup g = some p → p.held = heldBy surfaces g + extra.count g + if a = some g then 1 else 0) :
    Held was pools' (surfaces.insert s { sf with pending := none, held := sf.held ++ [a] }) nextPool extra where
  count g p hl := by
    have h1 := heldBy_put surfaces s { sf with pending := none, held := sf.held ++ [a] } g
    rw [hs, getD_some, count_append, count_singleton] at h1
    rw [hp g p hl]
    simp only [beq_iff_eq] at h1
    omega
  known s1 sf1 hl g hm := by
    obtain ⟨rfl, rfl⟩ | ⟨_, hl⟩ := lookup_of_insert hl
    · obtain hm | hm := mem_append.mp hm
      · exact h.known s1 sf hs g hm
      · exact h.pending s1 sf hs g (by rw [ha, mem_singleton.mp hm])
    · exact h.known s1 sf1 hl g hm
  pending s1 sf1 hl g hm := by
    obtain ⟨rfl, rfl⟩ | ⟨_, hl⟩ := lookup_of_insert hl
    · cases hm
    · exact h.pending s1 sf1 hl g hm
  extra := h.extra
  gone g hg hn := absurd (hw g hg) hn

lemma holdPending_sound (s : ℕ) (h : Sound live was t extra none) (hw : ∀ g ∈ was, g ∈ t.pools) :
    wp (holdPending s) (fun _ t' => Sound live was t' extra none) Ends t := by
  simp only [holdPending, wp_bind, wp_get]
  split
  · exact h
  rename_i sf hs
  split
  · exact h
  rename_i a ha
  refine wp_ite (fun _ => ?_) fun _ => wp_ite (fun _ => ⟨⟨_, rfl⟩, h.charged, h.filed⟩) fun _ => ?_
  · exact h.surface [] (fun g => by rw [surface_of_lookup hs]; rfl) (.inr rfl)
  split
  · rename_i hb
    refine ⟨h.charged, h.named, h.keyed, h.held.hold hs ha hw fun g p hl => ?_, h.inUse, h.filed⟩
    have hne : a ≠ some g := by
      rintro rfl
      exact absurd hb (by simp [show t.pools.lookup g = some p from hl])
    rw [h.held.count g p hl, if_neg hne, Nat.add_zero]
  · rename_i g pool hb
    obtain ⟨rfl, hg⟩ : a = some g ∧ t.pools.lookup g = some pool := by
      cases a with
      | none => simp at hb
      | some g' =>
        obtain ⟨_, hq, he⟩ := map_eq_some_iff.mp hb
        cases he
        exact ⟨rfl, hq⟩
    refine ⟨h.charged.update hg rfl rfl, h.named.update hg rfl rfl, h.keyed,
      h.held.hold hs ha (fun g1 hm => (mem_update hg).mpr (hw g1 hm)) fun g1 p1 hl => ?_,
      h.inUse.keep (fun hu => Nat.succ_ne_zero _ hu.2.2), h.filed.grow hg rfl (Nat.le_refl _)⟩
    obtain ⟨rfl, rfl⟩ | ⟨hne, hl⟩ := lookup_of_insert hl
    · rw [if_pos rfl, h.held.count g1 pool hg]
    · rw [if_neg fun he => hne (Option.some.inj he).symm, h.held.count g1 p1 hl, Nat.add_zero]

lemma commit_sound (s : ℕ) (h : Sound live was t extra none) (hw : ∀ g ∈ was, g ∈ t.pools) :
    wp (commit k s) (fun _ t' => Sound live was t' extra none) Ends t := by
  simp only [commit, wp_bind]
  refine wp_mono (holdPending_sound s h hw) (fun _ t' ht => ?_) fun _ _ he => he
  refine wp_ite (fun _ => ?_) fun _ => apply_sound k s ht
  split
  · exact ht
  · rename_i hl
    exact ht.sameHeld (by rw [surface_of_lookup hl]) (by rw [surface_of_lookup hl])

lemma size_of_sizeOk {size : ℕ} (h : sizeOk size = true) : size ≤ Policy.maxShmPoolBytes := by
  simp only [sizeOk, Bool.and_eq_true, decide_eq_true_eq] at h
  exact h.2

lemma createPool_sound (id size : ℕ) (fd : Option Wire.Fd) (h : Sound live was t extra none) :
    wp (createPool k id size fd) (fun _ t' => t'.Booked ∧ (id ∉ t.poolIds →
        Sound (fun i x => live i x ∨ i = .wlShmPool ∧ x = id) was t' extra none)) Ends t := by
  refine wp_ite (fun _ => h.ends _) fun hsize => ?_
  have hok : sizeOk size = true := by simpa using hsize
  refine wp_ite (fun _ => h.ends _) fun hroom => ?_
  have hnew := AList.lookup_eq_none.mpr fun hm =>
    Nat.not_succ_le_self _ (h.named.known _ hm)
  simp only [wp_bind, wp_orRefuse, wp_liftSession, wp_set]
  refine ⟨fun _ _ => ⟨fun a _ => ?_, fun e _ => h.ends e⟩, fun _ => h.ends _⟩
  have hcharged := h.charged.create (p := ⟨size, 0, false, 0, a.1, a.2, size⟩) hnew (Nat.le_refl _)
    (size_of_sizeOk hok) (Nat.not_le.mp fun hc => hroom (.inl hc))
    (Nat.not_lt.mp fun hc => hroom (.inr hc))
  refine ⟨⟨hcharged, h.filed.create hnew⟩, fun hid => ?_⟩
  refine ⟨hcharged, h.named.create (AList.lookup_eq_none.mpr hid) rfl rfl, ⟨fun x hx => ?_, fun x hx => ?_⟩,
    h.held.create rfl, h.inUse.keep (fun hu => by simpa using hu.1), h.filed.create hnew⟩
  · obtain rfl | hx := (AList.mem_insert _).mp hx
    · exact .inr ⟨rfl, rfl⟩
    · exact .inl (h.keyed.pools x hx)
  · exact .inl (h.keyed.buffers x hx)

lemma resize_sound (object size : ℕ) (h : Sound live was t extra none) :
    wp (resize object size) (fun _ t' => Sound live was t' extra none) Ends t := by
  simp only [resize, wp_bind, wp_get, wp_orRefuse]
  refine ⟨fun g hid => ?_, fun _ => h.ends _⟩
  obtain ⟨p, hg⟩ := mem_iff_lookup.mp (h.named.ids object g hid)
  rw [wp_unwrap hg]
  refine wp_ite (fun _ => h.ends _) fun hsize => wp_ite (fun _ => h.ends _) fun hroom => ?_
  obtain ⟨hok, hgrow⟩ : sizeOk size = true ∧ p.size ≤ size := by simpa using hsize
  have hrange := h.charged.range_le g p hg
  have hmax := size_of_sizeOk hok
  generalize hp' : { p with size := size, range := p.range + (size - p.range) } = p'
  obtain ⟨hs, hr, hf⟩ : p'.size = size ∧ p'.range = p.range + (size - p.range) ∧
    p'.file = p.file := by rw [← hp']; exact ⟨rfl, rfl, rfl⟩
  have hdiff : p'.range - p.range = size - p.range := by omega
  have hc : Charged (t.pools.insert g p') t.poolCount (t.poolBytes + (p'.range - p.range)) :=
    h.charged.grow hg (by omega) (by omega) (by omega) (by rw [hdiff]; exact Nat.not_lt.mp hroom)
  rw [hdiff] at hc
  exact ⟨hc, h.named.update hg (by rw [← hp']) (by rw [← hp']), h.keyed,
    h.held.update hg (by rw [← hp']), h.inUse.keep (by rw [← hp']; exact h.inUse g p hg (by simp)),
    h.filed.resize hg hf (by omega) (by omega)⟩

lemma createBuffer_sound (object id : ℕ) (h : Sound live was t extra none) :
    wp (createBuffer object id) (fun _ t' => t'.Booked ∧ (id ∉ t.bufferPools →
        Sound (fun i x => live i x ∨ i = .wlBuffer ∧ x = id) was t' extra none)) Ends t := by
  simp only [createBuffer, wp_bind, wp_get, wp_orRefuse, wp_set]
  refine ⟨fun g hid => ?_, fun _ => h.ends _⟩
  obtain ⟨p, hg⟩ := mem_iff_lookup.mp (h.named.ids object g hid)
  rw [wp_unwrap hg]
  refine ⟨⟨h.charged.update hg rfl rfl, h.filed.grow hg rfl (Nat.le_refl _)⟩, fun hfree => ?_⟩
  refine ⟨h.charged.update hg rfl rfl, h.named.buffer hg (AList.lookup_eq_none.mpr hfree),
    ⟨fun x hx => .inl (h.keyed.pools x hx), fun x hx => ?_⟩, h.held.update hg rfl,
    h.inUse.keep fun hu => Nat.succ_ne_zero _ hu.2.1, h.filed.grow hg rfl (Nat.le_refl _)⟩
  obtain rfl | hx := (AList.mem_insert _).mp hx
  · exact .inr ⟨rfl, rfl⟩
  · exact .inl (h.keyed.buffers x hx)

lemma attach_sound (object buffer : ℕ) (h : Sound live was t extra none) :
    wp (attach object buffer) (fun _ t' => Sound live was t' extra none) Ends t := by
  have hsame (g : ℕ) : heldBy (t.surfaces.insert object
      { t.surface object with pending := some (t.bufferPools.lookup buffer) }) g = heldBy t.surfaces g :=
    Nat.add_left_cancel (heldBy_put t.surfaces object _ g)
  refine ⟨h.charged, h.named, h.keyed, ⟨fun g p hl => ?_, fun s sf hl g hm => ?_,
    fun s sf hl g hm => ?_, h.held.extra, fun g hw hn => (hsame g).trans (h.held.gone g hw hn)⟩, h.inUse, h.filed⟩
  · rw [h.held.count g p hl, hsame]
  · obtain ⟨rfl, rfl⟩ | ⟨_, hl⟩ := lookup_of_insert hl
    · cases hs : t.surfaces.lookup s with
      | none => simp [surface, hs] at hm
      | some sf => exact h.held.known s sf hs g (by simpa [surface, hs] using hm)
    · exact h.held.known s sf hl g hm
  · obtain ⟨rfl, rfl⟩ | ⟨_, hl⟩ := lookup_of_insert hl
    · exact h.named.known g (h.named.bufferIds buffer g (Option.some.inj hm))
    · exact h.held.pending s sf hl g hm

lemma getSubsurface_sound (id surface parent : ℕ) (h : Sound live was t extra none) :
    wp (getSubsurface id surface parent) (fun _ t' => Sound live was t' extra none) Ends t := by
  refine wp_ite (fun _ => h.ends _) fun _ => ?_
  have h1 : Sound live was { t with
      surfaces := t.surfaces.insert surface
        { t.surface surface with role := some id, parent := some parent, sync := true } }
      extra none := h.sameHeld rfl rfl
  exact ⟨h.charged, h.named, h.keyed, h1.held.keep rfl (Or.inl rfl), h.inUse, h.filed⟩

lemma liveSurface_some {object s : ℕ} (hs : t.liveSurface object = some s) : ∃ sf, t.surfaces.lookup s = some sf := by
  obtain ⟨_, hf⟩ := filter_eq_some_iff.mp hs
  cases hl : t.surfaces.lookup s with
  | none => simp [hl] at hf
  | some sf => exact ⟨sf, rfl⟩

lemma setSync_sound (object : ℕ) (h : Sound live was t extra none) :
    wp (setSync object) (fun _ t' => Sound live was t' extra none) Ends t := by
  simp only [setSync, wp_bind, wp_get]
  split
  · exact h
  · rename_i hs
    obtain ⟨sf, hl⟩ := liveSurface_some hs
    rw [wp_bind, wp_unwrap hl]
    exact h.sameHeld (by rw [surface_of_lookup hl]) (by rw [surface_of_lookup hl])

lemma setDesync_sound (object : ℕ) (h : Sound live was t extra none) :
    wp (setDesync k object) (fun _ t' => Sound live was t' extra none) Ends t := by
  simp only [setDesync, wp_bind, wp_get]
  split
  · exact h
  · rename_i s hs
    obtain ⟨sf, hl⟩ := liveSurface_some hs
    have h1 : Sound live was { t with surfaces := t.surfaces.insert s { sf with sync := false } }
        extra none := h.sameHeld (by rw [surface_of_lookup hl]) (by rw [surface_of_lookup hl])
    rw [wp_bind, wp_unwrap hl]
    exact wp_ite (fun _ => apply_sound k s h1) fun _ => h1

lemma destroySubsurface_sound (object : ℕ) (h : Sound live was t extra none) :
    wp (destroySubsurface k object) (fun _ t' => Sound live was t' extra none) Ends t := by
  have h1 : Sound live was { t with subsurfaces := t.subsurfaces.erase object } extra none :=
    ⟨h.charged, h.named, h.keyed, h.held, h.inUse, h.filed⟩
  simp only [destroySubsurface, wp_bind, wp_get, wp_set]
  split
  · exact h1
  · exact detach_sound k _ h1

lemma deletePool_sound (id : ℕ) (h : Sound live was t extra none) : wp (deletePool k id)
      (fun _ t' => Sound (fun i x => live i x ∧ ¬ (i = .wlShmPool ∧ x = id)) was t' extra none)
      Ends t := by
  simp only [deletePool, wp_bind, wp_get]
  split
  · rename_i hid
    refine ⟨h.charged, h.named, ⟨fun x hx => ⟨h.keyed.pools x hx, ?_⟩,
      fun x hx => ⟨h.keyed.buffers x hx, by simp⟩⟩, h.held, h.inUse, h.filed⟩
    rintro ⟨-, rfl⟩
    exact AList.lookup_eq_none.mp hid hx
  · rename_i g hid
    obtain ⟨p, hg⟩ := mem_iff_lookup.mp (h.named.ids id g hid)
    simp only [wp_bind, wp_set, wp_unwrap hg]
    refine releasePoolIfUnused_sound k ⟨h.charged.update hg rfl rfl, h.named.deletePool hid hg,
      ⟨fun x hx => ?_, fun x hx => ⟨h.keyed.buffers x hx, by simp⟩⟩, h.held.update hg rfl,
      h.inUse.update, h.filed.grow hg rfl (Nat.le_refl _)⟩
    obtain ⟨hne, hx⟩ := AList.mem_erase.mp hx
    exact ⟨h.keyed.pools x hx, fun he => hne he.2⟩

lemma deleteBuffer_sound (id : ℕ) (h : Sound live was t extra none) : wp (deleteBuffer k id)
      (fun _ t' => Sound (fun i x => live i x ∧ ¬ (i = .wlBuffer ∧ x = id)) was t' extra none)
      Ends t := by
  simp only [deleteBuffer, wp_bind, wp_get]
  split
  · rename_i hid
    refine ⟨h.charged, h.named, ⟨fun x hx => ⟨h.keyed.pools x hx, by simp⟩,
      fun x hx => ⟨h.keyed.buffers x hx, ?_⟩⟩, h.held, h.inUse, h.filed⟩
    rintro ⟨-, rfl⟩
    exact AList.lookup_eq_none.mp hid hx
  · rename_i g hid
    obtain ⟨p, hg⟩ := mem_iff_lookup.mp (h.named.bufferIds id g hid)
    have hpos : 1 ≤ p.buffers := by
      rw [h.named.buffers g p hg]
      exact backed_pos hid
    simp only [wp_bind, wp_set, wp_unwrap hg, wp_checkedSub hpos]
    refine releasePoolIfUnused_sound k ⟨h.charged.update hg rfl rfl, h.named.deleteBuffer hid hg,
      ⟨fun x hx => ⟨h.keyed.pools x hx, by simp⟩, fun x hx => ?_⟩, h.held.update hg rfl,
      h.inUse.update, h.filed.grow hg rfl (Nat.le_refl _)⟩
    obtain ⟨hne, hx⟩ := AList.mem_erase.mp hx
    exact ⟨h.keyed.buffers x hx, fun he => hne he.2⟩

lemma deleteSurface_sound (id : ℕ) (h : Sound live was t extra none) :
    wp (deleteSurface k id) (fun _ t' => Sound live was t' extra none) Ends t := by
  simp only [deleteSurface, wp_bind, wp_get]
  split
  · exact h
  · rename_i sf hs
    have h1 : Sound live was { t with surfaces := t.surfaces.erase id } (sf.held.reduceOption ++ extra) none :=
      ⟨h.charged, h.named, h.keyed, h.held.eraseSurface hs, h.inUse, h.filed⟩
    simp only [wp_bind, wp_set]
    refine wp_mono (wp_forM sf.children (fun c _ t' ht => detach_sound k c ht) h1) (fun _ t' ht => ?_) fun _ _ he => he
    exact forM_unhold_sound k _ (ht.orphan id sf.parent)

lemma Sound.mono {live' : Interface → ℕ → Prop} (h : Sound live was t extra none)
    (hl : ∀ i x, live i x → live' i x) : Sound live' was t extra none :=
  ⟨h.charged, h.named, ⟨fun x hx => hl _ x (h.keyed.pools x hx),
    fun x hx => hl _ x (h.keyed.buffers x hx)⟩, h.held, h.inUse, h.filed⟩

lemma deleteId_sound (id : ℕ) (h : Sound live was t extra none) :
    wp (deleteId k id) (fun _ t' => Sound (fun i x => live i x ∧ x ≠ id) was t' extra none) Ends t := by
  simp only [deleteId, wp_bind]
  refine wp_mono (deletePool_sound k id h) (fun _ _ h1 => ?_) fun _ _ he => he
  refine wp_mono (deleteBuffer_sound k id h1) (fun _ _ h2 => ?_) fun _ _ he => he
  refine deleteSurface_sound k id
    ⟨h2.charged, h2.named, ⟨fun x hx => ?_, fun x hx => ?_⟩, h2.held, h2.inUse, h2.filed⟩
  · obtain ⟨⟨hl, hne⟩, _⟩ := h2.keyed.pools x hx
    exact ⟨hl, fun he => hne ⟨rfl, he⟩⟩
  · obtain ⟨⟨hl, _⟩, hne⟩ := h2.keyed.buffers x hx
    exact ⟨hl, fun he => hne ⟨rfl, he⟩⟩

lemma sound_empty (live : Interface → ℕ → Prop) : Sound live [] {} [] none where
  charged := ⟨rfl, Nat.zero_le _, rfl, Nat.zero_le _, by simp, by simp⟩
  named := ⟨by simp, by simp, by simp, by simp, by simp, by simp⟩
  keyed := ⟨by simp, by simp⟩
  held := ⟨by simp, by simp, by simp, by simp, by simp⟩
  inUse := by simp [InUse]
  filed := ⟨fun _ => rfl, fun _ h => absurd h (Nat.lt_irrefl 0), fun _ _ => rfl, by simp⟩

end Shm

end Kryptik.Wlproxy
