import Kryptik.Wlproxy.Decoding
import Kryptik.Wlproxy.Queued
import Kryptik.Wlproxy.ShmSound

namespace Kryptik.Wlproxy

open Lib Prog Tables Wire Protocol Objects Shm

variable {i : Interface}

def Objects.Live (o : Objects) (i : Interface) (id : ℕ) : Prop := ∃ version, o.get id = some (i, version)

structure Tallied (o : Objects) (toplevels popups : ℕ) : Prop where
  counted : o.Counted
  bounded : o.Bounded
  toplevels_le : toplevels ≤ Policy.maxToplevelsPerSession
  popups_le : popups ≤ Policy.maxPopupsPerSession
  toplevels : toplevels = o.count (fun x => x.1 = .xdgToplevel)
  popups : popups = o.count (fun x => x.1 = .xdgPopup)

def Placed (placeholders : Table ℕ ℕ) : Prop := ∀ id n, placeholders.lookup id = some n → 0 < n

structure Core.Sound (c : Core) : Prop where
  tallied : Tallied c.objects c.toplevels c.popups
  placed : Placed c.placeholders
  shm : c.shm.Sound c.objects.Live [] [] none

/-- The session just before the object a message creates is registered. -/
structure Core.Ready (d : Decoded) (c : Core) : Prop where
  tallied : Tallied c.objects c.toplevels c.popups
  placed : Placed c.placeholders
  shm : ∀ id name, d.newObject = some (id, name) → c.objects.get id = none →
    c.shm.Sound (fun i x => c.objects.Live i x ∨ find name = some i ∧ x = id) [] [] none
  same : d.newObject = none → c.shm.Sound c.objects.Live [] [] none
  booked : c.shm.Booked

variable {c : Core}

lemma Core.Sound.ready (h : c.Sound) (d : Decoded) : c.Ready d :=
  ⟨h.tallied, h.placed, fun _ _ _ _ => h.shm.mono fun _ _ hl => Or.inl hl, fun _ => h.shm, h.shm.booked⟩

def Core.Stops (e : Fault) (c : Core) : Prop := c.shm.Ends e

lemma Core.Sound.stops (h : c.Sound) (why : SessionError) : Core.Stops (.refused why) c :=
  h.shm.ends why

variable {d : Decoded}

lemma Core.Ready.stops (h : c.Ready d) (why : SessionError) :
    Core.Stops (.refused why) c := ⟨⟨why, rfl⟩, h.booked⟩

lemma Core.Ready.rest {c' : Core} (h : c.Ready d) (hc : c.Same c') : c'.Ready d := by
  obtain ⟨-, ho, htop, hpop, hp, hs, -⟩ := by simpa only [Core.Same, Core.books, Prod.mk.injEq] using hc
  obtain ⟨h1, h2, h3, h4, h5⟩ := h
  rw [← ho, ← htop, ← hpop] at h1
  rw [← hp] at h2
  rw [← ho, ← hs] at h3 h4
  rw [← hs] at h5
  exact ⟨h1, h2, h3, h4, h5⟩

variable {o o' : Objects} {id : ℕ} {x : Obj} {toplevels popups : ℕ}

lemma Tallied.insert (h : Tallied o toplevels popups) (ho : o.insert id x = .ok o')
    (htop : ¬ (x.1 = .xdgToplevel ∧ Policy.maxToplevelsPerSession ≤ toplevels))
    (hpop : ¬ (x.1 = .xdgPopup ∧ Policy.maxPopupsPerSession ≤ popups)) :
    Tallied o' (if x.1 = .xdgToplevel then toplevels + 1 else toplevels)
      (if x.1 = .xdgPopup then popups + 1 else popups) where
  counted := (Objects.inserted ho).counted h.counted
  toplevels := by
    rw [(Objects.inserted ho).count, ← h.toplevels]
    by_cases hx : x.1 = .xdgToplevel <;> simp [hx]
  popups := by
    rw [(Objects.inserted ho).count, ← h.popups]
    by_cases hx : x.1 = .xdgPopup <;> simp [hx]
  bounded := h.bounded.insert ho
  toplevels_le := by
    have hle := h.toplevels_le
    split
    · rename_i hx
      rw [not_and, Nat.not_le] at htop
      exact htop hx
    · exact hle
  popups_le := by
    have hle := h.popups_le
    split
    · rename_i hx
      rw [not_and, Nat.not_le] at hpop
      exact hpop hx
    · exact hle

lemma Tallied.erase (h : Tallied o toplevels popups) (hx : o.get id = some x) :
    (x.1 = .xdgToplevel → 1 ≤ toplevels) ∧ (x.1 = .xdgPopup → 1 ≤ popups) ∧
    Tallied (o.erase id) (if x.1 = .xdgToplevel then toplevels - 1 else toplevels)
      (if x.1 = .xdgPopup then popups - 1 else popups) := by
  have ht := count_erase (fun x => x.1 = .xdgToplevel) hx
  have hp := count_erase (fun x => x.1 = .xdgPopup) hx
  rw [← h.toplevels] at ht
  rw [← h.popups] at hp
  have htop := h.toplevels_le
  have hpop := h.popups_le
  refine ⟨fun he => ?_, fun he => ?_, h.counted.erase id, h.bounded.erase id, ?_, ?_, ?_, ?_⟩
  · simp only [he, decide_true, Bool.toNat_true] at ht
    omega
  · simp only [he, decide_true, Bool.toNat_true] at hp
    omega
  · split <;> omega
  · split <;> omega
  · by_cases he : x.1 = .xdgToplevel
    · simp only [he, if_true, decide_true, Bool.toNat_true] at ht ⊢
      omega
    · simpa only [he, if_false, decide_false, Bool.toNat_false, Nat.add_zero] using ht.symm
  · by_cases he : x.1 = .xdgPopup
    · simp only [he, if_true, decide_true, Bool.toNat_true] at hp ⊢
      omega
    · simpa only [he, if_false, decide_false, Bool.toNat_false, Nat.add_zero] using hp.symm

lemma Tallied.erase_none (h : Tallied o toplevels popups) (hx : o.get id = none) :
    Tallied (o.erase id) toplevels popups := by
  have he : o.erase id = o := by simp [Objects.erase, hx]
  exact he.symm ▸ h

lemma live_insert (hi : Objects.Inserted o id x o') {y : ℕ} (h : o.Live i y ∨ some x.1 = some i ∧ y = id) :
    o'.Live i y := by
  obtain ⟨version, hg⟩ | ⟨hx, rfl⟩ := h
  · exact ⟨version, hi.kept hg⟩
  · cases hx
    exact ⟨x.2, by rw [hi.get, if_pos rfl]⟩

lemma live_erase {y : ℕ} (h : o.Live i y ∧ y ≠ id) : (o.erase id).Live i y := by
  obtain ⟨⟨version, hg⟩, hne⟩ := h
  exact ⟨version, by rw [get_erase, if_neg hne, hg]⟩

namespace Core

variable {c : Core} {clip : Clipboard}

lemma Ready.register {d : Decoded} {name : String} (h : c.Ready d)
    (hd : d.newObject = some (id, name)) (version : ℕ) (dir : Dir) :
    wp (register id name version dir) (fun _ => Sound) Stops c := by
  refine wp_ite (fun _ => h.stops _) fun _ => ?_
  simp only [wp_bind, wp_orRefuse, wp_get]
  refine ⟨fun iface hf => ?_, fun _ => h.stops _⟩
  refine wp_ite (fun _ => h.stops _) fun htop => wp_ite (fun _ => h.stops _) fun hpop => ?_
  simp only [wp_bind, wp_liftSession, wp_set]
  refine ⟨fun objects ho => ?_, fun _ _ => h.stops _⟩
  have hi := Objects.inserted ho
  refine ⟨h.tallied.insert ho htop hpop, h.placed, (h.shm id name hd hi.free).mono fun i y hl => ?_⟩
  exact live_insert hi (hl.imp_right (And.imp_left hf.symm.trans))

lemma steered : Steered Sound Stops fun _ _ => True where
  stops := Sound.stops
  rest h hc := by
    obtain ⟨-, ho, htop, hpop, hp, hs, -⟩ := by simpa only [books, Prod.mk.injEq] using hc
    constructor
    · rw [ho, htop, hpop]
      exact h.tallied
    · rw [hp]
      exact h.placed
    · rw [ho, hs]
      exact h.shm
  own _ := trivial
  down h _ := ⟨h.tallied, h.placed, h.shm⟩
  up h _ := ⟨h.tallied, h.placed, h.shm⟩
  placed _ h := by
    refine ⟨h.tallied, fun x n hx => ?_, h.shm⟩
    obtain ⟨_, rfl⟩ | ⟨_, hx⟩ := lookup_of_insert hx
    · exact Nat.succ_pos _
    · exact h.placed x n hx
  offered id version dir := fun _ h => (h.ready { newObject := some (id, _) }).register rfl version dir

lemma safe_endPlaceholder (id : ℕ) : Ensures Sound Stops (endPlaceholder id) := by
  intro c h
  simp only [endPlaceholder, wp_bind, wp_get]
  cases hp : c.placeholders.lookup id with
  | none => exact h
  | some n =>
    simp only [wp_bind, wp_checkedSub (h.placed id n hp), wp_set, wp_pure]
    refine ⟨h.tallied, fun x k hx => ?_, h.shm⟩
    split at hx
    · exact h.placed x k (lookup_of_erase hx).2
    · obtain ⟨_, rfl⟩ | ⟨_, hx⟩ := lookup_of_insert hx
      · omega
      · exact h.placed x k hx

def accounted : List Interface := [.xdgToplevel, .xdgPopup, .wlShmPool, .wlBuffer]

lemma Sound.erase (h : c.Sound) (hx : ∀ x, c.objects.get id = some x → x.1 ∉ accounted) :
    Sound { c with objects := c.objects.erase id } := by
  cases hg : c.objects.get id with
  | none =>
    have he : c.objects.erase id = c.objects := by simp [Objects.erase, hg]
    rw [he]
    exact h
  | some x =>
    have hn := hx x hg
    simp only [accounted, List.mem_cons, List.not_mem_nil, or_false, not_or] at hn
    have ht := (h.tallied.erase hg).2.2
    rw [if_neg hn.1, if_neg hn.2.1] at ht
    have hlive (i : Interface) (hi : x.1 ≠ i) (y : ℕ) (hl : c.objects.Live i y) : (c.objects.erase id).Live i y := by
      refine live_erase ⟨hl, ?_⟩
      rintro rfl
      obtain ⟨version, hl⟩ := hl
      exact hi (congrArg Prod.fst (Option.some.inj (hg.symm.trans hl)))
    exact ⟨ht, h.placed, h.shm.charged, h.shm.named, ⟨fun y hy => hlive _ hn.2.2.1 y (h.shm.keyed.pools y hy),
        fun y hy => hlive _ hn.2.2.2 y (h.shm.keyed.buffers y hy)⟩,
      h.shm.held, h.shm.inUse, h.shm.filed⟩

lemma Sound.remove (h : c.Sound) (hx : ∀ x, c.objects.get id = some x → x.1 ∉ accounted) :
    wp (onObjects (Objects.remove id)) (fun _ => Sound) Stops c := by
  simp only [onObjects, wp_zoom]
  refine wp_mono (wp_remove c.objects id) (fun _ o ho => ?_) fun _ _ he => ?_
  · rw [ho]
    exact h.erase hx
  · exact absurd h.tallied.counted he.2

end Core

open Wlproxy.Core

def World.Sound (w : World) : Prop := w.core.Sound

def World.Stops (e : Fault) (w : World) : Prop := w.core.Stops e

variable {α : Type} {w : World}

lemma World.Sound.stops (h : w.Sound) (why : SessionError) : World.Stops (.refused why) w :=
  Core.Sound.stops h why

lemma not_accounted_of_served (h : Policy.served i.name = true) : i ∉ accounted := by
  revert h
  cases i <;> decide

namespace Request

variable {live : Interface → ℕ → Prop}
variable {h : Header} {iface : Interface} {m : Message} {body : Bytes} {fds : List Fd} {d : Decoded}

lemma createPool_args : ∀ m ∈ Interface.wlShm.requests, m.name = "create_pool" →
    m.args = [.newId (some .wlShmPool), .fd, .int] := by decide

lemma createBuffer_args : ∀ m ∈ Interface.wlShmPool.requests, m.name = "create_buffer" →
    m.args = [.newId (some .wlBuffer), .int, .int, .int, .int, .uint] := by decide

/-- The accounts once a message is through, if the object it creates has a free
id, as its registration finds out. -/
def Accounted (d : Decoded) (live : Interface → ℕ → Prop) (t : Shm) : Prop :=
  (∀ id name, d.newObject = some (id, name) → (∀ i, ¬ live i id) →
    t.Sound (fun i x => live i x ∨ find name = some i ∧ x = id) [] [] none) ∧
  (d.newObject = none → t.Sound live [] [] none) ∧ t.Booked

variable {t : Shm}

lemma Accounted.of_sound (h : t.Sound live [] [] none) : Accounted d live t :=
  ⟨fun _ _ _ _ => h.mono fun _ _ hl => Or.inl hl, fun _ => h, h.booked⟩

lemma Accounted.of_created {i : Interface} {id : ℕ} (hd : d.newObject = some (id, i.name)) (hf : t.Booked)
    (h : ¬ live i id → t.Sound (fun j x => live j x ∨ j = i ∧ x = id) [] [] none) :
    Accounted d live t := by
  refine ⟨fun id' name hd' hfree => ?_, fun hn => ?_, hf⟩
  · cases hd.symm.trans hd'
    refine (h (hfree i)).mono fun j x hl => hl.imp_right fun ⟨hj, hx⟩ => ⟨?_, hx⟩
    rw [hj, find_name]
  · rw [hd] at hn
    cases hn

lemma sound_account (k : Kernel) (ht : t.Sound live [] [] none) (hm : m ∈ iface.requests)
    (hd : decode m body = .ok d) :
    wp (account k h iface m body fds d) (fun _ => Accounted d live) Shm.Ends t := by
  have hsame {x : ShmM Unit} (hx : wp x (fun _ t' => t'.Sound live [] [] none) Shm.Ends t) :
      wp x (fun _ => Accounted d live) Shm.Ends t :=
    wp_mono hx (fun _ _ h' => .of_sound h') fun _ _ he => he
  refine wp_ite (fun hc => ?_) fun _ => wp_ite (fun _ => ?_) fun _ => wp_ite (fun hc => ?_) fun _ =>
    wp_ite (fun _ => ?_) fun _ => wp_ite (fun _ => ?_) fun _ => wp_ite (fun _ => ?_) fun _ =>
    wp_ite (fun _ => ?_) fun _ => wp_ite (fun _ => ?_) fun _ => wp_ite (fun _ => ?_) fun _ => .of_sound ht
  · obtain ⟨rfl, hn⟩ := hc
    simp only [wp_bind, wp_liftWire]
    refine ⟨fun a ha => ?_, fun _ _ => ht.ends _⟩
    obtain ⟨id, size⟩ := a
    obtain ⟨left, ha⟩ := readArgs_ok ha
    obtain ⟨id', mid, hid, ha⟩ := ArgReader.bind_ok ha
    obtain ⟨size', _, _, ha⟩ := ArgReader.bind_ok ha
    obtain ⟨rfl, _⟩ := Prod.mk.inj (Prod.mk.inj (Except.ok.inj ha)).1
    have hnew := decode_first (createPool_args m hm hn) hd hid
    refine wp_mono (createPool_sound k id' size fds.head? ht) (fun _ t' h' => ?_) fun _ _ he => he
    exact .of_created hnew h'.1 fun hfree => h'.2 fun hin => hfree (ht.keyed.pools id' hin)
  · simp only [wp_bind, wp_liftWire]
    exact ⟨fun size _ => hsame (resize_sound _ size ht), fun _ _ => ht.ends _⟩
  · obtain ⟨rfl, hn⟩ := hc
    simp only [wp_bind, wp_orRefuse]
    refine ⟨fun a ha => ?_, fun _ => ht.ends _⟩
    obtain ⟨id, name⟩ := a
    have hargs := createBuffer_args m hm hn
    have hnew : d.newObject = some (id, Interface.wlBuffer.name) := by
      cases decode_makes hd with
      | none ho => rw [ho] at ha; cases ha
      | typed i id' _ hi ho =>
        obtain rfl : i = .wlBuffer := by simpa [hargs] using hi
        rw [ho] at ha ⊢
        rw [(Prod.mk.inj (Option.some.inj ha)).1]
      | named _ _ _ _ hi => simp [hargs] at hi
    refine wp_mono (createBuffer_sound _ id ht) (fun _ t' h' => ?_) fun _ _ he => he
    exact .of_created hnew h'.1 fun hfree => h'.2 fun hin => hfree (ht.keyed.buffers id hin)
  · simp only [wp_bind, wp_liftWire]
    exact ⟨fun buffer _ => hsame (attach_sound _ buffer ht), fun _ _ => ht.ends _⟩
  · exact hsame (commit_sound k _ ht fun _ h => by cases h)
  · refine wp_ite (fun _ => ht.ends _) fun _ => ?_
    simp only [wp_bind, wp_liftWire]
    exact ⟨fun a _ => hsame (getSubsurface_sound _ _ _ ht), fun _ _ => ht.ends _⟩
  · exact hsame (setSync_sound _ ht)
  · exact hsame (setDesync_sound k _ ht)
  · exact hsame (destroySubsurface_sound k _ ht)

lemma sound_answer {version : ℕ} (forward : Bool) (hw : w.Sound)
    (hg : w.core.objects.get h.object = some (iface, version)) :
    wp (answer h iface m body fds forward) (fun _ => World.Sound) World.Stops w := by
  refine Core.steered.answer forward hw fun hs c ho hc => hc.remove fun x hx => ?_
  cases hg.symm.trans (ho ▸ hx)
  exact not_accounted_of_served hs

lemma sound_policy (k : Kernel) {version : ℕ} (hw : w.Sound)
    (hg : w.core.objects.get h.object = some (iface, version)) (hm : m ∈ iface.requests)
    (hd : decode m body = .ok d) :
    wp (policy k h iface m body fds d) (fun _ w' => w'.core.Ready d) World.Stops w := by
  simp only [policy, onCore, wp_bind, wp_zoom, wp_pure]
  refine wp_mono (wp_and (Core.steered.minor minor_checkBind w.core hw) (wp_checkBind w.core)) (fun forward c1 h1 => ?_)
    fun _ _ he => he.1
  obtain ⟨h1, _, hv⟩ := h1
  have hg1 : c1.objects.get h.object = some (iface, version) := by
    rw [show c1.objects = w.core.objects from congrArg View.objects hv, hg]
  refine wp_mono (sound_answer (w := ⟨c1, w.clip⟩) forward h1 hg1) (fun _ w2 h2 => ?_) fun _ _ he => he
  refine wp_mono (Core.steered.minor minor_identity w2.core h2) (fun _ c3 h3 => ?_) fun _ _ he => he
  simp only [onShm, wp_zoom]
  refine wp_mono (sound_account k h3.shm hm hd) (fun _ t h4 => ?_) fun _ _ he => he
  have hready : Core.Ready d { c3 with shm := t } := by
    refine ⟨h3.tallied, h3.placed, fun id name hn hfree => h4.1 id name hn fun i hl => ?_, h4.2.1, h4.2.2⟩
    obtain ⟨_, hl⟩ := hl
    rw [show c3.objects.get id = none from hfree] at hl
    cases hl
  refine wp_mono (minor_stamp _) (fun _ c h5 => hready.rest h5.1) fun e _ he => ?_
  obtain ⟨why⟩ := he
  exact hready.stops why

end Request

namespace Event

variable {h : Header} {iface : Interface} {m : Message} {body : Bytes}

lemma sound_forget (k : Kernel) {c : Core} {id : ℕ} (hc : c.objects.Counted)
    (ht : Tallied (c.objects.erase id) c.toplevels c.popups) (hp : Placed c.placeholders)
    (hs : c.shm.Sound c.objects.Live [] [] none) : wp (do
        modify (fun c => { c with outputs := c.outputs.erase id })
        onShm (Shm.deleteId k id)
        onObjects (Objects.remove id)) (fun _ => Core.Sound) Core.Stops c := by
  simp only [onShm, onObjects, wp_bind, wp_modify, wp_zoom]
  refine wp_mono (deleteId_sound k id hs) (fun _ t h1 => ?_) fun _ _ he => he
  refine wp_mono (wp_remove c.objects id) (fun _ o ho => ?_) fun _ _ he => absurd hc he.2
  subst ho
  exact ⟨ht, hp, h1.mono fun _ _ hl => live_erase hl⟩

lemma safe_deleteObject (k : Kernel) (id : ℕ) : Ensures Core.Sound Core.Stops (deleteObject k id) := by
  refine .get_bind fun c hc => ?_
  cases hg : c.objects.get id with
  | none =>
    exact sound_forget k hc.tallied.counted (hc.tallied.erase_none hg) hc.placed hc.shm
  | some x =>
    obtain ⟨iface, version⟩ := x
    obtain ⟨htop, hpop, ht⟩ := hc.tallied.erase hg
    split
    · rename_i he
      cases he
      rw [wp_bind, wp_checkedSub (htop rfl)]
      exact sound_forget k hc.tallied.counted ht hc.placed hc.shm
    · rename_i he
      cases he
      rw [wp_bind, wp_checkedSub (hpop rfl)]
      exact sound_forget k hc.tallied.counted ht hc.placed hc.shm
    · rename_i hne hne'
      rw [if_neg fun he => hne (congrArg some he), if_neg fun he => hne' (congrArg some he)] at ht
      exact sound_forget k hc.tallied.counted ht hc.placed hc.shm

lemma safe_deleteId (k : Kernel) (r : Verdict) : Ensures Core.Sound Core.Stops (deleteId k h body r) := by
  refine .ite (fun _ => .bind (ensures_liftWire Core.Sound.stops _) fun id =>
    .bind (safe_endPlaceholder id) fun ended => ?_) fun _ => .ret _
  exact .ite (fun _ => .ret _) fun _ => .bind (safe_deleteObject k id) fun _ => .ret _

lemma safe_policy (k : Kernel) : Ensures World.Sound World.Stops (policy k h iface m body) := by
  intro w hw
  simp only [policy, wp_bind, onCore, wp_zoom]
  refine wp_mono (Core.steered.wp_minor minor_global hw) (fun r c h1 => ?_) fun _ _ he => he
  refine wp_mono (Core.steered.wp_minor (minor_globalRemove h1.2) h1.1) (fun r c h2 => ?_) fun _ _ he => he
  refine wp_mono (Core.steered.wp_minor (minor_output h2.2) h2.1) (fun r c h3 => ?_) fun _ _ he => he
  refine wp_mono (Core.steered.keyboard iface m ⟨c, w.clip⟩ h3.1) (fun _ w' h4 => ?_) fun _ _ he => he
  exact safe_deleteId k r w'.core h4

end Event

lemma sound_registerNew (dir : Dir) (forward : Bool) (version : ℕ) (hw : w.core.Ready d) :
    wp (registerNew dir forward d version) (fun _ => World.Sound) World.Stops w := by
  unfold registerNew
  cases hd : d.newObject with
  | none => exact ⟨hw.tallied, hw.placed, hw.same hd⟩
  | some x =>
    obtain ⟨id, name⟩ := x
    refine (wp_bind _ _).mpr ((wp_zoom _ _ _ _).mpr ?_)
    exact wp_mono (hw.register hd _ dir) (fun _ c hc => Core.steered.afterNew dir forward id name _ hc) fun _ _ he => he

lemma sound_handle (k : Kernel) {dir : Dir} {h : Header} {iface : Interface} {m : Message}
    {version : ℕ} (msg : Bytes) (fds : List Fd) (hw : w.Sound)
    (hl : w.core.lookup h.object dir h.opcode = .ok (iface, m, version)) :
    wp (handle k dir h iface m version msg fds) (fun _ => World.Sound) World.Stops w := by
  obtain ⟨hg, hm, _⟩ := lookup_ok hl
  have hpolicy (d : Decoded) (hd : decode m (msg.drop headerLen) = .ok d) :
      wp (policy k dir h iface m (msg.drop headerLen) fds d) (fun _ w' => w'.core.Ready d) World.Stops w := by
    cases dir with
    | clientToServer => exact Request.sound_policy k hw hg (List.mem_of_getElem? hm) hd
    | serverToClient =>
      exact wp_mono (Event.safe_policy k w hw) (fun _ _ h' => h'.ready d) fun _ _ he => he
  simp only [handle, wp_bind, wp_liftWire]
  refine ⟨fun d hd => ?_, fun _ _ => hw.stops _⟩
  refine wp_mono (hpolicy d hd) (fun r w1 h1 => ?_) fun _ _ he => he
  refine wp_mono (sound_registerNew dir r.forward version h1) (fun _ w2 h2 => ?_) fun _ _ he => he
  exact Steered.onCore (.ite (fun _ => Core.steered.passOn dir trivial fun _ _ => trivial) fun _ => .ret _) w2 h2

end Kryptik.Wlproxy
