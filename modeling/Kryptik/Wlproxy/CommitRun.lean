import Kryptik.Wlproxy.CommitCache
import Kryptik.Wlproxy.SubsurfaceRun

namespace Kryptik.Wlproxy

open Lib Prog Tables Wire Protocol Relation

variable {g : ℕ}

namespace Shm

def Guarded (g : ℕ) (t : Shm) : Prop := g ∈ t.pools ∨ heldBy t.surfaces g = 0

variable {live : Interface → ℕ → Prop} {t : Shm} {was : List ℕ}

lemma Sound.guarded (h : t.Sound live was [] none) (hg : g ∈ was) : t.Guarded g := by
  by_cases hin : g ∈ t.pools
  · exact .inl hin
  · exact .inr (h.held.gone g hg hin)

/-- From here on it is the pools there are now that go only once no surface has them. -/
lemma Sound.since (h : t.Sound live was [] none) : t.Sound live t.pools.keys [] none :=
  ⟨h.charged, h.named, h.keyed, { h.held with gone := fun _ hw hn => absurd hw hn }, h.inUse, h.filed⟩

lemma guarded_account (k : Kernel) (ht : t.Sound live was [] none) (hg : g ∈ t.pools) (h : Header)
    (iface : Interface) (m : Message) (body : Bytes) (fds : List Fd) (d : Decoded) :
    wp (Request.account k h iface m body fds d) (fun _ t' => t'.Guarded g) (fun _ _ => True) t := by
  replace ht := ht.since
  have hkept {x : ShmM Unit} (hx : wp x (fun _ t' => t'.Sound live t.pools.keys [] none) Ends t) :
      wp x (fun _ t' => t'.Guarded g) (fun _ _ => True) t :=
    wp_mono hx (fun _ _ h' => h'.guarded hg) fun _ _ _ => trivial
  refine wp_ite (fun _ => ?_) fun _ => wp_ite (fun _ => ?_) fun _ => wp_ite (fun _ => ?_) fun _ =>
    wp_ite (fun _ => ?_) fun _ => wp_ite (fun _ => ?_) fun _ => wp_ite (fun _ => ?_) fun _ =>
    wp_ite (fun _ => ?_) fun _ => wp_ite (fun _ => ?_) fun _ => wp_ite (fun _ => ?_) fun _ => .inl hg
  · simp only [wp_bind, wp_liftWire]
    refine ⟨fun a _ => ?_, fun _ _ => trivial⟩
    refine wp_ite (fun _ => trivial) fun _ => ?_
    refine wp_ite (fun _ => trivial) fun _ => ?_
    simp only [wp_bind, wp_orRefuse, wp_liftSession, wp_set]
    refine ⟨fun _ _ => ⟨fun a _ => .inl ?_, fun _ _ => trivial⟩, fun _ => trivial⟩
    exact (AList.mem_insert _).mpr (Or.inr hg)
  · simp only [wp_bind, wp_liftWire]
    exact ⟨fun size _ => hkept (resize_sound _ size ht), fun _ _ => trivial⟩
  · simp only [wp_bind, wp_orRefuse, createBuffer, wp_get, wp_set]
    refine ⟨fun a _ => ⟨fun g' _ => wp_unwrapped fun p hp => .inl ?_, fun _ => trivial⟩, fun _ => trivial⟩
    exact (AList.mem_insert _).mpr (Or.inr hg)
  · simp only [wp_bind, wp_liftWire]
    exact ⟨fun buffer _ => hkept (attach_sound _ buffer ht), fun _ _ => trivial⟩
  · exact hkept (commit_sound k _ ht fun _ hm => hm)
  · refine wp_ite (fun _ => trivial) fun _ => ?_
    simp only [wp_bind, wp_liftWire]
    exact ⟨fun a _ => hkept (getSubsurface_sound _ _ _ ht), fun _ _ => trivial⟩
  · exact hkept (setSync_sound _ ht)
  · exact hkept (setDesync_sound k _ ht)
  · exact hkept (destroySubsurface_sound k _ ht)

end Shm

lemma Session.guarded_turn (k : Kernel) (dir : Dir) (clip : Clipboard) {s : Session} (hs : s.core.Sound)
    (hg : g ∈ s.core.shm.pools) :
    wp (pumpOnce k dir) (fun _ x => x.1.core.shm.Guarded g) (fun _ _ => True) (s, clip) := by
  have hguard : s.core.shm.Guarded g := .inl hg
  refine wp_pumpOnce (fun _ => hguard) (fun _ _ => trivial) (fun n _ => ?_) fun h iface m version hn => ?_
  · rw [show (s.setInbound ((s.inbound dir).take n).2 dir).core = s.core from Session.core_setInbound _ _ _]
    exact hguard
  cases dir with
  | clientToServer =>
    refine wp_mono (shm_request k version ⟨s.core, clip⟩) (fun _ w hw => ?_) fun _ _ he => he
    obtain ⟨d, _, ha⟩ := hw
    have hkept := wp_ok (Shm.guarded_account k hs.shm hg h iface m _ _ d) ha
    exact hkept
  | serverToClient =>
    refine wp_mono (shm_event k version ⟨s.core, clip⟩) (fun _ w hw => ?_) fun _ _ he => he
    rw [show (s.handled .serverToClient (s.rest .serverToClient h m) w).1.core = w.core from
      Session.core_setInbound _ _ _]
    unfold Event.Settles at hw
    split at hw
    · rw [hw]
      exact hguard
    · have hkept := wp_ok (Shm.deleteId_sound k _ hs.shm.since) hw
      exact hkept.guarded hg

lemma Tracked.Step.guarded {w w' : Tracked} {deed : Deed} (h : Step w deed w') (hw : w.Rooted)
    (hg : g ∈ w.session.core.shm.pools) : w'.session.core.shm.Guarded g := by
  cases h with
  | turn k dir clip _ hrun =>
    have hkept := wp_ok (Session.guarded_turn k dir clip hw.sound.core hg) hrun
    exact hkept
  | input i hi hrun =>
    have hstill := wp_ok (i.still hi _) hrun
    rw [hstill.1]
    exact .inl hg

namespace Layers

def empty : Layers := ⟨fun _ => none, ∅⟩

def Step (x y : Tracked × Layers) : Prop :=
  ∃ deed, x.1.Step deed y.1 ∧ y.2 = x.2.perform (fun g => g ∈ x.1.session.core.shm.pools) deed

/-- The pools held are those the commits name, and none of them is gone that was there for the commit. -/
structure Mirrors (x : Tracked × Layers) : Prop where
  rooted : x.1.Rooted
  scene : x.1.session.core.shm.scene = x.2.flat
  kept : ∀ s, ∀ a ∈ x.2.attachments s, a.present = true → ∀ g, a.pool = some g → g ∈ x.1.session.core.shm.pools

lemma held_of_attached {t : Shm} {ls : Layers} (ht : t.scene = ls.flat) {s : ℕ} {a : Attachment}
    (ha : a ∈ ls.attachments s) (hg : a.pool = some g) : 0 < Shm.heldBy t.surfaces g := by
  have hs : t.surfaces.lookup s = (ls.surfaces s).map Layer.flat := congrFun (congrArg Scene.surfaces ht) s
  unfold attachments at ha
  cases hl : ls.surfaces s with
  | none => simp [hl] at ha
  | some l =>
    rw [hl] at ha
    rw [hl] at hs
    have hin : some g ∈ l.flat.held := mem_destutter (List.mem_map.mpr ⟨a, ha, hg⟩)
    exact (List.count_pos_iff.mpr hin).trans_le (le_total (fun _ sf => sf.held.count (some g)) hs)

lemma Step.mirrors {x y : Tracked × Layers} (h : Step x y) (hx : Mirrors x) : Mirrors y := by
  obtain ⟨deed, hstep, hy⟩ := h
  obtain ⟨hscene, hrooted⟩ := hstep.rooted hx.rooted
  have hflat : y.1.session.core.shm.scene = y.2.flat := by rw [hscene, hx.scene, hy, flat_perform]
  refine ⟨hrooted, hflat, fun s a ha hp g hg => ?_⟩
  have hbefore : g ∈ x.1.session.core.shm.pools := by
    obtain hold | hnew := attachments_perform (hy ▸ ha)
    · exact hx.kept s a hold hp g hg
    · rw [hg, hp] at hnew
      exact of_decide_eq_true hnew.symm
  obtain hin | hz := hstep.guarded hx.rooted hbefore
  · exact hin
  · have hpos := held_of_attached hflat ha hg
    omega

lemma mirrors_run {x y : Tracked × Layers} (h : ReflTransGen Step x y) (hx : Mirrors x) : Mirrors y := by
  induction h with
  | refl => exact hx
  | tail _ hstep ih => exact hstep.mirrors ih

lemma mirrors_opened (zone : String) (holdAwake : Bool) (id : ℕ) :
    Mirrors (⟨Session.opened zone holdAwake id, []⟩, empty) where
  rooted := Tracked.rooted_opened zone holdAwake id
  scene := rfl
  kept := fun _ _ h => by cases h

/-- Every surface holds the pools its applied and its cached commits name, in order and without adjacent repeats, and
none of these pools goes that was there when it was committed. -/
theorem held_mirrors (zone : String) (holdAwake : Bool) (id : ℕ) (w : Tracked) (ls : Layers)
    (h : ReflTransGen Step (⟨Session.opened zone holdAwake id, []⟩, empty) (w, ls)) :
    (∀ s, (w.session.core.shm.surfaces.lookup s).map Surface.held =
      (ls.surfaces s).map (fun l => (l.attachments.map Attachment.pool).destutter (· ≠ ·))) ∧
    ∀ s l, ls.surfaces s = some l → ∀ a ∈ l.attachments, a.present = true →
      ∀ g, a.pool = some g → g ∈ w.session.core.shm.pools := by
  have hm := mirrors_run h (mirrors_opened zone holdAwake id)
  refine ⟨fun s => ?_, fun s l hl a ha => hm.kept s a (by rw [attachments, hl]; exact ha)⟩
  have hflat : w.session.core.shm.surfaces.lookup s = (ls.surfaces s).map Layer.flat :=
    congrFun (congrArg Scene.surfaces hm.scene) s
  rw [hflat, Option.map_map]
  rfl

lemma step_of_reaches {w w' : Tracked} (h : Tracked.Reaches w w') (ls : Layers) :
    ∃ ls', ReflTransGen Step (w, ls) (w', ls') := by
  induction h with
  | refl => exact ⟨ls, .refl⟩
  | tail _ hstep ih =>
    obtain ⟨ls', hrun⟩ := ih
    obtain ⟨deed, hstep⟩ := hstep
    exact ⟨_, hrun.tail ⟨deed, hstep, rfl⟩⟩

def committing : List Tracked.Sending :=
  let request (msg : MessageWriter) : Tracked.Sending := ⟨.clientToServer, msg, []⟩
  Tracked.getRegistry :: Tracked.binding 1 "wl_compositor" 3 ++ Tracked.binding 2 "wl_shm" 4 ++
    [request ((MessageWriter.new 3 0).u32 5), ⟨.clientToServer, ((MessageWriter.new 4 0).u32 6).u32 4096, [9]⟩,
      request ((((((MessageWriter.new 6 0).u32 7).u32 0).u32 1).u32 1).u32 4 |>.u32 0),
      request ((((MessageWriter.new 5 1).u32 7).u32 0).u32 0), request (MessageWriter.new 5 6),
      request (MessageWriter.new 7 0), request (MessageWriter.new 6 1), Tracked.deletion 7, Tracked.deletion 6]

/-- A client commits a buffer, and both the buffer and its pool end: the surface still holds the pool. -/
theorem held_mirrors_commit : ∃ w ls, ReflTransGen Step (⟨Session.opened "work" false 0, []⟩, empty) (w, ls) ∧
    w.session.core.shm.poolIds.lookup 6 = none ∧
    ∃ l, ls.surfaces 5 = some l ∧ (l.attachments.map Attachment.pool).destutter (· ≠ ·) = [some 1] := by
  have hrun : (committing.foldlM (Tracked.hear .willing) ⟨Session.opened "work" false 0, []⟩).any
      (fun w => decide ((w.session.core.shm.surfaces.lookup 5).map Surface.held = some [some 1] ∧
        w.session.core.shm.poolIds.lookup 6 = none)) = true := by
    decide +kernel
  obtain ⟨w, hw, hp⟩ := Option.any_eq_true _ _ |>.mp hrun
  obtain ⟨hheld, hpool⟩ := of_decide_eq_true hp
  obtain ⟨ls, hsteps⟩ := step_of_reaches (Tracked.reaches_foldlM committing hw) empty
  have hmirror := (held_mirrors "work" false 0 w ls hsteps).1 5
  rw [hheld] at hmirror
  obtain ⟨l, hl, heq⟩ := Option.map_eq_some_iff.mp hmirror.symm
  exact ⟨w, ls, hsteps, hpool, l, hl, heq⟩

end Layers

end Kryptik.Wlproxy
