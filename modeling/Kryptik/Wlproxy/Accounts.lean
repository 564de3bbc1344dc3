import Kryptik.Wlproxy.Frames

namespace Kryptik.Wlproxy

open Lib Prog Tables Wire Protocol

def Core.Still (t : Shm) (c : Core) : Prop := c.shm = t

variable {t : Shm}

lemma Core.still_onObjects {α : Type} (x : EStateM Fault Objects α) : Keeps (Still t) (onObjects x) :=
  .zoom _ _ fun _ _ h => h

lemma Core.steered_still : Steered (Core.Still t) (fun _ => Core.Still t) fun _ _ => True where
  stops h _ := h
  rest h hc := (congrArg (fun b : _ × _ × _ × _ × _ × Shm × _ => b.2.2.2.2.2.1) hc).trans h
  own _ := trivial
  down h _ := h
  up h _ := h
  placed _ h := h
  offered id := register_keeps (fun h => h) id _

open Wlproxy.Core

namespace Request

variable {h : Header} {iface : Interface} {m : Message} {body : Bytes} {fds : List Fd} {d : Decoded}

lemma still_policy (k : Kernel) (w : World) : wp (policy k h iface m body fds d)
    (fun _ w' => account k h iface m body fds d w.core.shm = .ok () w'.core.shm) (fun _ _ => True) w := by
  simp only [policy, onCore, onShm, wp_bind, wp_zoom, wp_pure]
  refine wp_mono (steered_still.minor minor_checkBind w.core rfl) (fun forward c1 h1 => ?_) fun _ _ _ => trivial
  refine wp_mono (steered_still.answer (w := ⟨c1, w.clip⟩) forward h1 fun _ _ _ =>
    still_onObjects _ _) (fun _ w2 h2 => ?_) fun _ _ _ => trivial
  refine wp_mono (steered_still.minor minor_identity w2.core h2) (fun _ c3 h3 => ?_) fun _ _ _ => trivial
  refine wp_of_cases (fun _ t' ht => ?_) fun _ _ _ => trivial
  rw [show c3.shm = w.core.shm from h3] at ht
  refine wp_mono (steered_still.minor minor_stamp _ rfl) (fun _ c hc => ?_) fun _ _ _ => trivial
  rw [show c.shm = t' from hc]
  exact ht

end Request

namespace Event

variable {h : Header} {iface : Interface} {m : Message} {body : Bytes}

/-- The object whose id an event deletes, if it is none of a placeholder's. -/
def deleted (placeholders : Table ℕ ℕ) (h : Header) (body : Bytes) : Option ℕ :=
  if h.object = wlDisplay ∧ h.opcode = wlDisplayDeleteId then
    match readArgs ArgReader.u32 body with
    | .ok gone => if gone ∈ placeholders then none else some gone
    | .error _ => none
  else none

/-- The accounts after an event: those of before, or what the deletion of an id leaves of them. -/
def Settles (k : Kernel) (h : Header) (body : Bytes) (placeholders : Table ℕ ℕ) (t t' : Shm) : Prop :=
  match deleted placeholders h body with
  | none => t' = t
  | some gone => Shm.deleteId k gone t = .ok () t'

lemma shm_deleteObject (k : Kernel) (id : ℕ) (c : Core) : wp (deleteObject k id)
    (fun _ c' => Shm.deleteId k id c.shm = .ok () c'.shm) (fun _ _ => True) c := by
  have hrest (c' : Core) (hc : c'.shm = c.shm) : wp (do
      onShm (Shm.deleteId k id)
      onObjects (Objects.remove id)) (fun _ c' => Shm.deleteId k id c.shm = .ok () c'.shm) (fun _ _ => True) c' := by
    simp only [onShm, onObjects, wp_bind, wp_zoom]
    refine wp_of_cases (fun _ t' ht => ?_) fun _ _ _ => trivial
    exact wp_of_cases (fun _ _ _ => hc ▸ ht) fun _ _ _ => trivial
  unfold deleteObject
  simp only [wp_bind, wp_get]
  split
  · exact (wp_bind _ _).mpr (wp_of_cases (fun _ _ _ => hrest _ rfl) fun _ _ _ => trivial)
  · exact (wp_bind _ _).mpr (wp_of_cases (fun _ _ _ => hrest _ rfl) fun _ _ _ => trivial)
  · exact hrest _ rfl

lemma shm_deleteId (k : Kernel) (v : Verdict) (c : Core) : wp (deleteId k h body v)
    (fun _ c' => Settles k h body c.placeholders c.shm c'.shm) (fun _ _ => True) c := by
  refine wp_ite (fun hd => ?_) fun hd => ?_
  · simp only [wp_bind, wp_liftWire, endPlaceholder, wp_get]
    refine ⟨fun id hid => ?_, fun _ _ => trivial⟩
    cases hp : c.placeholders.lookup id with
    | none =>
      have hdel : deleted c.placeholders h body = some id := by
        simp [deleted, hd, hid, AList.lookup_eq_none.mp hp]
      simp only [Settles, hdel, wp_pure, Bool.false_eq_true, if_false, wp_bind]
      exact shm_deleteObject k id c
    | some n =>
      have hdel : deleted c.placeholders h body = none := by
        simp [deleted, hd, hid, mem_iff_lookup.mpr ⟨n, hp⟩]
      simp only [Settles, hdel, wp_bind]
      exact wp_ite (fun _ => rfl) fun _ => trivial
  · have hdel : deleted c.placeholders h body = none := if_neg hd
    simp only [Settles, hdel]
    exact rfl

lemma still_policy (k : Kernel) (w : World) : wp (policy k h iface m body)
    (fun _ w' => Settles k h body w.core.placeholders w.core.shm w'.core.shm) (fun _ _ => True) w := by
  simp only [policy, wp_bind, onCore, wp_zoom]
  refine wp_mono (wp_and (steered_still.minor minor_global w.core rfl) (wp_global w.core)) (fun v c h1 => ?_)
    fun _ _ _ => trivial
  refine wp_mono (wp_globalRemove v c) (fun v c h2 => ?_) fun _ _ _ => trivial
  obtain ⟨-, rfl⟩ := h2
  refine wp_mono (wp_output v c) (fun v c h3 => ?_) fun _ _ _ => trivial
  obtain ⟨-, rfl⟩ := h3
  refine wp_mono (wp_and (steered_still.keyboard iface m ⟨c, w.clip⟩ h1.1) (wp_keyboard ⟨c, w.clip⟩))
    (fun _ w' h4 => ?_) fun _ _ _ => trivial
  obtain ⟨globals, hg⟩ := Announced.globals_eq h1.2
  have hp : w'.core.placeholders = w.core.placeholders :=
    (Steady.focused h4.2).placeholders.trans (congrArg View.placeholders hg)
  rw [← show w'.core.shm = w.core.shm from h4.1, ← hp]
  exact shm_deleteId k v w'.core

end Event

variable {h : Header} {iface : Interface} {m : Message} {msg : Bytes} {fds : List Fd}

lemma shm_handle {k : Kernel} {dir : Dir} {version : ℕ} {w : World} {Q : Decoded → Shm → Prop}
    (hpolicy : ∀ d, decode m (msg.drop headerLen) = .ok d →
      wp (policy k dir h iface m (msg.drop headerLen) fds d) (fun _ w' => Q d w'.core.shm) (fun _ _ => True) w) :
    wp (handle k dir h iface m version msg fds)
      (fun _ w' => ∃ d, decode m (msg.drop headerLen) = .ok d ∧ Q d w'.core.shm) (fun _ _ => True) w := by
  simp only [handle, wp_bind, wp_liftWire]
  refine ⟨fun d hd => ?_, fun _ _ => trivial⟩
  refine wp_mono (hpolicy d hd) (fun v w1 h1 => ?_) fun _ _ h => h
  refine wp_mono (steered_still.registerNew (register_keeps fun h => h) dir v.forward d version w1 rfl)
    (fun _ w2 h2 => ?_) fun _ _ _ => trivial
  refine wp_mono (Steered.onCore (.ite (fun _ => steered_still.passOn dir trivial fun _ _ => trivial)
    fun _ => .ret _) w2 h2) (fun _ w3 h3 => ⟨d, hd, ?_⟩) fun _ _ _ => trivial
  rw [show w3.core.shm = w1.core.shm from h3]
  exact h1

lemma shm_request (k : Kernel) (version : ℕ) (w : World) :
    wp (handle k .clientToServer h iface m version msg fds) (fun _ w' =>
      ∃ d, decode m (msg.drop headerLen) = .ok d ∧
        Request.account k h iface m (msg.drop headerLen) fds d w.core.shm = .ok () w'.core.shm)
      (fun _ _ => True) w := by
  apply shm_handle (Q := fun d t => Request.account k h iface m (msg.drop headerLen) fds d w.core.shm = .ok () t)
  intro d _
  exact Request.still_policy k w

lemma shm_event (k : Kernel) (version : ℕ) (w : World) :
    wp (handle k .serverToClient h iface m version msg fds) (fun _ w' =>
      Event.Settles k h (msg.drop headerLen) w.core.placeholders w.core.shm w'.core.shm) (fun _ _ => True) w := by
  refine wp_mono (shm_handle (Q := fun _ t =>
    Event.Settles k h (msg.drop headerLen) w.core.placeholders w.core.shm t) ?_) (fun _ _ hd => ?_) fun _ _ h => h
  · intro d _
    exact Event.still_policy k w
  · obtain ⟨_, _, hd⟩ := hd
    exact hd

end Kryptik.Wlproxy
