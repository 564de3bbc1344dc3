import Kryptik.Wlproxy.Handled
import Kryptik.Wlproxy.Outbound

namespace Kryptik.Wlproxy

open Lib Prog Tables Wire Protocol

def Sendable (msg : Bytes) (fds : List Fd) : Prop := Whole msg ∧ fds.length ≤ batchFds

/-- What a session queues either way, with the history of it. -/
structure Queues where
  client : Outbound
  server : Outbound
  sentUp : List Sent
  sentDown : List Sent

structure Closed (P : Queues → Prop) : Prop where
  down : ∀ {q msg fds origin objects}, P q → Sendable msg fds →
    P { q with client := q.client.queue msg fds, sentDown := q.sentDown ++ [⟨origin, msg, objects⟩] }
  up : ∀ {q msg fds origin objects}, P q → Sendable msg fds →
    P { q with server := q.server.queue msg fds, sentUp := q.sentUp ++ [⟨origin, msg, objects⟩] }

namespace Core

def queues (c : Core) : Queues := ⟨c.client, c.server, c.sentUp, c.sentDown⟩

def Outs (P : Queues → Prop) (c : Core) : Prop := P c.queues

/-- The parts of a session that its bounds and its history are about. -/
def books (c : Core) : ℕ × Objects × ℕ × ℕ × Table ℕ ℕ × Shm × Queues :=
  (c.id, c.objects, c.toplevels, c.popups, c.placeholders, c.shm, c.queues)

end Core

/-- An invariant `I` of a session that its steps keep, with `E` of one that is refused and `S` of what is queued. -/
structure Steered (I : Core → Prop) (E : Fault → Core → Prop) (S : Bytes → List Fd → Prop) : Prop where
  stops : ∀ {c}, I c → ∀ why, E (.refused why) c
  rest : ∀ {c c' : Core}, I c → c'.books = c.books → I c'
  own : ∀ {msg fds}, Sendable msg fds → S msg fds
  down : ∀ {c : Core} {msg fds o}, I c → S msg fds → I { c with
    client := c.client.queue msg fds, sentDown := c.sentDown ++ [⟨o, msg, c.objects⟩] }
  up : ∀ {c : Core} {msg fds o}, I c → S msg fds → I { c with
    server := c.server.queue msg fds, sentUp := c.sentUp ++ [⟨o, msg, c.objects⟩] }
  placed : ∀ {c : Core} (id : ℕ), I c → I { c with
    placeholders := c.placeholders.insert id ((c.placeholders.lookup id).getD 0 + 1) }
  offered : ∀ id version dir, Ensures I E (Core.register id "wl_data_offer" version dir)

inductive Declined (c : Core) : Fault → Core → Prop where
  | intro (why : SessionError) : Declined c (.refused why) c

def Core.Same (c c' : Core) : Prop := c'.books = c.books

/-- A step that changes none of the books, stops only with a refusal, and gives what `R` says. -/
def Minor {α : Type} (R : α → Prop) (x : CoreM α) : Prop :=
  ∀ c, wp x (fun a c' => c.Same c' ∧ R a) (Declined c) c

abbrev Upon {α : Type} (I : Core → Prop) (E : Fault → Core → Prop) (x : M α) : Prop :=
  Ensures (fun w : World => I w.core) (fun e w => E e w.core) x

variable {σ : Type} {I : σ → Prop}

lemma ensures_liftWire {α : Type} {E : Fault → σ → Prop}
    (hI : ∀ {s}, I s → ∀ why, E (.refused why) s) (x : Except WireError α) : Ensures I E (liftWire x) := by
  cases x
  · exact .stop fun _ h => hI h _
  · exact .ret _

lemma ensures_orRefuse {α : Type} {E : Fault → σ → Prop}
    (hI : ∀ {s}, I s → ∀ why, E (.refused why) s) (e : SessionError) (x : Option α) : Ensures I E (orRefuse e x) := by
  cases x
  · exact .stop fun _ h => hI h _
  · exact .ret _

lemma keeps_checkedSub (a b : ℕ) :
    Keeps I (checkedSub a b : EStateM Fault σ ℕ) := .ite (fun _ => .ret _) fun _ => .stop fun _ h => h

/-- What is no matter of the objects is kept by their registration. -/
lemma register_keeps {I : Core → Prop} (hI : ∀ {c : Core} {objects toplevels popups}, I c →
      I { c with objects := objects, toplevels := toplevels, popups := popups })
    (id : ℕ) (name : String) (version : ℕ) (dir : Dir) : Keeps I (Core.register id name version dir) := by
  refine .ite (fun _ => .stop fun _ h => h) fun _ => .bind (ensures_orRefuse (fun h _ => h) _ _) fun iface =>
    .get_bind fun c hc => ?_
  refine wp_ite (fun _ => hc) fun _ => wp_ite (fun _ => hc) fun _ => ?_
  simp only [wp_bind, wp_liftSession, wp_set]
  exact ⟨fun _ _ => hI hc, fun _ _ => hc⟩

lemma sendable_finish {w : MessageWriter} {fds : List Fd} {m : Bytes} (h : w.finish = some m)
    (hd : decide (w.opcode < 2 ^ 16 ∧ fds.length ≤ batchFds) = true) : Sendable m fds :=
  ⟨MessageWriter.whole_finish h (of_decide_eq_true hd).1, (of_decide_eq_true hd).2⟩

namespace Request

variable {h : Header} {iface : Interface} {m : Message} {body : Bytes} {d : Decoded}

lemma minor_checkBind : Minor (fun _ => True) (checkBind h iface body d) := by
  intro c
  refine wp_ite (fun _ => ?_) fun _ => ⟨rfl, trivial⟩
  unfold bindGlobal
  split
  · simp only [wp_bind, wp_get, wp_orRefuse, wp_liftWire]
    refine ⟨fun max _ => ⟨fun gname _ => ⟨fun a _ => ?_, fun _ => .intro _⟩, fun _ _ => .intro _⟩, fun _ => .intro _⟩
    refine wp_ite (fun _ => .intro _) fun _ => wp_ite (fun _ => .intro _) fun _ => ?_
    exact wp_ite (fun _ => ⟨rfl, trivial⟩) fun _ => ⟨rfl, trivial⟩
  · exact .intro _

lemma minor_identity : Minor (fun r => ∀ msg, r = some msg → Whole msg) (identity h iface m d) := by
  intro c
  refine wp_ite (fun _ => ?_) fun _ => ⟨rfl, by simp⟩
  split
  · exact ⟨rfl, by simp⟩
  · simp only [wp_bind, wp_get, wp_orRefuse, wp_set, wp_pure]
    refine ⟨fun msg hm => ⟨rfl, fun msg' he => ?_⟩, fun _ => .intro _⟩
    cases he
    exact MessageWriter.whole_finish hm h.opcode_lt

lemma setAppId_eq : setAppId = some 3 := by decide

lemma minor_stamp : Minor (fun r => ∀ msg, r = some msg → Whole msg) (stamp iface m d) := by
  intro c
  refine wp_ite (fun _ => ?_) fun _ => ⟨rfl, by simp⟩
  split
  · exact ⟨rfl, by simp⟩
  · simp only [wp_bind, wp_get, wp_orRefuse, wp_pure, setAppId_eq]
    refine ⟨fun op hop => ⟨fun msg hm => ⟨rfl, fun msg' he => ?_⟩, fun _ => .intro _⟩, fun _ => .intro _⟩
    cases he
    cases hop
    exact MessageWriter.whole_finish hm (of_decide_eq_true rfl)

end Request

/-- Whatever goes out in a message's place, or behind it, is whole. -/
structure Verdict.Sound (v : Verdict) : Prop where
  rewritten : ∀ msg, v.rewritten = some msg → Whole msg
  stamp : ∀ msg, v.stamp = some msg → Whole msg

namespace Event

variable {h : Header} {iface : Interface} {m : Message} {body : Bytes} {v : Verdict}

lemma minor_global : Minor Verdict.Sound (global h iface body) := by
  intro c
  refine wp_ite (fun _ => ?_) fun _ => ⟨rfl, by simp, by simp⟩
  simp only [wp_bind, wp_liftWire, wp_get]
  refine ⟨fun a _ => ?_, fun _ _ => .intro _⟩
  split
  · refine ⟨rfl, fun msg hm => ?_, by simp⟩
    split at hm
    · exact MessageWriter.whole_finish hm h.opcode_lt
    · cases hm
  · exact ⟨rfl, by simp, by simp⟩

lemma minor_globalRemove (hv : v.Sound) : Minor Verdict.Sound (globalRemove h iface body v) := by
  intro c
  refine wp_ite (fun _ => ?_) fun _ => ⟨rfl, hv⟩
  simp only [wp_bind, wp_liftWire, wp_get, wp_pure]
  exact ⟨fun a _ => ⟨rfl, hv.rewritten, hv.stamp⟩, fun _ _ => .intro _⟩

lemma minor_output (hv : v.Sound) : Minor Verdict.Sound (output h iface m body v) := by
  intro c
  refine wp_ite (fun _ => ?_) fun _ => ⟨rfl, hv⟩
  simp only [wp_bind, wp_get, wp_liftWire, wp_orRefuse, wp_pure]
  refine ⟨fun w hw => ⟨fun msg hm => ⟨rfl, fun msg' he => ?_, hv.stamp⟩, fun _ => .intro _⟩, fun _ _ => .intro _⟩
  cases he
  exact MessageWriter.whole_finish hm ((blanked_ok hw).2 ▸ h.opcode_lt)

end Event

namespace Steered

open Wlproxy.Core (emit placeholder cancel offerTo offerSelection act servedGone)
open Serve (createDataSource getDataDevice sourceOffer sourceDestroy setSelection startDrag deviceRelease receive
  offerDestroy)

variable {I : Core → Prop} {E : Fault → Core → Prop} {S : Bytes → List Fd → Prop} {α : Type} {R : α → Prop}

variable {x : CoreM α}

lemma onCore (h : Ensures I E x) : Upon I E (onCore x) := .zoomed (fun _ _ => rfl) h

lemma onClip (f : Clipboard → Clipboard) : Upon I E (onClip f) := .update fun _ h => h

variable (hI : Steered I E S)
include hI

/-- A minor step keeps the invariant, with what else is known of it. -/
lemma wp_minor {c : Core} (hx : Minor R x) (hc : I c) : wp x (fun a c' => I c' ∧ R a) E c := by
  refine wp_mono (hx c) (fun a c' h => ⟨hI.rest hc h.1, h.2⟩) fun e c' h => ?_
  obtain ⟨why⟩ := h
  exact hI.stops hc why

lemma minor (hx : Minor R x) : Ensures I E x :=
  fun _ hc => wp_mono (hI.wp_minor hx hc) (fun _ _ h => h.1) fun _ _ h => h

variable {fds : List Fd}

lemma built {w : MessageWriter} (hd : decide (w.opcode < 2 ^ 16 ∧ fds.length ≤ batchFds) = true) :
    Ensures I E (emit w.finish fds) := by
  intro c hc
  simp only [emit, wp_bind, wp_orRefuse, wp_get]
  refine ⟨fun m hm => ?_, fun _ => hI.stops hc _⟩
  exact wp_ite (fun _ => hI.stops hc _) fun _ => wp_ite (fun _ => hI.stops hc _) fun _ =>
    hI.down hc (hI.own (sendable_finish hm hd))

lemma placeholder (id : ℕ) : Ensures I E (placeholder id) := by
  intro c hc
  simp only [Core.placeholder, wp_bind, wp_orRefuse, wp_get]
  refine ⟨fun m hm => wp_ite (fun _ => hI.stops hc _) fun _ => ?_, fun _ => hI.stops hc _⟩
  exact hI.placed id (hI.up (o := .placeholder) hc (hI.own (sendable_finish hm rfl)))

lemma cancel (source : ℕ) : Ensures I E (cancel source) := hI.built rfl

lemma offerTo (clip : Clipboard) (dev : ℕ) : Ensures I E (offerTo clip dev) := by
  refine .get_bind fun c hc => ?_
  split
  · exact hc
  split
  · exact hI.built rfl c hc
  · refine Ensures.bind (ensures_orRefuse hI.stops _ _) (fun offer => ?_) c hc
    refine .bind (hI.offered _ _ _) fun _ => .bind (.update fun _ h => hI.rest h rfl) fun _ =>
      .bind ?_ fun _ => .bind (.forM _ fun t _ => ?_) fun _ => ?_
    all_goals exact hI.built rfl

lemma offerSelection (clip : Clipboard) (devices : List ℕ) : Ensures I E (offerSelection clip devices) :=
  .forM devices fun dev _ => hI.offerTo clip dev

lemma act (clip : Clipboard) (a : Action) : Ensures I E (act clip a) := by
  refine .get_bind fun c hc => ?_
  cases a with
  | offer s => exact wp_ite (fun _ => hI.offerSelection clip _ c hc) fun _ => hc
  | cancel s source => exact wp_ite (fun _ => hI.cancel source c hc) fun _ => hc
  | send s source mime fd asked =>
    dsimp only
    split
    · exact hc
    · refine Ensures.bind ?_ (fun _ => ?_) c hc
      · exact hI.built rfl
      · exact .update fun _ h => hI.rest h rfl

lemma createDataSource (body : Bytes) : Upon I E (createDataSource body) := by
  refine onCore (.get_bind fun c hc => wp_ite (fun _ => hI.stops hc _) fun _ => ?_)
  simp only [wp_bind, wp_liftWire, wp_set]
  exact ⟨fun _ _ => hI.rest hc rfl, fun _ _ => hI.stops hc _⟩

lemma getDataDevice (body : Bytes) : Upon I E (getDataDevice body) :=
  onCore (.bind (ensures_liftWire hI.stops _) fun _ => .update fun _ h => hI.rest h rfl)

lemma sourceOffer (object : ℕ) (body : Bytes) : Upon I E (sourceOffer object body) := by
  refine onCore (.bind (ensures_liftWire hI.stops _) fun mime => .get_bind fun c hc => ?_)
  simp only [wp_bind, wp_orRefuse]
  exact ⟨fun src _ => wp_ite (fun _ => hI.stops hc _) fun _ => wp_ite (fun _ => hc) fun _ => hI.rest hc rfl,
    fun _ => hI.stops hc _⟩

lemma liftWire (x : Except WireError α) : Upon I E (liftWire x) :=
  ensures_liftWire (I := fun w : World => I w.core) hI.stops x

lemma setSelection (body : Bytes) : Upon I E (setSelection body) := by
  refine .bind (hI.liftWire _) fun source => .get_bind fun w hw =>
    wp_ite (fun _ => hI.stops hw _) fun hin => ?_
  refine wp_ite (fun _ => wp_ite (fun _ => hw) fun h0 => ?_) fun _ =>
    wp_ite (fun _ => onCore (hI.cancel source) w hw) fun _ => hw
  obtain ⟨src, hsrc⟩ := mem_iff_lookup.mp (Classical.not_not.mp fun hn => hin ⟨h0, hn⟩)
  rw [wp_bind, wp_unwrap hsrc]
  exact hw

lemma startDrag (body : Bytes) : Upon I E (startDrag body) :=
  onCore (.bind (ensures_liftWire hI.stops _) fun source => .get_bind fun c hc =>
    wp_ite (fun _ => hI.cancel source c hc) fun _ => hc)

lemma receive (object : ℕ) (body : Bytes) (fds : List Fd) : Upon I E (receive object body fds) := by
  refine .bind (hI.liftWire _) fun mime => .get_bind fun w hw => ?_
  split
  · exact wp_ite (fun _ => hw) fun _ => hw
  · exact hw

/-- What of `serve` is left to show where an object's removal matters. -/
lemma serve {iface : Interface} {object : ℕ} {w : World} (request : String) (body : Bytes) (fds : List Fd)
    (hw : I w.core) (hremove : ∀ {c : Core}, c.objects = w.core.objects → I c →
      wp (onObjects (Objects.remove object)) (fun _ => I) E c) :
    wp (serve iface request object body fds) (fun _ w => I w.core) (fun e w => E e w.core) w := by
  have hgone {c : Core} (ho : c.objects = w.core.objects) (hc : I c) : wp (servedGone object) (fun _ => I) E c :=
    (wp_bind _ _).mpr (wp_mono (hremove ho hc) (fun _ c' hc' => hI.built rfl c' hc') fun _ _ he => he)
  refine wp_ite (fun _ => ?_) fun _ => wp_ite (fun _ => ?_) fun _ => wp_ite (fun _ => ?_) fun _ =>
    wp_ite (fun _ => ?_) fun _ => wp_ite (fun _ => ?_) fun _ => wp_ite (fun _ => ?_) fun _ =>
    wp_ite (fun _ => ?_) fun _ => wp_ite (fun _ => ?_) fun _ => wp_ite (fun _ => ?_) fun _ => hw
  · exact hI.createDataSource body w hw
  · exact hI.getDataDevice body w hw
  · exact hI.sourceOffer object body w hw
  · simp only [sourceDestroy, Wlproxy.onCore, Wlproxy.onClip, wp_bind, wp_get, wp_zoom, wp_modify]
    exact hgone rfl (hI.rest hw rfl)
  · exact hI.setSelection body w hw
  · exact hI.startDrag body w hw
  · simp only [deviceRelease, Wlproxy.onCore, wp_bind, wp_zoom, wp_modify]
    exact hgone rfl (hI.rest hw rfl)
  · exact hI.receive object body fds w hw
  · simp only [offerDestroy, Wlproxy.onCore, wp_bind, wp_zoom, wp_modify]
    exact hremove rfl (hI.rest hw rfl)

lemma answer {h : Header} {iface : Interface} {m : Message} {body : Bytes} {w : World}
    (forward : Bool) (hw : I w.core) (hremove : Policy.served iface.name = true → ∀ {c : Core},
      c.objects = w.core.objects → I c → wp (onObjects (Objects.remove h.object)) (fun _ => I) E c) :
    wp (Request.answer h iface m body fds forward) (fun _ w => I w.core) (fun e w => E e w.core) w := by
  refine wp_ite (fun hs => ?_) fun _ => hw
  exact (wp_bind _ _).mpr (wp_mono (hI.serve m.name body fds hw (hremove hs)) (fun _ _ h' => h') fun _ _ he => he)

lemma keyboard (iface : Interface) (m : Message) : Upon I E (Event.keyboard iface m) := by
  refine .ite (fun _ => ?_) fun _ => .ite (fun _ => ?_) fun _ => .ret _
  · exact .bind (.get_bind fun _ h => h) fun w => .bind (onClip _) fun _ =>
      .bind (.get_bind fun _ h => h) fun w' => onCore (hI.offerSelection _ _)
  · exact .get_bind fun w hw => wp_ite (fun _ => hw) fun _ => hw

lemma advertiseOwn (id : ℕ) : Ensures I E (advertiseOwn id) := by
  refine .forM _ fun e _ => .bind ?_ fun _ => ?_
  · exact .update fun _ h => hI.rest h rfl
  · exact hI.built rfl

lemma serveNew (id : ℕ) (name : String) : Upon I E (serveNew id name) :=
  .bind (onCore (hI.placeholder id)) fun _ => .get_bind fun w hw =>
    wp_ite (fun _ => onCore (hI.offerSelection _ _) w hw) fun _ => hw

lemma afterNew (dir : Dir) (forward : Bool) (id : ℕ) (name : String) : Upon I E (do
    Wlproxy.onCore (if name = "wl_registry" then Wlproxy.advertiseOwn id else pure ())
    if dir = .clientToServer ∧ !forward then Wlproxy.serveNew id name else return) :=
  .bind (onCore (.ite (fun _ => hI.advertiseOwn id) fun _ => .ret _)) fun _ =>
    .ite (fun _ => hI.serveNew id name) fun _ => .ret _

lemma registerNew (hreg : ∀ id name version dir, Ensures I E (Core.register id name version dir)) (dir : Dir)
    (forward : Bool) (d : Decoded) (version : ℕ) : Upon I E (registerNew dir forward d version) := by
  unfold Wlproxy.registerNew
  split
  · exact .ret _
  · exact .bind (onCore (hreg _ _ _ _)) fun _ => hI.afterNew dir forward _ _

lemma passOn (dir : Dir) {msg : Bytes} {stamp : Option Bytes} (hm : S msg fds)
    (hs : ∀ s, stamp = some s → S s []) : Ensures I E (passOn dir msg fds stamp) := by
  refine .get_bind fun c hc => wp_ite (fun _ => hI.stops hc _) fun _ => wp_ite (fun _ => hI.stops hc _) fun _ => ?_
  cases dir with
  | serverToClient => exact hI.rest (hI.down (o := .event) hc hm) rfl
  | clientToServer =>
    cases stamp with
    | none => exact hI.rest (hI.up (o := .request) hc hm) rfl
    | some s => exact hI.rest (hI.up (o := .stamp) (hI.up (o := .request) hc hm) (hs s rfl)) rfl

end Steered

variable {P : Queues → Prop} (hP : Closed P) {α : Type}

def Outs (P : Queues → Prop) (w : World) : Prop := w.core.Outs P

lemma outs_onShm (x : ShmM α) : Keeps (Core.Outs P) (onShm x) := .zoom _ _ fun _ _ h => h

lemma outs_onObjects (x : EStateM Fault Objects α) : Keeps (Core.Outs P) (onObjects x) :=
  .zoom _ _ fun _ _ h => h

lemma Closed.steered (hP : Closed P) : Steered (Core.Outs P) (fun _ => Core.Outs P) Sendable where
  stops h _ := h
  rest h hc := (congrArg (fun b : _ × _ × _ × _ × _ × _ × Queues => P b.2.2.2.2.2.2) hc).mpr h
  own h := h
  down := hP.down
  up := hP.up
  placed _ h := h
  offered id := register_keeps (fun h => h) id _

include hP in
lemma Request.outs_policy (k : Kernel) (h : Header) (iface : Interface) (m : Message)
    (body : Bytes) (fds : List Fd) (d : Decoded) (w : World) (hw : Outs P w) :
    wp (Request.policy k h iface m body fds d) (fun v w' => Outs P w' ∧ v.Sound) (fun _ w' => Outs P w') w := by
  simp only [policy, onCore, wp_bind, wp_zoom, wp_pure]
  refine wp_mono (hP.steered.minor minor_checkBind w.core hw) (fun forward c1 h1 => ?_) fun _ _ he => he
  refine wp_mono (hP.steered.answer (w := ⟨c1, w.clip⟩) forward h1 fun _ _ _ => outs_onObjects _ _)
    (fun forward w2 h2 => ?_) fun _ _ he => he
  refine wp_mono (hP.steered.wp_minor minor_identity h2) (fun r c hr => ?_) fun _ _ he => he
  refine wp_mono (outs_onShm _ c hr.1) (fun _ c' hc' => ?_) fun _ _ he => he
  refine wp_mono (hP.steered.wp_minor minor_stamp hc') (fun s c'' hs => ?_) fun _ _ he => he
  exact ⟨hs.1, hr.2, hs.2⟩

namespace Event

lemma outs_endPlaceholder (id : ℕ) : Keeps (Core.Outs P) (Core.endPlaceholder id) := by
  refine .get_bind fun c hc => ?_
  split
  · exact hc
  · rw [wp_bind]
    exact wp_mono (keeps_checkedSub _ _ c hc) (fun _ _ _ => hc) fun _ _ he => he

lemma outs_deleteObject (k : Kernel) (id : ℕ) : Keeps (Core.Outs P) (deleteObject k id) := by
  have hrest : Keeps (Core.Outs P) (do
      modify (fun c => { c with outputs := c.outputs.erase id })
      onShm (Shm.deleteId k id)
      onObjects (Objects.remove id)) := by
    refine .bind ?_ fun _ => .bind (outs_onShm _) fun _ => outs_onObjects _
    exact .update fun _ h => h
  refine .get_bind fun c hc => ?_
  split
  · rw [wp_bind]
    exact wp_mono (keeps_checkedSub _ _ c hc) (fun _ _ _ => hrest _ hc) fun _ _ he => he
  · rw [wp_bind]
    exact wp_mono (keeps_checkedSub _ _ c hc) (fun _ _ _ => hrest _ hc) fun _ _ he => he
  · exact hrest c hc

lemma outs_deleteId (k : Kernel) (h : Header) (body : Bytes) (v : Verdict) (hv : v.Sound)
    (c : Core) (hc : c.Outs P) : wp (deleteId k h body v) (fun v c' => c'.Outs P ∧ v.Sound)
      (fun _ c' => c'.Outs P) c := by
  refine wp_ite (fun _ => ?_) fun _ => ⟨hc, hv⟩
  simp only [wp_bind, wp_liftWire]
  refine ⟨fun id _ => ?_, fun _ _ => hc⟩
  refine wp_mono (outs_endPlaceholder id c hc) (fun ended c' hc' => ?_) fun _ _ he => he
  cases ended with
  | true => exact ⟨hc', hv.rewritten, hv.stamp⟩
  | false =>
    exact (wp_bind _ _).mpr
      (wp_mono (outs_deleteObject k id c' hc') (fun _ _ hc'' => ⟨hc'', hv⟩) fun _ _ he => he)

include hP in
lemma outs_policy (k : Kernel) (h : Header) (iface : Interface) (m : Message) (body : Bytes)
    (w : World) (hw : Outs P w) : wp (policy k h iface m body)
      (fun v w' => Outs P w' ∧ v.Sound) (fun _ w' => Outs P w') w := by
  simp only [policy, wp_bind, onCore, wp_zoom]
  refine wp_mono (hP.steered.wp_minor minor_global hw) (fun v c h1 => ?_) fun _ _ he => he
  refine wp_mono (hP.steered.wp_minor (minor_globalRemove h1.2) h1.1) (fun v c h2 => ?_) fun _ _ he => he
  refine wp_mono (hP.steered.wp_minor (minor_output h2.2) h2.1) (fun v c h3 => ?_) fun _ _ he => he
  refine wp_mono (hP.steered.keyboard iface m _ h3.1) (fun _ w h4 => ?_) fun _ _ he => he
  exact outs_deleteId k h body v h3.2 w.core h4

end Event

include hP

lemma outs_handle (k : Kernel) (dir : Dir) (h : Header) (iface : Interface) (m : Message)
    (version : ℕ) {msg : Bytes} {fds : List Fd} (hm : Sendable msg fds) :
    Keeps (Outs P) (handle k dir h iface m version msg fds) := by
  have hpolicy (d : Decoded) (w : World) (hw : Outs P w) :
      wp (policy k dir h iface m (msg.drop headerLen) fds d) (fun v w' => Outs P w' ∧ v.Sound)
        (fun _ w' => Outs P w') w := by
    cases dir with
    | clientToServer => exact Request.outs_policy hP k h iface m _ fds d w hw
    | serverToClient => exact Event.outs_policy hP k h iface m _ w hw
  refine .bind (ensures_liftWire (fun h _ => h) _) fun d w hw => (wp_bind _ _).mpr ?_
  refine wp_mono (hpolicy d w hw) (fun v w' hv => ?_) fun _ _ he => he
  refine Ensures.bind (hP.steered.registerNew (register_keeps fun h => h) _ _ _ _) (fun _ => Steered.onCore ?_) w' hv.1
  refine .ite (fun _ => hP.steered.passOn dir ⟨?_, hm.2⟩ fun s hs => ⟨hv.2.stamp s hs, Nat.zero_le _⟩) fun _ => .ret _
  cases hr : v.rewritten with
  | none => exact hm.1
  | some r => exact hv.2.rewritten r hr

omit hP

lemma fds_le_one (i : Interface) (dir : Dir) : ∀ m ∈ i.table dir, m.fds ≤ 1 := by
  cases dir <;> cases i <;> decide

lemma Core.lookup_ok {c : Core} {id opcode : ℕ} {dir : Dir} {iface : Interface} {m : Message}
    {version : ℕ} (h : c.lookup id dir opcode = .ok (iface, m, version)) :
    c.objects.get id = some (iface, version) ∧ (iface.table dir)[opcode]? = some m ∧ m.since ≤ version := by
  unfold lookup at h
  split at h
  · cases h
  rename_i i v hget
  split at h
  · cases h
  rename_i m' hm
  split at h
  · cases h
  · rename_i hs
    cases h
    exact ⟨hget, hm, Nat.not_lt.mp hs⟩

namespace Session

variable {k : Kernel} {dir : Dir} {c : Core} {src : Inbound} {h : Header} {m : Message}

lemma next_take {iface : Interface} {version : ℕ}
    (hn : next c dir src = .take h iface m version) :
    Header.parse src.pendingIn = .ok h ∧ h.size ≤ src.pendingIn.length ∧
    ¬ (dir = .serverToClient ∧ h.object ∈ c.placeholders) ∧
    c.lookup h.object dir h.opcode = .ok (iface, m, version) ∧ m.fds ≤ src.inFds.length := by
  unfold next at hn
  split at hn
  · cases hn
  split at hn
  · cases hn
  rename_i h' hp
  split at hn
  · cases hn
  rename_i hs
  split at hn
  · cases hn
  rename_i hph
  split at hn
  · cases hn
  rename_i hlk
  split at hn
  · cases hn
  · rename_i hf
    cases hn
    exact ⟨hp, Nat.not_lt.mp hs, hph, hlk, Nat.not_lt.mp hf⟩

lemma next_skip {n : ℕ} (hn : next c dir src = .skip n) :
    ∃ h, Header.parse src.pendingIn = .ok h ∧ n = h.size ∧ h.size ≤ src.pendingIn.length ∧
    dir = .serverToClient ∧ h.object ∈ c.placeholders := by
  unfold next at hn
  split at hn
  · cases hn
  split at hn
  · cases hn
  rename_i h' hp
  split at hn
  · cases hn
  rename_i hs
  split at hn
  · rename_i hph
    cases hn
    exact ⟨h', hp, rfl, Nat.not_lt.mp hs, hph⟩
  split at hn
  · cases hn
  split at hn <;> cases hn

variable {s : Session}

lemma parse_msg (hp : Header.parse (s.inbound dir).pendingIn = .ok h)
    (hs : h.size ≤ (s.inbound dir).pendingIn.length) :
    Header.parse (s.msg dir h) = .ok h ∧ (s.msg dir h).length = h.size := by
  have hl : (s.msg dir h).length = h.size := by
    simp [msg, Inbound.take, Nat.min_eq_left hs]
  refine ⟨?_, hl⟩
  have := Header.parse_append (by rw [hl]; exact h.size_ge) ((s.inbound dir).pendingIn.drop h.size)
  rw [msg, Inbound.take, List.take_append_drop, hp] at this
  exact this.symm

lemma length_fds
    (hf : m.fds ≤ (s.inbound dir).inFds.length) : (s.fds dir h m).length = m.fds := by
  simp only [fds, Inbound.takeFds, List.length_take]
  rw [Inbound.inFds_take, Nat.min_eq_left hf]

lemma sendable_msg {iface : Interface} {version : ℕ}
    (hn : next s.core dir (s.inbound dir) = .take h iface m version) :
    Sendable (s.msg dir h) (s.fds dir h m) := by
  obtain ⟨hp, hs, _, hlk, hf⟩ := next_take hn
  obtain ⟨hp', hl⟩ := parse_msg hp hs
  have hm := fds_le_one iface dir m (List.mem_of_getElem? (Core.lookup_ok hlk).2.1)
  refine ⟨⟨h, hp', hl.symm⟩, ?_⟩
  rw [length_fds hf]
  unfold batchFds
  omega

def Outs (P : Queues → Prop) (x : Session × Clipboard) : Prop := x.1.core.Outs P

include hP

lemma outs_pumpOnce (k : Kernel) (dir : Dir) : Keeps (Outs P) (pumpOnce k dir) := by
  rintro ⟨s, clip⟩ hs
  have hcore (i : Inbound) (c : Core) (hc : c.Outs P) :
      ({ s with core := c }.setInbound i dir).core.Outs P := by cases dir <;> exact hc
  refine wp_pumpOnce (fun _ => hs) (fun _ _ => hs) (fun _ _ => hcore _ s.core hs) fun h iface m version hn => ?_
  exact wp_mono (outs_handle hP k dir h iface m version (sendable_msg hn) ⟨s.core, clip⟩ hs)
    (fun _ w hw => hcore _ w.core hw) fun _ w hw => hcore _ w.core hw

lemma outs_pumpLoop (k : Kernel) (dir : Dir) (n : ℕ) : Keeps (Outs P) (pumpLoop k dir n) := by
  induction n with
  | zero => exact .stop fun _ h => h
  | succ n ih => exact .bind (outs_pumpOnce hP k dir) fun more => .ite (fun _ => ih) fun _ => .ret _

lemma outs_pump (k : Kernel) (dir : Dir) : Keeps (Outs P) (pump k dir) :=
  .bind (.get_bind fun _ h => h) fun _ => outs_pumpLoop hP k dir _

end Session

end Kryptik.Wlproxy
