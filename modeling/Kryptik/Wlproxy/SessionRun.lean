import Kryptik.Wlproxy.Fragmentation
import Kryptik.Wlproxy.SessionSound

namespace Kryptik.Wlproxy

open Lib Prog Tables Wire Protocol

/-- The history of the messages is that of the queues, and those to the
compositor are whole ones. -/
structure Queues.Recorded (q : Queues) : Prop where
  up : q.sentUp.map Sent.bytes = q.server.queued.map Prod.fst
  down : q.sentDown.map Sent.bytes = q.client.queued.map Prod.fst
  whole : ∀ sent ∈ q.sentUp, Whole sent.bytes

structure Queues.Sound (q : Queues) : Prop where
  client : q.client.Sound
  server : q.server.Sound
  recorded : q.Recorded

lemma closed_sound : Closed Queues.Sound := by
  have hqueue {o : Outbound} {msg : Bytes} {fds : List Fd} (h : o.Sound) (hs : Sendable msg fds) :
      (o.queue msg fds).Sound := by
    obtain ⟨⟨hd, _, hl⟩, hf⟩ := hs
    have := hd.size_ge
    have := hd.size_le
    refine h.queue (List.ne_nil_of_length_pos ?_) (by omega) hf
    unfold headerLen at *
    omega
  refine ⟨fun h hs => ⟨hqueue h.client hs, h.server, h.recorded.up, ?_, h.recorded.whole⟩,
    fun h hs => ⟨h.client, hqueue h.server hs, ?_, h.recorded.down, fun sent hin => ?_⟩⟩
  · simp [h.recorded.down, Outbound.queue]
  · simp [h.recorded.up, Outbound.queue]
  · obtain hin | hin := List.mem_append.mp hin
    · exact h.recorded.whole sent hin
    · rw [List.mem_singleton.mp hin]
      exact hs.1

namespace Shm

/-- The accounts of the pools, as the session's own fields state them. -/
structure PoolsAccounted (t : Shm) : Prop where
  count_eq : t.poolCount = size t.pools
  count_le : t.poolCount ≤ Policy.maxShmPoolsPerSession
  bytes_eq : t.poolBytes = total (fun _ p => p.range) t.pools
  bytes_le : t.poolBytes ≤ Policy.maxShmBytesPerSession
  size_le : ∀ g p, t.pools.lookup g = some p → p.size ≤ p.range
  range_le : ∀ g p, t.pools.lookup g = some p → p.range ≤ Policy.maxShmPoolBytes
  buffers : ∀ g p, t.pools.lookup g = some p → p.buffers = total (fun _ g' => if g' = g then 1 else 0) t.bufferPools
  held : ∀ g p, t.pools.lookup g = some p → p.held = total (fun _ sf => sf.held.count (some g)) t.surfaces
  deleted : ∀ g p, t.pools.lookup g = some p → (p.deleted = true ↔ ∀ id, t.poolIds.lookup id ≠ some g)
  poolIds : ∀ id g, t.poolIds.lookup id = some g → g ∈ t.pools
  bufferPools : ∀ id g, t.bufferPools.lookup id = some g → g ∈ t.pools
  used : ∀ g p, t.pools.lookup g = some p → ¬ (p.deleted = true ∧ p.buffers = 0 ∧ p.held = 0)

lemma Sound.poolsAccounted {live : Interface → ℕ → Prop} {t : Shm} (h : t.Sound live [] [] none) :
    t.PoolsAccounted where
  count_eq := h.charged.count_eq
  count_le := h.charged.count_le
  bytes_eq := h.charged.bytes_eq
  bytes_le := h.charged.bytes_le
  size_le := h.charged.size_le
  range_le := h.charged.range_le
  buffers := h.named.buffers
  held := h.held.count
  deleted := h.named.deleted
  poolIds := h.named.ids
  bufferPools := h.named.bufferIds
  used g p hg := h.inUse g p hg (by simp)

end Shm

namespace Session

variable {s : Session}

structure Sound (s : Session) : Prop where
  core : s.core.Sound
  queues : s.core.queues.Sound

def Stops (e : Fault) (s : Session) : Prop := s.core.Stops e ∧ s.core.queues.Recorded

lemma sound_pumpOnce (k : Kernel) (dir : Dir) (clip : Clipboard) (h : s.Sound) :
    wp (pumpOnce k dir) (fun _ x => x.1.Sound) (fun e x => x.1.Stops e) (s, clip) := by
  have houts := outs_pumpOnce closed_sound k dir (s, clip) h.queues
  have hcore : wp (pumpOnce k dir) (fun _ x => x.1.core.Sound) (fun e x => x.1.core.Stops e) (s, clip) := by
    refine wp_pumpOnce (fun _ => h.core) (fun e _ => h.core.stops e) (fun n _ => ?_) fun hd iface m version hn => ?_
    · rw [show (s.setInbound ((s.inbound dir).take n).2 dir).core = s.core from core_setInbound _ _ _]
      exact h.core
    · refine wp_mono (sound_handle (w := ⟨s.core, clip⟩) k _ _ h.core (next_take hn).2.2.2.1)
        (fun _ w hw => ?_) fun e w hw => ?_
      · rw [show (s.handled dir (s.rest dir hd m) w).1.core = w.core from core_setInbound _ _ _]
        exact hw
      · rw [show (s.handled dir (s.rest dir hd m) w).1.core = w.core from core_setInbound _ _ _]
        exact hw
  exact wp_mono (wp_and hcore houts) (fun _ _ h' => ⟨h'.1, h'.2⟩) fun _ _ he => ⟨he.1, he.2.recorded⟩

lemma ensures_pumpLoop {I : Session × Clipboard → Prop} {E : Fault → Session × Clipboard → Prop} {k : Kernel}
    {dir : Dir} (h : Ensures I E (pumpOnce k dir)) (n : ℕ) {clip : Clipboard} (hs : I (s, clip))
    (hn : (s.inbound dir).pendingIn.length < n) :
    wp (pumpLoop k dir n) (fun _ => I) E (s, clip) := by
  induction n generalizing s clip with
  | zero => omega
  | succ n ih =>
    refine (wp_bind _ _).mpr (wp_of_cases (fun more x hx => ?_) fun e x hx => wp_error (h _ hs) hx)
    obtain ⟨s', clip'⟩ := x
    have h' : I (s', clip') := wp_ok (h _ hs) hx
    cases more with
    | false => exact h'
    | true =>
      have := pumpOnce_shrinks hx
      exact ih h' (by omega)

lemma ensures_pump {I : Session × Clipboard → Prop} {E : Fault → Session × Clipboard → Prop}
    {k : Kernel} {dir : Dir} (h : Ensures I E (pumpOnce k dir)) : Ensures I E (pump k dir) :=
  fun _ hs => ensures_pumpLoop h _ hs (Nat.lt_succ_self _)

/-- What can befall a session: bytes and descriptors arrive from one side, one
direction is pumped, another session asks something of it, or a socket takes
some of what is queued. The kernel and the zone's clipboard may be others each
time. -/
inductive Input
  | arrive (dir : Dir) (bytes : Bytes) (fds : List Fd)
  | pump (k : Kernel) (dir : Dir) (clip : Clipboard)
  | act (clip : Clipboard) (a : Action)
  | flushClient (results : List SendResult)
  | flushServer (results : List SendResult)

def Input.run : Input → EStateM Fault Session Unit
  | .arrive dir bytes fds => modify (fun s => s.arrive dir bytes fds)
  | .pump k dir clip => zoom (fun s => (s, clip)) (fun x _ => x.1) (Session.pump k dir)
  | .act clip a => zoom Session.core (fun c s => { s with core := c }) (Core.act clip a)
  | .flushClient results => do
    let _ ← zoom (fun s => s.core.client) (fun o s => { s with core.client := o }) (Outbound.flush results)
  | .flushServer results => do
    let _ ← zoom (fun s => s.core.server) (fun o s => { s with core.server := o }) (Outbound.flush results)

def opened (zone : String) (holdAwake : Bool) (id : ℕ) : Session :=
  { core := { zone := zone, holdAwake := holdAwake, id := id } }

def run (inputs : List Input) : EStateM Fault Session Unit := inputs.forM Input.run

def final (inputs : List Input) (s : Session) : Session :=
  match run inputs s with
  | .ok _ s | .error _ s => s

lemma final_of_wp {P : Session → Prop} {inputs : List Input} (h : wp (run inputs) (fun _ => P) (fun _ => P) s) :
    P (final inputs s) := by
  unfold final
  cases hr : run inputs s with
  | ok _ t => exact wp_ok h hr
  | error _ t =>
    have ht := wp_error h hr
    exact ht

lemma sound_opened (zone : String) (holdAwake : Bool) (id : ℕ) : (opened zone holdAwake id).Sound where
  core := ⟨⟨rfl, Objects.bounded_new _, Nat.zero_le _, Nat.zero_le _, rfl, rfl⟩,
    fun _ _ h => by simp [opened] at h, Shm.sound_empty _⟩
  queues := ⟨Outbound.sound_empty, Outbound.sound_empty, rfl, rfl, fun _ h => by cases h⟩

lemma refusal_of_failed {r : SendResult} {e : Fault} (h : Outbound.Failed r e) : e.IsRefusal := by
  obtain ⟨code, _, rfl⟩ := h
  exact ⟨_, rfl⟩

lemma Input.safe (input : Input) : Ensures Sound (fun e s => s.Stops e) input.run := by
  intro s h
  cases input with
  | arrive dir bytes fds =>
    have hc : (s.arrive dir bytes fds).core = s.core := core_setInbound _ _ _
    exact ⟨hc.symm ▸ h.core, hc.symm ▸ h.queues⟩
  | pump k dir clip =>
    simp only [Input.run, wp_zoom]
    exact ensures_pump (I := fun x => x.1.Sound) (fun x hx => sound_pumpOnce k dir x.2 hx) (s, clip) h
  | act clip a =>
    simp only [Input.run, wp_zoom]
    refine wp_mono (wp_and (Core.steered.act clip a s.core h.core)
      (closed_sound.steered.act clip a s.core h.queues)) (fun _ c hc => ⟨hc.1, hc.2⟩) fun _ _ he => ?_
    exact ⟨he.1, he.2.recorded⟩
  | flushClient results =>
    simp only [Input.run, wp_bind, wp_zoom]
    obtain ⟨hcl, hs, hu, hd, hw⟩ := h.queues
    refine wp_mono (Outbound.flush_sound results hcl) (fun _ o ho => ?_) fun e o he => ?_
    · have hd' := hd.trans (congrArg (List.map Prod.fst) ho.2.symm)
      exact ⟨⟨h.core.tallied, h.core.placed, h.core.shm⟩, ho.1, hs, hu, hd', hw⟩
    · obtain ⟨⟨r, _, hr⟩, hq⟩ := he
      have hd' := hd.trans (congrArg (List.map Prod.fst) hq.symm)
      exact ⟨⟨refusal_of_failed hr, h.core.shm.booked⟩, hu, hd', hw⟩
  | flushServer results =>
    simp only [Input.run, wp_bind, wp_zoom]
    obtain ⟨hcl, hs, hu, hd, hw⟩ := h.queues
    refine wp_mono (Outbound.flush_sound results hs) (fun _ o ho => ?_) fun e o he => ?_
    · have hu' := hu.trans (congrArg (List.map Prod.fst) ho.2.symm)
      exact ⟨⟨h.core.tallied, h.core.placed, h.core.shm⟩, hcl, ho.1, hu', hd, hw⟩
    · obtain ⟨⟨r, _, hr⟩, hq⟩ := he
      have hu' := hu.trans (congrArg (List.map Prod.fst) hq.symm)
      exact ⟨⟨refusal_of_failed hr, h.core.shm.booked⟩, hu', hd, hw⟩

lemma sound_run (inputs : List Input) (h : s.Sound) : wp (run inputs) (fun _ => Sound) (fun e s => s.Stops e) s :=
  wp_forM inputs (fun input _ s hs => input.safe s hs) h

/-- In every state a session reaches the pools are accounted for, and no input
makes it panic or hang. -/
theorem run_poolsAccounted (zone : String) (holdAwake : Bool) (id : ℕ) (inputs : List Input) :
    match run inputs (opened zone holdAwake id) with
    | .ok _ s => s.core.shm.PoolsAccounted
    | .error e _ => ∃ why, e = .refused why := by
  have h := sound_run inputs (sound_opened zone holdAwake id)
  cases hr : run inputs (opened zone holdAwake id) with
  | ok _ s => exact (wp_ok h hr).core.shm.poolsAccounted
  | error e s => exact (wp_error h hr).1.1

/-- The counters kept beside the object map, as the session's own fields state them. -/
structure Tallies (c : Core) : Prop where
  live : c.objects.live = c.objects.client.countP Option.isSome + c.objects.server.countP Option.isSome
  live_le : c.objects.live ≤ 4096
  client_le : c.objects.client.length ≤ 8192
  server_le : c.objects.server.length ≤ 8192
  toplevels : c.toplevels = c.objects.count (fun x => x.1 = .xdgToplevel)
  toplevels_le : c.toplevels ≤ Policy.maxToplevelsPerSession
  popups : c.popups = c.objects.count (fun x => x.1 = .xdgPopup)
  popups_le : c.popups ≤ Policy.maxPopupsPerSession

lemma tallies_of_sound {c : Core} (h : c.Sound) : Tallies c where
  live := by
    have hsome : (Option.any fun _ : Obj => true) = Option.isSome := by
      funext x
      cases x <;> rfl
    rw [h.tallied.counted, Objects.count, Slots.count, Slots.count, hsome]
  live_le := h.tallied.bounded.live
  client_le := h.tallied.bounded.client
  server_le := h.tallied.bounded.server
  toplevels := h.tallied.toplevels
  toplevels_le := h.tallied.toplevels_le
  popups := h.tallied.popups
  popups_le := h.tallied.popups_le

/-- Whatever comes from either side, the object map and the counters beside it agree, within
their bounds, and none of them goes below zero. -/
theorem run_tallies (zone : String) (holdAwake : Bool) (id : ℕ) (inputs : List Input) :
    match run inputs (opened zone holdAwake id) with
    | .ok _ s => Tallies s.core
    | .error e _ => e ≠ .panic := by
  have h := sound_run inputs (sound_opened zone holdAwake id)
  cases hr : run inputs (opened zone holdAwake id) with
  | ok _ s => exact tallies_of_sound (wp_ok h hr).core
  | error e s =>
    obtain ⟨why, rfl⟩ := (wp_error h hr).1.1
    exact nofun

end Session

end Kryptik.Wlproxy
