import Kryptik.Lib.Incremental
import Kryptik.Wlproxy.Queued

namespace Kryptik.Wlproxy

open Lib Batches Incremental Prog Tables Wire Protocol List Inbound

namespace Inbound

variable {i : Inbound} {n : ℕ}

@[simp] lemma pendingIn_append (i : Inbound) (bytes : Bytes) (fds : List Fd) :
    (i.append bytes fds).pendingIn = i.pendingIn ++ bytes := rfl

@[simp] lemma inFds_append (i : Inbound) (bytes : Bytes) (fds : List Fd) :
    (i.append bytes fds).inFds = i.inFds ++ fds := rfl

lemma pendingIn_take (i : Inbound) (n : ℕ) : (i.take n).2.pendingIn = i.pendingIn.drop n := by
  simp only [take]
  split
  · refine (drop_eq_nil_iff.mpr ?_).symm
    simp only [pendingIn, length_drop]
    omega
  · simp [pendingIn]

lemma append_append (i : Inbound) (b1 b2 : Bytes) (f1 f2 : List Fd) :
    (i.append b1 f1).append b2 f2 = i.append (b1 ++ b2) (f1 ++ f2) := by
  simp [append, pendingIn]

lemma take_append (h : n ≤ i.pendingIn.length) (bytes : Bytes) (fds : List Fd) :
    ((i.append bytes fds).take n).1 = (i.take n).1 :=
  take_append_of_le_length h

lemma rest_append (h : n ≤ i.pendingIn.length) (bytes : Bytes) (fds : List Fd) {f : ℕ} (hf : f ≤ i.inFds.length) :
    (((i.append bytes fds).take n).2.takeFds f).2.append [] [] = (((i.take n).2.takeFds f).2).append bytes fds := by
  simp only [append, takeFds, inFds_take, append_nil]
  congr 1
  · change ((i.append bytes fds).take n).2.pendingIn = (i.take n).2.pendingIn ++ bytes
    rw [pendingIn_take, pendingIn_take, pendingIn_append, drop_append_of_le_length h]
  · rw [drop_append_of_le_length hf]

lemma rest_takeFds_zero (i : Inbound) : (i.takeFds 0).2 = i := rfl

end Inbound

namespace Session

variable {s : Session} {fds : List Fd} {clip : Clipboard}
variable {k : Kernel} {dir : Dir} {c : Core} {src : Inbound}

/-- The same session with the consumed bytes of one side dropped, as the next
read does. -/
def compact (s : Session) (dir : Dir) : Session := s.arrive dir [] []

lemma arrive_compact (s : Session) (dir : Dir) (bytes : Bytes) (fds : List Fd) :
    (s.compact dir).arrive dir bytes fds = s.arrive dir bytes fds := by
  cases dir <;> simp [compact, arrive, inbound, setInbound, Inbound.append, pendingIn]

lemma next_append (h : next c dir src ≠ .wait) (bytes : Bytes) (fds : List Fd) :
    next c dir (src.append bytes fds) = next c dir src := by
  unfold next at h ⊢
  rw [pendingIn_append, inFds_append, length_append, length_append]
  by_cases hl : src.pendingIn.length < headerLen
  · simp [hl] at h
  rw [if_neg hl, if_neg (by omega), Header.parse_append (Nat.not_lt.mp hl)]
  cases hp : Header.parse src.pendingIn with
  | error e => rfl
  | ok hd =>
    simp only [hp] at h ⊢
    by_cases hs : src.pendingIn.length < hd.size
    · simp [hs] at h
    rw [if_neg hs, if_neg (by omega)]
    by_cases hph : dir = .serverToClient ∧ hd.object ∈ c.placeholders
    · rw [if_pos hph, if_pos hph]
    rw [if_neg hph] at h ⊢
    rw [if_neg hph]
    cases hlk : c.lookup hd.object dir hd.opcode with
    | error e => rfl
    | ok r =>
      obtain ⟨iface, m, version⟩ := r
      simp only [hlk] at h ⊢
      by_cases hf : src.inFds.length < m.fds
      · simp [hf] at h
      · rw [if_neg hf, if_neg (by omega)]

def turn (k : Kernel) (dir : Dir) (x : Session × Clipboard) : Outcome Fault (Session × Clipboard) :=
  match pumpOnce k dir x with
  | .ok false _ => none
  | .ok true (s, clip) => some (.ok (s.compact dir, clip))
  | .error e (s, clip) => some (.error (e, s.compact dir, clip))

def feed (dir : Dir) (x : Session × Clipboard) (i : Bytes × List Fd) : Session × Clipboard :=
  (x.1.arrive dir i.1 i.2, x.2)

@[simp] lemma inbound_setInbound (s : Session) (i : Inbound) (dir : Dir) :
    (s.setInbound i dir).inbound dir = i := by cases dir <;> rfl

@[simp] lemma setInbound_setInbound (s : Session) (i j : Inbound) (dir : Dir) :
    (s.setInbound i dir).setInbound j dir = s.setInbound j dir := by cases dir <;> rfl

@[simp] lemma core_setInbound (s : Session) (i : Inbound) (dir : Dir) :
    (s.setInbound i dir).core = s.core := by cases dir <;> rfl

lemma setCore_setInbound (s : Session) (c : Core) (i : Inbound) (dir : Dir) :
    { s.setInbound i dir with core := c } = { s with core := c }.setInbound i dir := by
  cases dir <;> rfl

lemma msg_arrive {h : Header} {bytes : Bytes} (hs : h.size ≤ (s.inbound dir).pendingIn.length) :
    (s.arrive dir bytes fds).msg dir h = s.msg dir h := by
  simp only [msg, arrive, inbound_setInbound]
  exact Inbound.take_append hs bytes fds

lemma fds_arrive {h : Header} {m : Message} {bytes : Bytes} (hf : m.fds ≤ (s.inbound dir).inFds.length) :
    (s.arrive dir bytes fds).fds dir h m = s.fds dir h m := by
  simp only [Session.fds, arrive, inbound_setInbound, takeFds, inFds_take, inFds_append]
  exact take_append_of_le_length hf

lemma pumpOnce_arrive (k : Kernel) (dir : Dir) (s : Session) (clip : Clipboard) (bytes : Bytes) (fds : List Fd) :
    match pumpOnce k dir (s, clip) with
    | .ok false x => x = (s, clip)
    | .ok true (s', clip') => ∃ t, pumpOnce k dir (s.arrive dir bytes fds, clip) =
        .ok true (t, clip') ∧ t.compact dir = s'.arrive dir bytes fds
    | .error e (s', clip') => ∃ t, pumpOnce k dir (s.arrive dir bytes fds, clip) =
        .error e (t, clip') ∧ t.compact dir = s'.arrive dir bytes fds := by
  have hnext (h : next s.core dir (s.inbound dir) ≠ .wait) :
      next (s.arrive dir bytes fds).core dir ((s.arrive dir bytes fds).inbound dir) =
        next s.core dir (s.inbound dir) := by
    simp only [arrive, core_setInbound, inbound_setInbound]
    exact next_append h bytes fds
  cases hn : next s.core dir (s.inbound dir) with
  | wait => simp only [pumpOnce, hn]
  | refuse e =>
    rw [hn] at hnext
    simp only [pumpOnce, hn, hnext (by simp)]
    exact ⟨_, rfl, by simp [compact, arrive, append_append]⟩
  | skip n =>
    rw [hn] at hnext
    obtain ⟨h, _, rfl, hs, _⟩ := next_skip hn
    simp only [pumpOnce, hn, hnext (by simp)]
    refine ⟨_, rfl, ?_⟩
    have := rest_append hs bytes fds (Nat.zero_le _)
    simp only [compact, arrive, inbound_setInbound, setInbound_setInbound]
    simpa only [rest_takeFds_zero] using congrArg (s.setInbound · dir) this
  | take h iface m version =>
    rw [hn] at hnext
    obtain ⟨_, hs, _, _, hf⟩ := next_take hn
    have hcore : (s.arrive dir bytes fds).core = s.core := by simp [arrive]
    have hrest (w : World) : ((s.arrive dir bytes fds).handled dir
        ((s.arrive dir bytes fds).rest dir h m) w).1.compact dir =
        (s.handled dir (s.rest dir h m) w).1.arrive dir bytes fds := by
      simp only [handled, compact, arrive, setCore_setInbound, inbound_setInbound,
        setInbound_setInbound, rest, rest_append hs bytes fds hf]
    simp only [pumpOnce, hn, hnext (by simp)]
    simp only [hcore, msg_arrive hs, fds_arrive hf]
    cases handle k dir h iface m version (s.msg dir h) (s.fds dir h m) ⟨s.core, clip⟩ with
    | ok _ w | error e w => exact ⟨_, rfl, hrest w⟩

lemma steady_turn (k : Kernel) (dir : Dir) : Steady (turn k dir) (feed dir) where
  ok := by
    rintro ⟨s, clip⟩ t ⟨bytes, fds⟩ h
    have hp := pumpOnce_arrive k dir s clip bytes fds
    cases hr : pumpOnce k dir (s, clip) with
    | error e x => simp [turn, hr] at h
    | ok more x =>
      obtain ⟨s', clip'⟩ := x
      cases more with
      | false => simp [turn, hr] at h
      | true =>
        rw [hr] at hp
        obtain ⟨u, hu, hc⟩ := hp
        obtain rfl : (s'.compact dir, clip') = t := by simpa [turn, hr] using h
        simp [turn, feed, hu, hc, arrive_compact]
  error := by
    rintro ⟨s, clip⟩ t e ⟨bytes, fds⟩ h
    have hp := pumpOnce_arrive k dir s clip bytes fds
    cases hr : pumpOnce k dir (s, clip) with
    | error e' x =>
      obtain ⟨s', clip'⟩ := x
      rw [hr] at hp
      obtain ⟨u, hu, hc⟩ := hp
      obtain ⟨rfl, rfl⟩ : e' = e ∧ (s'.compact dir, clip') = t := by simpa [turn, hr] using h
      simp [turn, feed, hu, hc, arrive_compact]
    | ok more x =>
      cases more <;> simp [turn, hr] at h

lemma turn_compact (k : Kernel) (dir : Dir) (s : Session) (clip : Clipboard) :
    turn k dir (s.compact dir, clip) = turn k dir (s, clip) := by
  have hnext : next (s.compact dir).core dir ((s.compact dir).inbound dir) = next s.core dir (s.inbound dir) := by
    simp [compact, arrive, next]
  have hp := pumpOnce_arrive k dir s clip [] []
  cases hr : pumpOnce k dir (s, clip) with
  | error e x =>
    obtain ⟨s', clip'⟩ := x
    rw [hr] at hp
    obtain ⟨u, hu, hc⟩ := hp
    change pumpOnce k dir (s.compact dir, clip) = _ at hu
    change u.compact dir = s'.compact dir at hc
    simp [turn, hr, hu, hc]
  | ok more x =>
    obtain ⟨s', clip'⟩ := x
    rw [hr] at hp
    cases more with
    | true =>
      obtain ⟨u, hu, hc⟩ := hp
      change pumpOnce k dir (s.compact dir, clip) = _ at hu
      change u.compact dir = s'.compact dir at hc
      simp [turn, hr, hu, hc]
    | false =>
      have hw : next s.core dir (s.inbound dir) = .wait := by
        unfold pumpOnce at hr
        cases hn : next s.core dir (s.inbound dir) with
        | wait => rfl
        | refuse e | skip n => simp [hn] at hr
        | take h iface m version =>
          simp only [hn] at hr
          split at hr <;> simp at hr
      simp [turn, pumpOnce, hnext, hw]

def settled (dir : Dir) :
    EStateM.Result Fault (Session × Clipboard) Unit → Except (Fault × Session × Clipboard) (Session × Clipboard)
  | .ok _ (s, clip) => .ok (s.compact dir, clip)
  | .error e (s, clip) => .error (e, s.compact dir, clip)

lemma pumpOnce_shrinks {s' : Session} {clip' : Clipboard} (h : pumpOnce k dir (s, clip) = .ok true (s', clip')) :
    (s'.inbound dir).pendingIn.length < (s.inbound dir).pendingIn.length := by
  unfold pumpOnce at h
  cases hn : next s.core dir (s.inbound dir) with
  | wait | refuse e => simp [hn] at h
  | skip n =>
    obtain ⟨hd, _, rfl, hs, _⟩ := next_skip hn
    simp only [hn, EStateM.Result.ok.injEq, true_and, Prod.mk.injEq] at h
    have := hd.size_ge
    rw [← h.1, inbound_setInbound, pendingIn_take, length_drop]
    unfold headerLen at this
    omega
  | take hd iface m version =>
    obtain ⟨_, hs, _⟩ := next_take hn
    have := hd.size_ge
    simp only [hn] at h
    split at h
    · simp only [EStateM.Result.ok.injEq, true_and, handled, Prod.mk.injEq] at h
      rw [← h.1, inbound_setInbound]
      change (((s.inbound dir).take hd.size).2.pendingIn).length < _
      rw [pendingIn_take, length_drop]
      unfold headerLen at this
      omega
    · cases h

lemma pumpLoop_runs (n : ℕ) (s : Session) (clip : Clipboard) (hn : (s.inbound dir).pendingIn.length < n) :
    Runs (turn k dir) (s.compact dir, clip) (settled dir (pumpLoop k dir n (s, clip))) := by
  induction n generalizing s clip with
  | zero => omega
  | succ n ih =>
    have ht := turn_compact k dir s clip
    simp only [pumpLoop, bind, EStateM.bind]
    cases hr : pumpOnce k dir (s, clip) with
    | error e x => exact .stop (by rw [ht]; simp [turn, hr])
    | ok more x =>
      obtain ⟨s', clip'⟩ := x
      cases more with
      | false =>
        have hp := pumpOnce_arrive k dir s clip [] []
        rw [hr] at hp
        cases hp
        exact .wait (by rw [ht]; simp [turn, hr])
      | true =>
        have hlt := pumpOnce_shrinks hr
        exact .more (by rw [ht]; simp [turn, hr]) (ih s' clip' (by omega))

lemma pump_runs (k : Kernel) (dir : Dir) (s : Session) (clip : Clipboard) :
    Runs (turn k dir) (s.compact dir, clip) (settled dir (pump k dir (s, clip))) :=
  pumpLoop_runs _ s clip (Nat.lt_succ_self _)

/-- `pump` after each of several arrivals. Once it has ended in an error nothing
more is pumped, and what still arrives waits. -/
def pumpEach (k : Kernel) (dir : Dir) : List (Bytes × List Fd) → PumpM Unit
  | [], x => .ok () x
  | (bytes, fds) :: arrivals, (s, clip) =>
    match pump k dir (s.arrive dir bytes fds, clip) with
    | .ok _ x => pumpEach k dir arrivals x
    | .error e (s, clip) => .error e
        (s.arrive dir (arrivals.flatMap Prod.fst) (arrivals.flatMap Prod.snd), clip)

lemma pumpEach_ok {first : Bytes × List Fd} {x : Session × Clipboard} (arrivals : List (Bytes × List Fd))
    (h : pump k dir (s.arrive dir first.1 first.2, clip) = .ok () x) :
    pumpEach k dir (first :: arrivals) (s, clip) = pumpEach k dir arrivals x := by
  simp [pumpEach, h]

lemma pumpEach_error {s' : Session} {clip' : Clipboard} {first : Bytes × List Fd} {e : Fault}
    (arrivals : List (Bytes × List Fd)) (h : pump k dir (s.arrive dir first.1 first.2, clip) = .error e (s', clip')) :
    pumpEach k dir (first :: arrivals) (s, clip) = .error e
      (s'.arrive dir (arrivals.flatMap Prod.fst) (arrivals.flatMap Prod.snd), clip') := by
  simp [pumpEach, h]

lemma arrive_arrive (s : Session) (dir : Dir) (b1 b2 : Bytes) (f1 f2 : List Fd) :
    (s.arrive dir b1 f1).arrive dir b2 f2 = s.arrive dir (b1 ++ b2) (f1 ++ f2) := by
  simp [arrive, append_append]

lemma compact_arrive (s : Session) (dir : Dir) (bytes : Bytes) (fds : List Fd) :
    (s.arrive dir bytes fds).compact dir = s.arrive dir bytes fds := by
  rw [compact, arrive_arrive, append_nil, append_nil]

lemma pumpEach_runs (k : Kernel) (dir : Dir) (first : Bytes × List Fd)
    (arrivals : List (Bytes × List Fd)) (s : Session) (clip : Clipboard) :
    Runs (turn k dir) (s.arrive dir ((first :: arrivals).flatMap Prod.fst) ((first :: arrivals).flatMap Prod.snd), clip)
      (settled dir (pumpEach k dir (first :: arrivals) (s, clip))) := by
  induction arrivals generalizing first s clip with
  | nil =>
    have h := pump_runs k dir (s.arrive dir first.1 first.2) clip
    rw [compact_arrive] at h
    rw [flatMap_singleton, flatMap_singleton]
    cases hr : pump k dir (s.arrive dir first.1 first.2, clip) with
    | ok _ x =>
      rw [pumpEach_ok [] hr]
      rwa [hr] at h
    | error e x =>
      rw [pumpEach_error [] hr]
      rw [hr] at h
      simp only [settled, compact_arrive]
      exact h
  | cons second rest ih =>
    have h := pump_runs k dir (s.arrive dir first.1 first.2) clip
    rw [compact_arrive] at h
    have hb : (first :: second :: rest).flatMap Prod.fst = first.1 ++ (second :: rest).flatMap Prod.fst := rfl
    have hf : (first :: second :: rest).flatMap Prod.snd = first.2 ++ (second :: rest).flatMap Prod.snd := rfl
    rw [hb, hf, ← arrive_arrive]
    cases hr : pump k dir (s.arrive dir first.1 first.2, clip) with
    | ok _ x =>
      rw [pumpEach_ok (second :: rest) hr]
      rw [hr] at h
      refine h.resume (steady_turn k dir) ((second :: rest).flatMap Prod.fst, (second :: rest).flatMap Prod.snd) ?_
      rw [feed, arrive_compact]
      exact ih second x.1 x.2
    | error e x =>
      rw [pumpEach_error (second :: rest) hr]
      rw [hr] at h
      have h' := h.resume_error (steady_turn k dir) ((second :: rest).flatMap Prod.fst,
        (second :: rest).flatMap Prod.snd)
      simpa only [feed, arrive_compact, settled, compact_arrive] using h'

lemma pumpEach_eq_pump (k : Kernel) (dir : Dir) (first : Bytes × List Fd)
    (arrivals : List (Bytes × List Fd)) (s : Session) (clip : Clipboard) :
    settled dir (pumpEach k dir (first :: arrivals) (s, clip)) =
      settled dir (pump k dir (s.arrive dir ((first :: arrivals).flatMap Prod.fst)
        ((first :: arrivals).flatMap Prod.snd), clip)) := by
  have h := pump_runs k dir (s.arrive dir ((first :: arrivals).flatMap Prod.fst)
    ((first :: arrivals).flatMap Prod.snd)) clip
  rw [compact_arrive] at h
  exact (pumpEach_runs k dir first arrivals s clip).unique h

def GrewWhole (o o' : Outbound) : Prop :=
  ∃ msgs : List Bytes, (∀ m ∈ msgs, Whole m) ∧ items o'.outq = items o.outq ++ msgs.flatten

lemma GrewWhole.queue {o o' : Outbound} (h : GrewWhole o o') {msg : Bytes} (hm : Sendable msg fds) :
    GrewWhole o (o'.queue msg fds) := by
  obtain ⟨msgs, hw, hi⟩ := h
  refine ⟨msgs ++ [msg], fun m hmem => ?_, ?_⟩
  · obtain hmem | hmem := mem_append.mp hmem
    · exact hw m hmem
    · exact mem_singleton.mp hmem ▸ hm.1
  · simp [Outbound.queue, items_push, hi]

lemma grewWhole_refl (o : Outbound) : GrewWhole o o := ⟨[], by simp, by simp⟩

lemma closed_grewWhole (c s : Outbound) : Closed (fun q => GrewWhole c q.client ∧ GrewWhole s q.server) where
  down h hm := ⟨h.1.queue hm, h.2⟩
  up h hm := ⟨h.1, h.2.queue hm⟩

def ended : EStateM.Result Fault (Session × Clipboard) Unit → Session
  | .ok _ x => x.1
  | .error _ x => x.1

lemma pump_grewWhole (k : Kernel) (dir : Dir) (s : Session) (clip : Clipboard) :
    GrewWhole s.core.client (ended (pump k dir (s, clip))).core.client ∧
    GrewWhole s.core.server (ended (pump k dir (s, clip))).core.server := by
  have h := outs_pump (closed_grewWhole s.core.client s.core.server) k dir (s, clip)
    ⟨grewWhole_refl _, grewWhole_refl _⟩
  cases hr : pump k dir (s, clip) with
  | ok _ x =>
    have := wp_ok h hr
    exact this
  | error e x =>
    have := wp_error h hr
    exact this

lemma core_ended_eq {r r' : EStateM.Result Fault (Session × Clipboard) Unit}
    (h : settled dir r = settled dir r') : (ended r).core = (ended r').core := by
  have hc (s : Session) : (s.compact dir).core = s.core := by simp [compact, arrive]
  cases r <;> cases r' <;> simp only [settled, Except.ok.injEq, Except.error.injEq, Prod.mk.injEq, reduceCtorEq] at h
  · rw [ended, ended, ← hc, h.1, hc]
  · rw [ended, ended, ← hc, h.2.1, hc]

/-- Fragmentation does not matter: however the input of one side is cut into
arrivals, pumping after each of them ends as pumping once does, with the same
error if any, and queues whole messages. -/
theorem pump_fragmentation (k : Kernel) (dir : Dir) (first : Bytes × List Fd)
    (arrivals : List (Bytes × List Fd)) (s : Session) (clip : Clipboard) :
    settled dir (pumpEach k dir (first :: arrivals) (s, clip)) =
      settled dir (pump k dir (s.arrive dir ((first :: arrivals).flatMap Prod.fst)
        ((first :: arrivals).flatMap Prod.snd), clip)) ∧
    GrewWhole s.core.client (ended (pumpEach k dir (first :: arrivals) (s, clip))).core.client ∧
    GrewWhole s.core.server (ended (pumpEach k dir (first :: arrivals) (s, clip))).core.server := by
  have h := pumpEach_eq_pump k dir first arrivals s clip
  have hw := pump_grewWhole k dir (s.arrive dir ((first :: arrivals).flatMap Prod.fst)
    ((first :: arrivals).flatMap Prod.snd)) clip
  have hc : (s.arrive dir ((first :: arrivals).flatMap Prod.fst)
    ((first :: arrivals).flatMap Prod.snd)).core = s.core := by simp [arrive]
  rw [core_ended_eq h]
  rw [hc] at hw
  exact ⟨h, hw⟩

end Session

end Kryptik.Wlproxy
