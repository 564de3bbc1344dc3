import Kryptik.Wlproxy.Endpoint

namespace Kryptik.Wlproxy

open Lib Prog Batches Wire List

namespace Outbound

variable {bytes : Bytes} {fds : List Fd} {q : Queue UInt8 Fd}

/-- The queue, the counters and the history agree: what was sent and what waits
is what was queued, in order, and no batch lags behind its descriptors. -/
structure Sound (o : Outbound) : Prop where
  bytes : o.sentBytes ++ items o.outq = items o.queued
  fds : o.sentFds ++ tokens o.outq = tokens o.queued
  paired : Paired o.queued o.sentBytes.length o.sentFds.length o.outq
  bounded : Bounded maxMessageLen batchFds o.outq
  pendingOut : o.pendingOut = (items o.outq).length
  pendingFds : o.pendingFds = (tokens o.outq).length
  calls : ∀ c ∈ o.calls, c.1 ≤ maxMessageLen ∧ c.2 ≤ batchFds

lemma sound_empty : Sound {} where
  bytes := rfl
  fds := rfl
  paired := fun _ _ _ _ h => absurd h (Nat.not_lt_zero _)
  bounded := fun _ h => absurd h not_mem_nil
  pendingOut := rfl
  pendingFds := rfl
  calls := fun _ h => absurd h not_mem_nil

variable {o : Outbound}

lemma Sound.queue (h : o.Sound) (hb : bytes ≠ []) (hl : bytes.length ≤ maxMessageLen) (hf : fds.length ≤ batchFds) :
    (o.queue bytes fds).Sound where
  bytes := by
    simp only [Outbound.queue, items_push, items_append, items_cons, items_nil, append_nil]
    rw [← append_assoc, h.bytes]
  fds := by
    simp only [Outbound.queue, tokens_push, tokens_append, tokens_cons, tokens_nil, append_nil]
    rw [← append_assoc, h.fds]
  paired := by
    have hs := congrArg List.length h.bytes
    have ht := congrArg List.length h.fds
    rw [length_append] at hs ht
    exact h.paired.push hs ht bytes fds
  bounded := h.bounded.push hb hl hf
  pendingOut := by
    simp [Outbound.queue, items_push, h.pendingOut]
  pendingFds := by
    simp [Outbound.queue, tokens_push, h.pendingFds]
  calls := h.calls

lemma Sound.called (h : o.Sound) (hq : o.outq = (bytes, fds) :: q) :
    Sound { o with calls := o.calls ++ [(bytes.length, fds.length)] } where
  bytes := h.bytes
  fds := h.fds
  paired := h.paired
  bounded := h.bounded
  pendingOut := h.pendingOut
  pendingFds := h.pendingFds
  calls := fun c hc => by
    rcases mem_append.mp hc with hc | hc
    · exact h.calls c hc
    · obtain rfl := mem_singleton.mp hc
      exact (h.bounded _ (hq ▸ mem_cons_self)).2

lemma Sound.sent (h : o.Sound) (hq : o.outq = (bytes, fds) :: q) {n : ℕ} (hn : n ≤ bytes.length) : Sound { o with
      outq := Batches.sent n o.outq
      pendingOut := o.pendingOut - n
      pendingFds := o.pendingFds - fds.length
      sentBytes := o.sentBytes ++ bytes.take n
      sentFds := o.sentFds ++ fds } where
  bytes := by rw [hq, append_assoc, items_sent, ← hq, h.bytes]
  fds := by rw [hq, append_assoc, tokens_sent, ← hq, h.fds]
  paired := by
    have hp := h.paired
    rw [hq] at hp ⊢
    simpa [length_take, Nat.min_eq_left hn] using hp.sent hn
  bounded := by
    have hb := h.bounded
    rw [hq] at hb ⊢
    exact hb.sent hn
  pendingOut := by
    have hl := congrArg List.length (items_sent n bytes fds q)
    rw [length_append, length_take, Nat.min_eq_left hn, ← hq, ← h.pendingOut] at hl
    exact (Nat.eq_sub_of_add_eq' hl).symm
  pendingFds := by
    have hl := congrArg List.length (tokens_sent n bytes fds q)
    rw [length_append, ← hq, ← h.pendingFds] at hl
    exact (Nat.eq_sub_of_add_eq' hl).symm
  calls := h.calls

lemma Sound.front_le (h : o.Sound) (hq : o.outq = (bytes, fds) :: q) :
    bytes.length ≤ o.pendingOut ∧ fds.length ≤ o.pendingFds := by
  rw [h.pendingOut, h.pendingFds, hq, items_cons, tokens_cons, length_append, length_append]
  exact ⟨Nat.le_add_right _ _, Nat.le_add_right _ _⟩

lemma cmsgSpace_le {n : ℕ} (h : n ≤ batchFds) : cmsgSpace n ≤ cmsgRoom := by
  unfold batchFds at h
  unfold cmsgSpace cmsgRoom
  omega

def Failed (r : SendResult) (e : Fault) : Prop := ∃ code, r = .failed code ∧ e = .refused (.io code)

lemma sendFront_sound (r : SendResult) (h : o.Sound) : wp (sendFront r) (fun _ o' => o'.Sound ∧ o'.queued = o.queued)
      (fun e o' => Failed r e ∧ o'.queued = o.queued) o := by
  unfold sendFront
  simp only [wp_bind, wp_get]
  split
  · exact ⟨h, rfl⟩
  · rename_i bytes fds q hq
    have hf := h.bounded _ (hq ▸ mem_cons_self)
    rw [if_neg (Nat.not_lt.mpr (cmsgSpace_le hf.2.2))]
    have hc := h.called hq
    cases r with
    | wouldBlock => exact ⟨hc, rfl⟩
    | failed code => exact ⟨⟨code, rfl, rfl⟩, rfl⟩
    | sent n =>
      obtain ⟨hb, ht⟩ := h.front_le hq
      have hpos : 0 < bytes.length := length_pos_iff.mpr hf.1
      have hn := Nat.max_le.mpr ⟨hpos, Nat.min_le_right n bytes.length⟩
      simp only [wp_bind, wp_checkedSub ht, wp_checkedSub (Nat.le_trans hn hb), wp_set, wp_pure]
      exact ⟨hc.sent hq hn, trivial⟩

lemma flush_sound (rs : List SendResult) (h : o.Sound) : wp (flush rs) (fun _ o' => o'.Sound ∧ o'.queued = o.queued)
      (fun e o' => (∃ r ∈ rs, Failed r e) ∧ o'.queued = o.queued) o := by
  induction rs generalizing o with
  | nil =>
    unfold flush
    rw [wp_bind]
    refine wp_mono (sendFront_sound _ h) (fun _ _ ho => ho) (fun e _ he => ?_)
    obtain ⟨⟨_, hr, _⟩, _⟩ := he
    cases hr
  | cons r rs ih =>
    unfold flush
    rw [wp_bind]
    refine wp_mono (sendFront_sound r h) (fun turn o' ho => ?_) (fun e _ he => ⟨⟨r, mem_cons_self, he.1⟩, he.2⟩)
    cases turn with
    | empty | blocked => exact ho
    | again =>
      refine wp_mono (ih ho.1) (fun _ _ hr => ⟨hr.1, hr.2.trans ho.2⟩) (fun e _ he => ⟨?_, he.2.trans ho.2⟩)
      obtain ⟨s, hs, hse⟩ := he.1
      exact ⟨s, mem_cons_of_mem r hs, hse⟩

/-- A message as the callers of `queue` hand one over. -/
structure Outgoing where
  bytes : Bytes
  fds : List Fd
  nonempty : bytes ≠ []
  fits : bytes.length ≤ maxMessageLen
  fdsFit : fds.length ≤ batchFds

/-- One use of an endpoint's outbound half. In a flush, `none` is a sendmsg
that would block and a number is what a sendmsg took. -/
inductive Call
  | queue (m : Outgoing)
  | flush (taken : List (Option ℕ))

def Call.message : Call → Option (Bytes × List Fd)
  | .queue m => some (m.bytes, m.fds)
  | .flush _ => none

def answer : Option ℕ → SendResult
  | none => .wouldBlock
  | some n => .sent n

def Call.run : Call → EStateM Fault Outbound Unit
  | .queue m => modify (fun o => o.queue m.bytes m.fds)
  | .flush taken => do
    let _ ← Outbound.flush (taken.map answer)

lemma Call.run_sound (c : Call) (h : o.Sound) :
    wp c.run (fun _ o' => o'.Sound ∧ o'.queued = o.queued ++ c.message.toList) (fun _ _ => False) o := by
  cases c with
  | queue m => exact ⟨h.queue m.nonempty m.fits m.fdsFit, rfl⟩
  | flush taken =>
    refine (wp_bind _ _).mpr (wp_mono (flush_sound _ h) (fun _ o' ho => ?_) (fun e _ he => ?_))
    · exact ⟨ho.1, by simpa [Call.message] using ho.2⟩
    · obtain ⟨⟨r, hr, code, rfl, _⟩, _⟩ := he
      obtain ⟨n, _, hn⟩ := mem_map.mp hr
      cases n <;> cases hn

lemma run_sound (cs : List Call) (h : o.Sound) : wp (cs.forM Call.run)
      (fun _ o' => o'.Sound ∧ o'.queued = o.queued ++ cs.filterMap Call.message)
      (fun _ _ => False) o := by
  induction cs generalizing o with
  | nil => exact ⟨h, by simp⟩
  | cons c cs ih =>
    refine (wp_bind (Call.run c) _).mpr (wp_mono (c.run_sound h) (fun _ o' ho => ?_) (fun _ _ => id))
    refine wp_mono (ih ho.1) (fun _ o'' hr => ⟨hr.1, ?_⟩) (fun _ _ => id)
    rw [hr.2, ho.2]
    cases hc : c.message <;> simp [hc]

/-- Whatever the socket takes of the queued messages, bytes and descriptors
leave in order, each descriptor no later than the first byte of its message,
and the counters never underflow. -/
theorem queue_flush_pairing (cs : List Call) : ∃ o : Outbound, cs.forM Call.run {} = .ok ⟨⟩ o ∧
    o.queued = cs.filterMap Call.message ∧
    o.sentBytes <+: items o.queued ∧
    o.sentFds <+: tokens o.queued ∧
    (∀ j < o.queued.length, itemsBefore o.queued j < o.sentBytes.length → tokensThrough o.queued j ≤ o.sentFds.length) ∧
    (∀ c ∈ o.calls, c.1 ≤ maxMessageLen ∧ c.2 ≤ batchFds) ∧
    o.sentBytes.length + o.pendingOut = (items o.queued).length ∧
    o.sentFds.length + o.pendingFds = (tokens o.queued).length := by
  have h := run_sound cs sound_empty
  cases hr : cs.forM Call.run {} with
  | error e o => exact (wp_error h hr).elim
  | ok _ o =>
    obtain ⟨ho, hq⟩ := wp_ok h hr
    refine ⟨o, rfl, by simpa using hq, ⟨_, ho.bytes⟩, ⟨_, ho.fds⟩, fun j hj hs => ho.paired.now hj hs, ho.calls, ?_, ?_⟩
    · rw [← ho.bytes, length_append, ho.pendingOut]
    · rw [← ho.fds, length_append, ho.pendingFds]

end Outbound

end Kryptik.Wlproxy
