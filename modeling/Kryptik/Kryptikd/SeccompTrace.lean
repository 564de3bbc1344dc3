import Kryptik.Kryptikd.PolicySound

namespace Kryptik.Kryptikd.Seccomp

open Lib Fallible Bpf Option

variable {e : Word}
variable {allow : List ℤ} {sockets : SocketPolicy} {call : SeccompData}

lemma and_low (he : e ≤ 0xffff#32) : e &&& 0xffff#32 = e := by
  apply BitVec.eq_of_toNat_eq
  rw [BitVec.toNat_and]
  have hle : e.toNat ≤ 65535 := he
  have hmask : (0xffff#32).toNat = 2 ^ 16 - 1 := rfl
  rw [hmask, Nat.and_two_pow_sub_one_eq_mod]
  omega

lemma errnoAction_low (he : e ≤ 0xffff#32) : errnoAction e &&& 0xffff#32 = e := by
  have hret : retErrno &&& 0xffff#32 = 0#32 := by decide
  rw [errnoAction, and_low he, BitVec.and_comm, BitVec.and_or_distrib_left, BitVec.and_comm, hret,
    BitVec.and_comm, and_low he, BitVec.zero_or]

lemma errnoAction_inj {e' : Word} (he : e ≤ 0xffff#32) (he' : e' ≤ 0xffff#32) (h : errnoAction e = errnoAction e') :
    e = e' := by
  rw [← errnoAction_low he, ← errnoAction_low he', h]

def tabled (nr : ℤ) : Option Word := (refusedSoftly.find? (fun e => e.1 == nr)).map Prod.snd

lemma tabled_rule : ∀ rule ∈ argRules, tabled rule.nr = none := by decide

lemma tabled_small {nr : ℤ} (h : tabled nr = some e) : 0 ≤ nr ∧ nr < 2 ^ 30 := by
  obtain ⟨entry, hf, -⟩ := map_eq_some_iff.mp h
  have hrange : ∀ e ∈ refusedSoftly, 0 ≤ e.1 ∧ e.1 < 2 ^ 30 := by decide
  have hp := List.find?_some hf
  have hnr : entry.1 = nr := beq_iff_eq.mp hp
  exact hnr ▸ hrange entry (List.mem_of_find?_eq_some hf)

lemma tabled_errno {nr : ℤ} (h : tabled nr = some e) : e = eperm ∨ e = enosys := by
  obtain ⟨entry, hf, rfl⟩ := map_eq_some_iff.mp h
  have herrno : ∀ e ∈ refusedSoftly, e.2 = eperm ∨ e.2 = enosys := by decide
  exact herrno entry (List.mem_of_find?_eq_some hf)

lemma softVerdict_eq : softVerdict allow call =
    if call.number ∈ allow then none else (tabled call.number).map Verdict.soft := by
  have hsame (e : ℤ × Word) : (e.1 == call.number && !allow.contains e.1) =
      (e.1 == call.number && !allow.contains call.number) := by
    by_cases he : e.1 = call.number
    · rw [he]
    · rw [beq_eq_false_iff_ne.mpr he, Bool.false_and, Bool.false_and]
  unfold softVerdict tabled
  simp only [hsame, map_map]
  by_cases hin : call.number ∈ allow
  · simp [hin]
  · rw [if_neg hin]
    congr 2
    simp [hin]

lemma argVerdict_some {v : Verdict} (h : argVerdict allow sockets call = some v) :
    ∃ rule ∈ argRules, rule.nr = call.number ∧ v = rule.verdict sockets call := by
  obtain ⟨rule, hf, rfl⟩ := map_eq_some_iff.mp h
  have hp := List.find?_some hf
  exact ⟨rule, List.mem_of_find?_eq_some hf, beq_iff_eq.mp (Bool.and_eq_true _ _ ▸ hp).1, rfl⟩

lemma argVerdict_none (h : argVerdict allow sockets call = none) :
    ∀ rule ∈ argRules, rule.nr ∈ allow → rule.nr ≠ call.number := by
  intro rule hr hin he
  have := List.find?_eq_none.mp (map_eq_none_iff.mp h) rule hr
  simp [he ▸ hin, he] at this

lemma softErrno_native (harch : call.arch = auditArchX8664) (hnr : ¬ x32SyscallBit ≤ call.nr) :
    softErrno call = if call.number = sysClone ∧ call.arg 0 &&& cloneNsMask ≠ 0 then some eperm
      else tabled call.number := by
  have hlt : call.nr.toNat < 2 ^ 30 := by
    have : ¬ (2 ^ 30 ≤ call.nr.toNat) := hnr
    omega
  have hint : call.nr.toInt = call.number := by
    rw [BitVec.toInt_eq_toNat_of_lt (by omega)]
    rfl
  simp [softErrno, harch, hint, tabled]

lemma softErrno_foreign (h : call.arch ≠ auditArchX8664 ∨ x32SyscallBit ≤ call.nr) : softErrno call = none := by
  by_cases harch : call.arch = auditArchX8664
  · have hge : 2 ^ 30 ≤ call.nr.toNat := h.resolve_left (not_not.mpr harch)
    have hout : ¬ (0 ≤ call.nr.toInt ∧ call.nr.toInt < 2 ^ 30) := by
      rw [BitVec.toInt_eq_toNat_cond]
      split <;> omega
    have htab : tabled call.nr.toInt = none := by
      cases ht : tabled call.nr.toInt with
      | none => rfl
      | some e => exact absurd (tabled_small ht) hout
    have hclone : call.nr.toInt ≠ sysClone := by
      intro he
      rw [he] at hout
      exact hout (by decide)
    unfold tabled at htab
    simp [softErrno, hclone, htab]
  · simp [softErrno, harch]

def RefusedIoctl (call : SeccompData) : Prop :=
  call.arch = auditArchX8664 ∧ call.number = sysIoctl ∧ NicIoctl (call.arg 1)

lemma nicIoctl_ne {w : Word} (h : NicIoctl w) : ¬ (w = tiocsti ∨ w = tioclinux) := by
  rintro (rfl | rfl) <;> exact absurd h (by decide)

lemma softErrno_rule {rule : ArgRule} (hr : rule ∈ argRules) (hnr : rule.nr = call.number)
    (hsoft : softErrno call = if call.number = sysClone ∧ call.arg 0 &&& cloneNsMask ≠ 0 then some eperm
      else tabled call.number) (hioctl : call.number = sysIoctl → ¬ NicIoctl (call.arg 1)) :
    (rule.verdict sockets call = .deny → softErrno call = none) ∧
      ∀ e, rule.verdict sockets call = .soft e → softErrno call = some e := by
  rw [hsoft, ← hnr]
  cases rule with
  | cloneNoNamespaces =>
    rw [ArgRule.verdict]
    refine ⟨fun h => ?_, fun e h => ?_⟩
    · split at h <;> cases h
    · split at h
      · cases h
      · next hmask =>
        cases h
        exact if_pos ⟨rfl, hmask⟩
  | ioctlRefused =>
    have hclone : ¬ (ArgRule.ioctlRefused.nr = sysClone ∧ call.arg 0 &&& cloneNsMask ≠ 0) :=
      fun h => absurd h.1 (by decide)
    refine ⟨fun _ => if_neg hclone, fun e h => ?_⟩
    rw [ArgRule.verdict, if_neg (hioctl hnr.symm)] at h
    split at h <;> cases h
  | clone3Enosys => refine ⟨fun h => ?_, fun e h => ?_⟩ <;> cases h
  | socketFamilies | socketpairUnix =>
    rw [ArgRule.verdict]
    refine ⟨fun h => ?_, fun e h => ?_⟩ <;> split at h <;> cases h

lemma softErrno_verdict (sockets : SocketPolicy) (hbase : ∀ nr ∈ baseAllowlist, nr ∈ allow)
    (hioctl : ¬ RefusedIoctl call) :
    (verdict allow sockets call = .deny → softErrno call = none) ∧
      ∀ e, verdict allow sockets call = .soft e → softErrno call = some e := by
  by_cases hforeign : call.arch ≠ auditArchX8664 ∨ x32SyscallBit ≤ call.nr
  · rw [verdict, if_pos hforeign]
    exact ⟨fun _ => softErrno_foreign hforeign, fun _ h => by cases h⟩
  · rw [verdict, if_neg hforeign]
    obtain ⟨harch, hnr⟩ := not_or.mp hforeign
    have harch := not_not.mp harch
    have hsoft := softErrno_native harch hnr
    cases ha : argVerdict allow sockets call with
    | some v =>
      obtain ⟨rule, hr, hm, rfl⟩ := argVerdict_some ha
      exact softErrno_rule hr hm hsoft (fun hn hnic => hioctl ⟨harch, hn, hnic⟩)
    | none =>
      have hclone : call.number ≠ sysClone := fun he =>
        argVerdict_none ha .cloneNoNamespaces (by decide) (hbase _ (by decide +kernel)) he.symm
      rw [if_neg fun h => hclone h.1] at hsoft
      rw [softVerdict_eq, hsoft]
      by_cases hin : call.number ∈ allow
      · simp only [if_pos hin, getD_none]
        refine ⟨fun h => ?_, fun e h => ?_⟩ <;> cases h
      · simp only [if_neg hin]
        cases tabled call.number with
        | none => exact ⟨fun _ => rfl, fun _ h => by cases h⟩
        | some e' =>
          refine ⟨fun h => ?_, fun e h => ?_⟩ <;> cases h
          rfl

lemma verdict_soft (h : verdict allow sockets call = .soft e) : e = eperm ∨ e = enosys := by
  unfold verdict at h
  split at h
  · cases h
  cases ha : argVerdict allow sockets call with
  | some v =>
    rw [ha] at h
    obtain ⟨rule, -, -, rfl⟩ := argVerdict_some ha
    have h : rule.verdict sockets call = .soft e := h
    cases rule with
    | cloneNoNamespaces =>
      rw [ArgRule.verdict] at h
      split at h <;> cases h
      exact .inl rfl
    | clone3Enosys => cases h
    | ioctlRefused =>
      rw [ArgRule.verdict] at h
      split_ifs at h
      cases h
      exact .inl rfl
    | socketFamilies | socketpairUnix =>
      rw [ArgRule.verdict] at h
      split at h <;> cases h
  | none =>
    rw [ha, softVerdict_eq] at h
    split at h
    · cases h
    · cases ht : tabled call.number with
      | none =>
        rw [ht] at h
        cases h
      | some e' =>
        rw [ht] at h
        cases h
        exact tabled_errno ht

/-- The zone's filter answers a call with an errno that the trace is told of. -/
def SoftlyRefused (allow : List ℤ) (sockets : SocketPolicy) (call : SeccompData) (k : Word) : Prop :=
  ∃ e, verdict allow sockets call = .soft e ∧ k = errnoAction e

structure Shows (allow : List ℤ) (sockets : SocketPolicy) (call : SeccompData) (k n : Word) : Prop where
  notified : n = retUserNotif ↔ k = retKillProcess ∨ SoftlyRefused allow sockets call k
  same : n ≠ retUserNotif → n = k
  errno : n = retUserNotif → ∀ e ≤ 0xffff#32, softErrno call = some e ↔ k = errnoAction e
  killed : n = retUserNotif → (softErrno call = none ↔ k = retKillProcess)

lemma shows_of_agree {v : Verdict} (hv : v = verdict allow sockets call ∨ v = .allow ∨ v = .errno eafnosupport)
    (hdeny : v = .deny → softErrno call = none) (hsoft : ∀ e, v = .soft e → softErrno call = some e) :
    Shows allow sockets call (v.action retKillProcess) (v.action retUserNotif) := by
  cases v with
  | allow =>
    refine ⟨⟨fun h => absurd h (by decide), ?_⟩, fun _ => rfl, fun h => absurd h (by decide),
      fun h => absurd h (by decide)⟩
    rintro (h | ⟨e, -, h⟩)
    · cases h
    · exact absurd h.symm (errnoAction_ne e).1
  | deny =>
    refine ⟨⟨fun _ => .inl rfl, fun _ => rfl⟩, fun h => absurd rfl h, fun _ e _ => ?_,
      fun _ => ⟨fun _ => rfl, fun _ => hdeny rfl⟩⟩
    rw [hdeny rfl]
    exact ⟨nofun, fun h => absurd h.symm (errnoAction_ne e).2.1⟩
  | soft e =>
    have hverdict : verdict allow sockets call = .soft e := by
      obtain hv | hv | hv := hv
      · exact hv.symm
      · cases hv
      · cases hv
    have hlow : e ≤ 0xffff#32 := by
      rcases verdict_soft hverdict with rfl | rfl <;> decide
    refine ⟨⟨fun _ => .inr ⟨e, hverdict, rfl⟩, fun _ => rfl⟩, fun h => absurd rfl h, fun _ e' he' => ?_, fun _ => ?_⟩
    · rw [hsoft e rfl]
      exact ⟨fun h => Option.some.inj h ▸ rfl, fun h => congrArg some (errnoAction_inj hlow he' h)⟩
    · rw [hsoft e rfl]
      exact ⟨nofun, fun h => absurd h (errnoAction_ne e).2.1⟩
  | errno e =>
    have hquiet := (errnoAction_ne e).2.2
    refine ⟨⟨fun h => absurd h hquiet, ?_⟩, fun _ => rfl, fun h => absurd h hquiet, fun h => absurd h hquiet⟩
    rintro (h | ⟨e', hverdict, h⟩)
    · exact absurd h (errnoAction_ne e).2.1
    · have he : e = eafnosupport := by
        obtain hv | hv | hv := hv
        · rw [hverdict] at hv
          cases hv
        · cases hv
        · exact Verdict.errno.inj hv
      rw [he] at h
      obtain rfl | rfl := verdict_soft hverdict
      · cases h
      · cases h

lemma verdict_refusedIoctl (sockets : SocketPolicy) (hbase : ∀ nr ∈ baseAllowlist, nr ∈ allow) (h : RefusedIoctl call) :
    verdict allow sockets call = .soft eperm ∧ Early allow call argRules ∧ softErrno call = none := by
  obtain ⟨harch, hnr, hnic⟩ := h
  have hin : sysIoctl ∈ allow := hbase _ (by decide +kernel)
  have hnat : call.nr.toNat = 16 := by
    have : (call.nr.toNat : ℤ) = 16 := hnr
    omega
  have hlow : ¬ x32SyscallBit ≤ call.nr := by
    intro hle
    have : 2 ^ 30 ≤ call.nr.toNat := hle
    omega
  have harg : argVerdict allow sockets call = some (ArgRule.ioctlRefused.verdict sockets call) := by
    unfold argVerdict argRules
    rw [hnr, List.find?_cons_of_neg (by simp [ArgRule.nr, sysClone, sysIoctl]),
      List.find?_cons_of_neg (by simp [ArgRule.nr, sysClone3, sysIoctl]),
      List.find?_cons_of_pos (by simpa [ArgRule.nr] using hin)]
    rfl
  refine ⟨?_, ⟨.ioctlRefused, by decide, hnr.symm, hin⟩, ?_⟩
  · rw [verdict, if_neg (not_or.mpr ⟨not_not.mpr harch, hlow⟩), harg, getD_some,
      ArgRule.verdict, if_neg (nicIoctl_ne hnic), if_pos hnic]
  · rw [softErrno_native harch hlow, hnr]
    exact tabled_rule .ioctlRefused (by decide)

theorem trace_shows_iff (extra : List ℤ) (keptCaps : List ℕ) (allow : List ℤ)
    (hallow : widenedFor extra keptCaps = .ok allow) (sockets : SocketPolicy)
    (kill notify : List SockFilter)
    (hkill : buildProgramFull allow retKillProcess sockets = .ok kill)
    (hnotify : buildProgramFull allow retUserNotif sockets = .ok notify) (call : SeccompData) :
    (∃ k n, evaluate kill call = some k ∧ evaluate notify call = some n ∧ Shows allow sockets call k n) ↔
        ¬ (call.arch = auditArchX8664 ∧ call.number = sysIoctl ∧ NicIoctl (call.arg 1)) := by
  have hbase : ∀ nr ∈ baseAllowlist, nr ∈ allow := fun nr hnr => ((widenedFor_mem hallow).2 nr).mpr (.inl hnr)
  obtain ⟨v, hv, hverdict⟩ := evaluate_verdict allow sockets call
  have hk := hv _ _ hkill
  have hn := hv _ _ hnotify
  constructor
  · rintro ⟨k, n, hk', hn', hshows⟩ hioctl
    obtain ⟨hsoft, hearly, hnone⟩ := verdict_refusedIoctl sockets hbase hioctl
    obtain rfl : v = .soft eperm := by
      obtain rfl | ⟨⟨-, hlate⟩, -⟩ := hverdict
      · exact hsoft
      · exact absurd hearly hlate
    cases hk.symm.trans hk'
    cases hn.symm.trans hn'
    exact absurd ((hshows.killed rfl).mp hnone) (errnoAction_ne eperm).2.1
  · intro hioctl
    refine ⟨_, _, hk, hn, ?_⟩
    obtain ⟨hdeny, hsoft⟩ := softErrno_verdict sockets hbase hioctl
    obtain rfl | ⟨-, rfl | rfl⟩ := hverdict
    · exact shows_of_agree (.inl rfl) hdeny hsoft
    · exact shows_of_agree (.inr (.inl rfl)) nofun nofun
    · exact shows_of_agree (.inr (.inr rfl)) nofun nofun

/-- Both filters on a call, for a widened list and the plain socket rule. -/
def onBoth (wide : Except SeccompError (List ℤ)) (call : SeccompData) : Option (Word × Word) := do
  let allow ← wide.toOption
  let kill ← (buildProgramFull allow retKillProcess {}).toOption
  let notify ← (buildProgramFull allow retUserNotif {}).toOption
  let k ← evaluate kill call
  let n ← evaluate notify call
  return (k, n)

lemma onBoth_some {wide : Except SeccompError (List ℤ)} {call : SeccompData} {k n : Word}
    (h : onBoth wide call = some (k, n)) : ∃ allow kill notify, wide = .ok allow ∧
      buildProgramFull allow retKillProcess {} = .ok kill ∧
      buildProgramFull allow retUserNotif {} = .ok notify ∧
      evaluate kill call = some k ∧ evaluate notify call = some n := by
  obtain ⟨allow, ha, h⟩ := bind_eq_some_iff.mp h
  obtain ⟨kill, hk, h⟩ := bind_eq_some_iff.mp h
  obtain ⟨notify, hn, h⟩ := bind_eq_some_iff.mp h
  obtain ⟨k', hk', h⟩ := bind_eq_some_iff.mp h
  obtain ⟨n', hn', h⟩ := bind_eq_some_iff.mp h
  cases h
  exact ⟨allow, kill, notify, toOption_eq_some.mp ha, toOption_eq_some.mp hk, toOption_eq_some.mp hn, hk', hn'⟩

theorem trace_shows_setuid : ∃ allow kill notify, widenedFor [] [] = .ok allow ∧
    buildProgramFull allow retKillProcess {} = .ok kill ∧
    buildProgramFull allow retUserNotif {} = .ok notify ∧
    ∃ k n, evaluate kill setuidCall = some k ∧ evaluate notify setuidCall = some n ∧ Shows allow {} setuidCall k n := by
  have h : onBoth (widenedFor [] []) setuidCall = some (errnoAction eperm, retUserNotif) := by decide +kernel
  obtain ⟨allow, kill, notify, ha, hk, hn, -⟩ := onBoth_some h
  exact ⟨allow, kill, notify, ha, hk, hn, (trace_shows_iff _ _ allow ha _ kill notify hk hn setuidCall).mpr (by decide)⟩

def ethtoolCall : SeccompData where
  nr := 16#32
  arch := auditArchX8664
  instructionPointer := 0
  args := fun i => if i = 1 then 0x8946 else 0

theorem ethtool_not_shown : ∃ allow kill notify, widenedFor [] [] = .ok allow ∧
    buildProgramFull allow retKillProcess {} = .ok kill ∧
    buildProgramFull allow retUserNotif {} = .ok notify ∧
    evaluate kill ethtoolCall = some (errnoAction eperm) ∧
    evaluate notify ethtoolCall = some retUserNotif ∧ softErrno ethtoolCall = none ∧
    ¬ Shows allow {} ethtoolCall (errnoAction eperm) retUserNotif := by
  have h : onBoth (widenedFor [] []) ethtoolCall = some (errnoAction eperm, retUserNotif) := by decide +kernel
  obtain ⟨allow, kill, notify, ha, hk, hn, hke, hne⟩ := onBoth_some h
  have hnone : softErrno ethtoolCall = none := by decide +kernel
  refine ⟨allow, kill, notify, ha, hk, hn, hke, hne, hnone, ?_⟩
  intro hshows
  exact absurd ((hshows.killed rfl).mp hnone) (by decide)

end Kryptik.Kryptikd.Seccomp
