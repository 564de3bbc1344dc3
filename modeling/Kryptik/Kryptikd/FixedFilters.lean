import Kryptik.Kryptikd.SeccompMeaning

namespace Kryptik.Kryptikd.Seccomp

open Lib Bpf List

def afPacket : Word := 17#32
def netlinkGeneric : Word := 16#32
def sockDgram : Word := 2#32

def sockDgramFlags : Word := sockDgram ||| 0x80000#32 ||| 0x800#32

def supplicantProgram : List SockFilter :=
  let refuse := retErrno ||| eperm
  [stmt ldWAbs offArch, jump jmpJeqK auditArchX8664 1 0, stmt retK retKillProcess, stmt ldWAbs offNr,
    jump jmpJgeK x32SyscallBit 0 1,
    stmt retK retKillProcess,
    jump jmpJeqK (BitVec.ofInt 32 sysSocket) 1 0,
    stmt retK retAllow,
    -- the family; jumps land on the two returns at the end
    stmt ldWAbs (argLo 0),
    jump jmpJeqK afUnix 9 0,
    jump jmpJeqK afPacket 8 0,
    jump jmpJeqK afNetlink 1 0,
    jump jmpJeqK afInet 3 7,
    stmt ldWAbs (argLo 2),
    jump jmpJeqK netlinkRoute 4 0,
    jump jmpJeqK netlinkGeneric 3 4,
    stmt ldWAbs (argLo 1),
    jump jmpJsetK (~~~sockDgramFlags) 2 0,
    jump jmpJsetK sockDgram 0 1,
    stmt retK retAllow,
    stmt retK refuse]

def proxyNames : List (String × ℤ) := [
  ("execve", 59), ("arch_prctl", 158), ("set_tid_address", 218), ("rt_sigaction", 13),
  ("rt_sigprocmask", 14), ("sigaltstack", 131), ("prlimit64", 302), ("exit", 60), ("exit_group", 231),
  -- memory, none of it executable
  ("brk", 12), ("mmap", 9), ("munmap", 11), ("mremap", 25), ("mprotect", 10), ("madvise", 28),
  -- the loop
  ("poll", 7), ("restart_syscall", 219), ("accept4", 288), ("socket", 41), ("connect", 42),
  ("getsockopt", 55), ("recvmsg", 47), ("sendmsg", 46), ("recvfrom", 45), ("sendto", 44),
  ("read", 0), ("write", 1), ("pipe2", 293), ("fcntl", 72), ("ioctl", 16), ("close", 3),
  ("getrandom", 318), ("clock_gettime", 228), ("geteuid", 107),
  -- a pool's file
  ("fstatfs", 138), ("fstat", 5), ("fallocate", 285)]

def proxyAllowlist : List ℤ := proxyNames.map Prod.snd

def fionbio : Word := 0x5421#32
def protExec : Word := 0x4#32
def fallocFlKeepSize : Word := 0x1#32
def fallocFlPunchHole : Word := 0x2#32

def sysMmap : ℤ := 9
def sysMprotect : ℤ := 10
def sysSendto : ℤ := 44
def sysFallocate : ℤ := 285

def onlyValue (i : ℕ) (value : Word) : List SockFilter := [
  stmt ldWAbs (argLo i),
  jump jmpJeqK value 0 1,
  stmt retK retAllow,
  stmt retK retKillProcess]

def noExec : List SockFilter := [
  stmt ldWAbs (argLo 2),
  jump jmpJsetK protExec 0 1,
  stmt retK retKillProcess,
  stmt retK retAllow]

/-- The calls an argument decides, each with a block that always returns. -/
def proxyRules : List (ℤ × List SockFilter) := [
  (sysSocket, onlyValue 0 afUnix),
  (sysIoctl, onlyValue 1 fionbio),
  -- the address's length: none means the connected peer
  (sysSendto, onlyValue 5 0#32),
  (sysFallocate, onlyValue 1 (fallocFlPunchHole ||| fallocFlKeepSize)),
  (sysMmap, noExec),
  (sysMprotect, noExec)]

def ruleBlock (rule : ℤ × List SockFilter) : List SockFilter :=
  jump jmpJeqK (BitVec.ofInt 32 rule.1) 0 (rule.2.length % 256) :: rule.2

def allowPair (nr : ℤ) : List SockFilter := [jump jmpJeqK (BitVec.ofInt 32 nr) 0 1, stmt retK retAllow]

def proxyPlain : List ℤ := proxyAllowlist.filter fun nr => !proxyRules.any (fun r => r.1 == nr)

def proxyProgram : List SockFilter :=
  prologue retKillProcess ++ (proxyRules.flatMap ruleBlock ++
    (proxyPlain.flatMap allowPair ++ [stmt retK retKillProcess]))

/-- The sockets the supplicant opens, by the low words of socket(2)'s arguments. -/
def SupplicantSocket (family type protocol : Word) : Prop :=
  family = afUnix ∨ family = afPacket ∨ (family = afNetlink ∧ (protocol = netlinkRoute ∨ protocol = netlinkGeneric)) ∨
    (family = afInet ∧ type &&& sockDgram ≠ 0#32 ∧ type &&& ~~~sockDgramFlags = 0#32)

instance (family type protocol : Word) : Decidable (SupplicantSocket family type protocol) := by
  unfold SupplicantSocket
  infer_instance

/-- What the proxy's rules ask of the arguments of a call by this number. -/
@[mk_iff]
structure ProxyArguments (call : SeccompData) (nr : ℤ) : Prop where
  socket : nr = sysSocket → call.arg 0 = afUnix
  ioctl : nr = sysIoctl → call.arg 1 = fionbio
  sendto : nr = sysSendto → call.arg 5 = 0#32
  fallocate : nr = sysFallocate → call.arg 1 = fallocFlPunchHole ||| fallocFlKeepSize
  mmap : nr = sysMmap → call.arg 2 &&& protExec = 0#32
  mprotect : nr = sysMprotect → call.arg 2 &&& protExec = 0#32

instance (call : SeccompData) (nr : ℤ) : Decidable (ProxyArguments call nr) :=
  decidable_of_iff' _ (proxyArguments_iff call nr)

variable {call : SeccompData} {acc : Word}

lemma load_argLo (i : Fin 6) : call.load (argLo i) = some (call.arg i) := by
  match i with
  | 0 | 1 | 2 | 3 | 4 | 5 => rfl

lemma evaluate_supplicant (h : ¬ (call.arch ≠ auditArchX8664 ∨ x32SyscallBit ≤ call.nr)) :
    evaluate supplicantProgram call = some (if call.number ≠ sysSocket ∨
      SupplicantSocket (call.arg 0) (call.arg 1) (call.arg 2) then retAllow else retErrno ||| eperm) := by
  have hsplit : supplicantProgram = prologue retKillProcess ++ supplicantProgram.drop 6 := rfl
  have hsocket : call.nr = BitVec.ofInt 32 sysSocket ↔ sysSocket = call.number := nr_eq_iff (by decide) (by decide)
  have h0 : call.load (argLo 0) = some (call.arg 0) := load_argLo 0
  have h1 : call.load (argLo 1) = some (call.arg 1) := load_argLo 1
  have h2 : call.load (argLo 2) = some (call.arg 2) := load_argLo 2
  rw [hsplit, evaluate_prologue, if_neg h]
  simp only [supplicantProgram, drop_succ_cons, drop_zero, exec_jeq]
  by_cases hnr : sysSocket = call.number
  · rw [if_pos (hsocket.mpr hnr), exec_skip, exec_ld h0, ← hnr]
    -- one case for each family named, as the jumps try them
    by_cases hunix : call.arg 0 = afUnix
    · simp [hunix, SupplicantSocket]
    by_cases hpacket : call.arg 0 = afPacket
    · simp [hpacket, SupplicantSocket, afUnix, afPacket]
    rw [exec_jeq, if_neg hunix, exec_jeq, if_neg hpacket, exec_jeq]
    by_cases hnetlink : call.arg 0 = afNetlink
    · rw [if_pos hnetlink, exec_skip, exec_ld h2, hnetlink]
      by_cases hroute : call.arg 2 = netlinkRoute
      · simp [hroute, SupplicantSocket]
      by_cases hgeneric : call.arg 2 = netlinkGeneric
      · simp [hgeneric, SupplicantSocket, netlinkRoute, netlinkGeneric]
      · simp [hroute, hgeneric, SupplicantSocket, afNetlink, afUnix, afPacket, afInet]
    rw [if_neg hnetlink, exec_jeq]
    by_cases hinet : call.arg 0 = afInet
    · rw [if_pos hinet, exec_skip, exec_skip, exec_skip, exec_ld h1, hinet]
      by_cases hflags : call.arg 1 &&& ~~~sockDgramFlags = 0#32
      · by_cases hdgram : call.arg 1 &&& sockDgram = 0#32
        · simp [hflags, hdgram, SupplicantSocket, afNetlink, afUnix, afPacket, afInet]
        · simp [hflags, hdgram, SupplicantSocket]
      · simp [hflags, SupplicantSocket, afNetlink, afUnix, afPacket, afInet]
    · simp [hunix, hpacket, hnetlink, hinet, SupplicantSocket]
  · rw [if_neg (hsocket.not.mpr hnr), exec_ret, if_pos (.inl (Ne.symm hnr))]

lemma onlyValue_decides (i : Fin 6) (value : Word) : Decides call.load acc (onlyValue i value)
    (some (if call.arg i = value then retAllow else retKillProcess)) := by
  intro rest
  simp only [onlyValue, cons_append, nil_append]
  rw [exec_ld (load_argLo i)]
  by_cases h : call.arg i = value <;> simp [h]

lemma noExec_decides : Decides call.load acc noExec
    (some (if call.arg 2 &&& protExec = 0#32 then retAllow else retKillProcess)) := by
  have h2 : call.load (argLo 2) = some (call.arg 2) := load_argLo 2
  intro rest
  simp only [noExec, cons_append, nil_append]
  rw [exec_ld h2]
  by_cases h : call.arg 2 &&& protExec = 0#32 <;> simp [h]

def proxyWord (call : SeccompData) (nr : ℤ) : Word :=
  if ProxyArguments call nr then retAllow else retKillProcess

variable (call) in
lemma proxyArguments_rules : (ProxyArguments call sysSocket ↔ call.arg 0 = afUnix) ∧
    (ProxyArguments call sysIoctl ↔ call.arg 1 = fionbio) ∧ (ProxyArguments call sysSendto ↔ call.arg 5 = 0#32) ∧
    (ProxyArguments call sysFallocate ↔ call.arg 1 = fallocFlPunchHole ||| fallocFlKeepSize) ∧
    (ProxyArguments call sysMmap ↔ call.arg 2 &&& protExec = 0#32) ∧
    (ProxyArguments call sysMprotect ↔ call.arg 2 &&& protExec = 0#32) := by
  simp [proxyArguments_iff, sysSocket, sysIoctl, sysSendto, sysFallocate, sysMmap, sysMprotect]

variable (call) in
lemma proxyRules_decide : ∀ rule ∈ proxyRules, 0 ≤ rule.1 ∧ rule.1 < 2 ^ 32 ∧ rule.2.length < 256 ∧
    Decides call.load call.nr rule.2 (some (proxyWord call rule.1)) := by
  intro rule hrule
  have hword {nr : ℤ} {c : Prop} [Decidable c] (h : ProxyArguments call nr ↔ c) :
      (if c then retAllow else retKillProcess) = proxyWord call nr := by
    simp only [proxyWord, h]
  simp only [proxyRules, mem_cons, not_mem_nil, or_false] at hrule
  obtain ⟨hsocket, hioctl, hsendto, hfallocate, hmmap, hmprotect⟩ := proxyArguments_rules call
  obtain rfl | rfl | rfl | rfl | rfl | rfl := hrule
  · exact ⟨by decide, by decide, by decide, hword hsocket ▸ onlyValue_decides 0 afUnix⟩
  · exact ⟨by decide, by decide, by decide, hword hioctl ▸ onlyValue_decides 1 fionbio⟩
  · exact ⟨by decide, by decide, by decide, hword hsendto ▸ onlyValue_decides 5 0#32⟩
  · exact ⟨by decide, by decide, by decide, hword hfallocate ▸ onlyValue_decides 1 _⟩
  · exact ⟨by decide, by decide, by decide, hword hmmap ▸ noExec_decides⟩
  · exact ⟨by decide, by decide, by decide, hword hmprotect ▸ noExec_decides⟩

lemma ruleBlocks_decide {rules : List (ℤ × List SockFilter)} {word : ℤ → Word}
    (h : ∀ rule ∈ rules, 0 ≤ rule.1 ∧ rule.1 < 2 ^ 32 ∧ rule.2.length < 256 ∧
      Decides call.load call.nr rule.2 (some (word rule.1))) :
    Decides call.load call.nr (rules.flatMap ruleBlock)
      (if call.number ∈ rules.map Prod.fst then some (word call.number) else none) := by
  induction rules with
  | nil => exact .nil
  | cons rule rules ih =>
    obtain ⟨h0, h1, hlen, hbody⟩ := h rule mem_cons_self
    have hrest := ih fun r hr => h r (mem_cons_of_mem _ hr)
    have hblock : Decides call.load call.nr (ruleBlock rule) _ :=
      .guard (Nat.mod_eq_of_lt hlen) fun _ => hbody
    simp only [nr_eq_iff h0 h1] at hblock
    have hboth := hblock.append hrest
    rw [flatMap_cons]
    by_cases hm : rule.1 = call.number
    · simpa [hm] using hboth
    · rw [if_neg hm] at hboth
      simpa only [map_cons, mem_cons, Ne.symm hm, false_or, Option.none_or] using hboth

lemma allowPairs_decide {l : List ℤ} (h : ∀ nr ∈ l, 0 ≤ nr ∧ nr < 2 ^ 32) :
    Decides call.load call.nr (l.flatMap allowPair) (if call.number ∈ l then some retAllow else none) := by
  induction l with
  | nil => exact .nil
  | cons nr l ih =>
    obtain ⟨h0, h1⟩ := h nr mem_cons_self
    have hrest := ih fun n hn => h n (mem_cons_of_mem _ hn)
    have hpair : Decides call.load call.nr (allowPair nr) _ := .pair
    simp only [nr_eq_iff h0 h1] at hpair
    have hboth := hpair.append hrest
    by_cases hm : nr = call.number
    · simpa [hm] using hboth
    · rw [if_neg hm] at hboth
      simpa [Ne.symm hm] using hboth

lemma proxyAllowlist_range : ∀ nr ∈ proxyAllowlist, 0 ≤ nr ∧ nr < 2 ^ 32 := by decide

lemma rules_allowed : ∀ rule ∈ proxyRules, rule.1 ∈ proxyAllowlist := by decide

variable (call) in
lemma proxyArguments_of_no_rule {nr : ℤ} (h : nr ∉ proxyRules.map Prod.fst) : ProxyArguments call nr := by
  simp only [proxyRules, map_cons, map_nil, mem_cons, not_mem_nil, or_false, not_or] at h
  obtain ⟨hsocket, hioctl, hsendto, hfallocate, hmmap, hmprotect⟩ := h
  exact ⟨(absurd · hsocket), (absurd · hioctl), (absurd · hsendto), (absurd · hfallocate), (absurd · hmmap),
    (absurd · hmprotect)⟩

lemma mem_proxyPlain {nr : ℤ} : nr ∈ proxyPlain ↔ nr ∈ proxyAllowlist ∧ nr ∉ proxyRules.map Prod.fst := by
  simp only [proxyPlain, mem_filter, Bool.not_eq_true', any_eq_false, mem_map, beq_iff_eq, not_exists, not_and]

lemma evaluate_proxy (h : ¬ (call.arch ≠ auditArchX8664 ∨ x32SyscallBit ≤ call.nr)) :
    evaluate proxyProgram call = some (if call.number ∈ proxyAllowlist ∧ ProxyArguments call call.number
      then retAllow else retKillProcess) := by
  have hrules := ruleBlocks_decide (proxyRules_decide call)
  have hplain : Decides call.load call.nr (proxyPlain.flatMap allowPair) _ :=
    allowPairs_decide fun nr hnr => proxyAllowlist_range nr (mem_proxyPlain.mp hnr).1
  have hprog := (hrules.append (hplain.append (.ret (k := retKillProcess)))) []
  rw [append_nil] at hprog
  rw [proxyProgram, evaluate_prologue, if_neg h, hprog]
  by_cases hrule : call.number ∈ proxyRules.map Prod.fst
  · obtain ⟨rule, hmem, hnr⟩ := mem_map.mp hrule
    have hin := hnr ▸ rules_allowed rule hmem
    rw [if_pos hrule]
    simp [proxyWord, hin]
  · have hargs := proxyArguments_of_no_rule call hrule
    rw [if_neg hrule]
    by_cases hin : call.number ∈ proxyAllowlist
    · simp [mem_proxyPlain, hin, hrule, hargs]
    · simp [mem_proxyPlain, hin]

/-- The supplicant's and the proxy's programs, for every call. -/
theorem fixed_filters_decide (call : SeccompData) :
    evaluate supplicantProgram call = some (if call.arch ≠ auditArchX8664 ∨ x32SyscallBit ≤ call.nr
      then retKillProcess
      else if call.number ≠ sysSocket ∨ SupplicantSocket (call.arg 0) (call.arg 1) (call.arg 2)
        then retAllow else retErrno ||| eperm) ∧
    evaluate proxyProgram call = some (if call.arch = auditArchX8664 ∧ call.nr < x32SyscallBit ∧
      call.number ∈ proxyAllowlist ∧ ProxyArguments call call.number then retAllow else retKillProcess) := by
  by_cases hforeign : call.arch ≠ auditArchX8664 ∨ x32SyscallBit ≤ call.nr
  · have hsplit : supplicantProgram = prologue retKillProcess ++ supplicantProgram.drop 6 := rfl
    have hnot : ¬ (call.arch = auditArchX8664 ∧ call.nr < x32SyscallBit ∧
        call.number ∈ proxyAllowlist ∧ ProxyArguments call call.number) := by
      intro ⟨harch, hnr, _⟩
      exact hforeign.elim (· harch) (BitVec.not_le.mpr hnr)
    rw [if_neg hnot, hsplit, proxyProgram]
    simp [evaluate_prologue, if_pos hforeign]
  · have hnative : call.arch = auditArchX8664 ∧ call.nr < x32SyscallBit := by
      rw [not_or, not_not] at hforeign
      exact ⟨hforeign.1, BitVec.not_le.mp hforeign.2⟩
    rw [if_neg hforeign, evaluate_supplicant hforeign, evaluate_proxy hforeign]
    simp [hnative]

end Kryptik.Kryptikd.Seccomp
