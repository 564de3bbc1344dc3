import Kryptik.Kryptikd.Seccomp
import Kryptik.Lib.Fallible

namespace Kryptik.Kryptikd.Seccomp

open Lib Bpf Fallible List SocketPolicy

variable {rule : ArgRule}

inductive Verdict
  | allow
  | deny
  | soft (e : Word)
  | errno (e : Word)
  deriving DecidableEq

def Verdict.action (denyAction : Word) : Verdict → Word
  | .allow => retAllow
  | .deny => denyAction
  | .soft e => softRefusal e denyAction
  | .errno e => errnoAction e

def SocketPolicy.Allows (sockets : SocketPolicy) (family protocol : Word) : Prop :=
  family = afUnix ∨ family = afInet ∨ family = afInet6 ∨ family ∈ sockets.families ∨
    family = afNetlink ∧ (sockets.netlinkAll = true ∨ protocol = netlinkRoute ∨ protocol ∈ sockets.netlinkProtocols)

instance (sockets : SocketPolicy) (family protocol : Word) : Decidable (sockets.Allows family protocol) :=
  inferInstanceAs (Decidable (_ ∨ _))

def NicIoctl (request : Word) : Prop :=
  request = siocethtool ∨ request = siocsmiireg ∨ siocdevprivate ≤ request ∧ request ≤ siocdevprivate + 15

instance (request : Word) : Decidable (NicIoctl request) := inferInstanceAs (Decidable (_ ∨ _))

def ArgRule.verdict (sockets : SocketPolicy) (call : SeccompData) : ArgRule → Verdict
  | .cloneNoNamespaces => if call.arg 0 &&& cloneNsMask = 0 then .allow else .soft eperm
  | .clone3Enosys => .errno enosys
  | .ioctlRefused =>
    if call.arg 1 = tiocsti ∨ call.arg 1 = tioclinux then .deny
    else if NicIoctl (call.arg 1) then .soft eperm
    else .allow
  | .socketFamilies =>
    if sockets.Allows (call.arg 0) (call.arg 2) then .allow else .errno eafnosupport
  | .socketpairUnix => if call.arg 0 = afUnix then .allow else .errno eafnosupport

def SeccompData.number (call : SeccompData) : ℤ := call.nr.toNat

def argVerdict (allow : List ℤ) (sockets : SocketPolicy) (call : SeccompData) : Option Verdict :=
  (argRules.find? (fun rule => rule.nr == call.number && allow.contains rule.nr)).map
    (fun rule => rule.verdict sockets call)

def softVerdict (allow : List ℤ) (call : SeccompData) : Option Verdict :=
  (refusedSoftly.find? (fun e => e.1 == call.number && !allow.contains e.1)).map
    (fun e => .soft e.2)

/-- The decision of the zone's filter, the first match first. -/
def verdict (allow : List ℤ) (sockets : SocketPolicy) (call : SeccompData) : Verdict :=
  if call.arch ≠ auditArchX8664 ∨ x32SyscallBit ≤ call.nr then .deny
  else (argVerdict allow sockets call).getD ((softVerdict allow call).getD
    (if call.number ∈ allow then .allow else .deny))

section Socket

variable {load : Word → Option Word} {acc ra rd : Word} {idx allowIdx denyIdx : ℕ}
  {fs : List Word} {js mid rest netlink body : List SockFilter} {sockets : SocketPolicy} {call : SeccompData} {a : ℕ}

lemma off_ok {start target d : ℕ} (h : off start target = .ok d) : d = target - (start + 1) := by
  unfold off at h
  simp only at h
  split at h
  · exact (Except.ok.inj h).symm
  · cases h

lemma off_le {start target d : ℕ} (h : off start target = .ok d) : target - (start + 1) ≤ 255 := by
  unfold off at h
  simp only at h
  split at h
  · assumption
  · cases h

lemma comparisons_le {f : Word} (h : comparisons allowIdx denyIdx idx (f :: fs) = .ok js) :
    allowIdx - (idx + 1) ≤ 255 := by
  obtain ⟨_, _, h⟩ := bind_ok.mp h
  obtain ⟨_, hjt, _⟩ := bind_ok.mp h
  exact off_le hjt

lemma comparisons_cons {f : Word} (h : comparisons allowIdx denyIdx idx (f :: fs) = .ok js) :
    ∃ js', comparisons allowIdx denyIdx (idx + 1) fs = .ok js' ∧ js = jump jmpJeqK f (allowIdx - (idx + 1))
        (if idx + 1 = allowIdx then denyIdx - (idx + 1) else 0) :: js' := by
  obtain ⟨jf, hjf, h⟩ := bind_ok.mp h
  obtain ⟨jt, hjt, h⟩ := bind_ok.mp h
  obtain ⟨js', hjs, h⟩ := bind_ok.mp h
  refine ⟨js', hjs, ?_⟩
  rw [← pure_ok.mp h, off_ok hjt]
  split at hjf
  · rw [if_pos ‹_›, off_ok hjf]
  · rw [if_neg ‹_›, pure_ok.mp hjf]

lemma length_comparisons (h : comparisons allowIdx denyIdx idx fs = .ok js) : js.length = fs.length := by
  induction fs generalizing idx js with
  | nil => rw [← Except.ok.inj h]; rfl
  | cons f fs ih =>
    obtain ⟨js', h', rfl⟩ := comparisons_cons h
    rw [length_cons, length_cons, ih h']

/-- A row of comparisons before the two returns, with other instructions between:
a match returns the first, and with nothing between a miss returns the second. -/
lemma exec_comparisons (h : comparisons allowIdx (allowIdx + 1) idx fs = .ok js)
    (hidx : idx + fs.length + mid.length = allowIdx) :
    exec load (js ++ (mid ++ (stmt retK ra :: stmt retK rd :: rest))) 0 acc =
      if acc ∈ fs then some ra
      else if mid = [] ∧ fs ≠ [] then some rd
      else exec load (mid ++ (stmt retK ra :: stmt retK rd :: rest)) 0 acc := by
  induction fs generalizing idx js with
  | nil =>
    cases h
    simp
  | cons f fs ih =>
    obtain ⟨js', h', rfl⟩ := comparisons_cons h
    have hlen := length_comparisons h'
    rw [length_cons] at hidx
    rw [cons_append, exec_jeq]
    by_cases hf : acc = f
    · have hjt : allowIdx - (idx + 1) = (js' ++ mid).length := by
        rw [length_append]
        omega
      rw [if_pos hf, if_pos (by simp [hf]), ← append_assoc, hjt, exec_past rfl, exec_ret]
    · rw [if_neg hf]
      by_cases hlast : idx + 1 = allowIdx
      · obtain rfl : fs = [] := length_eq_zero_iff.mp (by omega)
        obtain rfl : mid = [] := length_eq_zero_iff.mp (by omega)
        obtain rfl : js' = [] := length_eq_zero_iff.mp (by simpa using hlen)
        rw [if_pos hlast, if_neg (by simpa using hf), if_pos (by simp),
          show allowIdx + 1 - (idx + 1) = 1 by omega]
        rfl
      · rw [if_neg hlast, ih h' (by omega)]
        have hmore : (mid = [] ∧ fs ≠ []) ↔ (mid = [] ∧ f :: fs ≠ []) := by
          refine and_congr_right fun hmid => ⟨fun _ => cons_ne_nil f fs, fun _ hfs => hlast ?_⟩
          subst hmid hfs
          simpa using hidx
        simp [hf, hmore]

lemma exec_netlinkBlock {protos : List Word} {w : Word} (h : netlinkBlock allowIdx (allowIdx + 1) idx protos = .ok js)
    (hidx : idx + 2 + protos.length = allowIdx) (hp : protos ≠ []) (hl : load (argLo 2) = some w) :
    exec load (js ++ (stmt retK ra :: stmt retK rd :: rest)) 0 acc =
      some (if acc = afNetlink ∧ w ∈ protos then ra else rd) := by
  obtain ⟨jf, hjf, h⟩ := bind_ok.mp h
  obtain ⟨js', hjs, h⟩ := bind_ok.mp h
  have hlen := length_comparisons hjs
  rw [← pure_ok.mp h, cons_append, cons_append, exec_jeq, off_ok hjf]
  by_cases hacc : acc = afNetlink
  · have hrow : exec load (js' ++ ([] ++ (stmt retK ra :: stmt retK rd :: rest))) 0 w = _ :=
      exec_comparisons hjs hidx
    rw [nil_append] at hrow
    rw [if_pos hacc, exec_ld hl, hrow]
    by_cases hw : w ∈ protos
    · rw [if_pos hw, if_pos ⟨hacc, hw⟩]
    · rw [if_neg hw, if_pos ⟨rfl, hp⟩, if_neg fun hc => hw hc.2]
  · have hjump : allowIdx + 1 - (idx + 1) = (js' ++ [stmt retK ra]).length + 1 := by
      rw [length_append, length_singleton]
      omega
    have hsplit : js' ++ stmt retK ra :: stmt retK rd :: rest =
        (js' ++ [stmt retK ra]) ++ stmt retK rd :: rest := by simp
    rw [if_neg hacc, hjump, exec_skip, hsplit, exec_past rfl, exec_ret, if_neg fun hc => hacc hc.1]

lemma length_netlinkBlock {protos : List Word} (h : netlinkBlock allowIdx denyIdx idx protos = .ok js) :
    js.length = 2 + protos.length := by
  obtain ⟨_, _, h⟩ := bind_ok.mp h
  obtain ⟨js', hjs, h⟩ := bind_ok.mp h
  rw [← pure_ok.mp h, length_cons, length_cons, length_comparisons hjs]
  omega

def SocketPolicy.Opens (sockets : SocketPolicy) (family protocol : Word) : Prop :=
  family ∈ sockets.fams ∨ sockets.netlinkAll = false ∧ family = afNetlink ∧ protocol ∈ sockets.protos

instance (sockets : SocketPolicy) (family protocol : Word) : Decidable (sockets.Opens family protocol) :=
  inferInstanceAs (Decidable (_ ∨ _))

lemma mem_foldl_push {α : Type} [BEq α] [LawfulBEq α] {p : α → Bool} {l m : List α} {x : α} :
    x ∈ l.foldl (fun acc f => if !acc.contains f && p f then acc ++ [f] else acc) m ↔ x ∈ m ∨ x ∈ l ∧ p x = true := by
  induction l generalizing m with
  | nil => simp
  | cons f l ih =>
    rw [foldl_cons, ih]
    by_cases hf : (!m.contains f && p f) = true
    · have hp : p f = true := (Bool.and_eq_true _ _ ▸ hf).2
      rw [if_pos hf, mem_append, mem_singleton, mem_cons, or_assoc]
      refine or_congr_right ⟨?_, ?_⟩
      · rintro (rfl | h)
        · exact ⟨.inl rfl, hp⟩
        · exact ⟨.inr h.1, h.2⟩
      · rintro ⟨rfl | h, hx⟩
        · exact .inl rfl
        · exact .inr ⟨h, hx⟩
    · rw [if_neg hf, mem_cons]
      refine ⟨fun h => h.imp_right fun h => ⟨.inr h.1, h.2⟩, ?_⟩
      rintro (h | ⟨rfl | h, hx⟩)
      · exact .inl h
      · refine .inl ?_
        simpa [hx] using hf
      · exact .inr ⟨h, hx⟩

lemma SocketPolicy.mem_fams {f : Word} : f ∈ sockets.fams ↔
    f ∈ [afUnix, afInet, afInet6] ∨ (f ∈ sockets.families ∧ f ≠ afNetlink) ∨
      sockets.netlinkAll = true ∧ f = afNetlink := by
  have hgrown := mem_foldl_push (p := fun f => f != afNetlink) (l := sockets.families)
    (m := [afUnix, afInet, afInet6]) (x := f)
  unfold fams
  by_cases hall : sockets.netlinkAll = true
  · rw [if_pos hall, mem_append, hgrown]
    simp [hall, or_assoc]
  · rw [if_neg hall, hgrown]
    simp [hall]

lemma SocketPolicy.mem_protos {pr : Word} :
    pr ∈ sockets.protos ↔ pr = netlinkRoute ∨ pr ∈ sockets.netlinkProtocols := by
  have hgrown := mem_foldl_push (p := fun _ => true) (l := sockets.netlinkProtocols) (m := [netlinkRoute]) (x := pr)
  simpa [protos] using hgrown

def SocketPolicy.netlinkPart (sockets : SocketPolicy) (a idx : ℕ) : Except Stop (List SockFilter) :=
  if sockets.netlinkAll then pure [] else netlinkBlock a (a + 1) idx sockets.protos

def SocketPolicy.netlinkLen (sockets : SocketPolicy) : ℕ :=
  if sockets.netlinkAll then 0 else 2 + sockets.protos.length

lemma length_netlinkPart (hn : sockets.netlinkPart a idx = .ok netlink) : netlink.length = sockets.netlinkLen := by
  unfold netlinkPart at hn
  unfold netlinkLen
  split at hn
  · rw [if_pos ‹_›, ← pure_ok.mp hn]
    rfl
  · rw [if_neg ‹_›, length_netlinkBlock hn]

lemma exec_families (ha : a = idx + fs.length + sockets.netlinkLen)
    (hf : comparisons a (a + 1) idx fs = .ok js) (hfs : fs ≠ [])
    (hn : sockets.netlinkPart a (idx + fs.length) = .ok netlink) :
    exec call.load (js ++ (netlink ++ (stmt retK ra :: stmt retK rd :: rest))) 0 acc =
      some (if acc ∈ fs ∨ sockets.netlinkAll = false ∧ acc = afNetlink ∧ call.arg 2 ∈ sockets.protos
        then ra else rd) := by
  have hlen : idx + fs.length + netlink.length = a := by rw [ha, length_netlinkPart hn]
  rw [exec_comparisons hf hlen]
  by_cases hin : acc ∈ fs
  · rw [if_pos hin, if_pos (.inl hin)]
  unfold netlinkPart at hn
  by_cases hall : sockets.netlinkAll = true
  · rw [if_pos hall] at hn
    rw [if_neg hin, if_pos ⟨(pure_ok.mp hn).symm, hfs⟩]
    simp [hin, hall]
  · rw [if_neg hall] at hn
    have hnot := Bool.eq_false_iff.mpr hall
    have hprotos : sockets.protos ≠ [] := ne_nil_of_mem (mem_protos.mpr (.inl rfl))
    have hload : call.load (argLo 2) = some (call.arg 2) := rfl
    have hnl := length_netlinkBlock hn
    have hne : netlink ≠ [] := ne_nil_of_length_pos (by omega)
    rw [if_neg hin, if_neg fun hc => hne hc.1, exec_netlinkBlock hn (by omega) hprotos hload]
    simp [hin, hnot]

lemma three_le_fams (sockets : SocketPolicy) : 3 ≤ sockets.fams.length := by
  have h : 3 ≤ (sockets.families.foldl (fun fams f => if !fams.contains f && f != afNetlink then fams ++ [f] else fams)
      [afUnix, afInet, afInet6]).length := by
    refine foldlRecOn (motive := fun fams : List Word => 3 ≤ fams.length) _ _ (Nat.le_refl 3) fun fams hf f _ => ?_
    split
    · exact Nat.le_trans hf (by simp)
    · exact hf
  unfold fams
  split
  · exact Nat.le_trans h (by simp)
  · exact h

lemma socketBody_parts (h : socketBody sockets = .ok body) : ∃ families netlink a,
      a = 1 + sockets.fams.length + sockets.netlinkLen ∧ comparisons a (a + 1) 1 sockets.fams = .ok families ∧
      sockets.netlinkPart a (1 + sockets.fams.length) = .ok netlink ∧
      body = stmt ldWAbs (argLo 0) :: (families ++ (netlink ++
        [stmt retK retAllow, stmt retK (errnoAction eafnosupport)])) := by
  obtain ⟨families, hf, h⟩ := bind_ok.mp h
  obtain ⟨netlink, hn, h⟩ := bind_ok.mp h
  exact ⟨families, netlink, _, rfl, hf, hn, (pure_ok.mp h).symm⟩

lemma length_socketBody (h : socketBody sockets = .ok body) :
    body.length = 3 + sockets.fams.length + sockets.netlinkLen := by
  obtain ⟨families, netlink, a, ha, hf, hn, rfl⟩ := socketBody_parts h
  simp only [length_cons, length_append, length_nil, length_comparisons hf, length_netlinkPart hn]
  omega

lemma socketBody_length (h : socketBody sockets = .ok body) : body.length ≤ 259 := by
  obtain ⟨families, netlink, a, ha, hf, -, -⟩ := socketBody_parts h
  have hle : a - 2 ≤ 255 := by
    cases hcons : sockets.fams with
    | nil =>
      have hfams := three_le_fams sockets
      simp [hcons] at hfams
    | cons f fs =>
      rw [hcons] at hf
      exact comparisons_le hf
  have hlen := length_socketBody h
  omega

lemma socketBody_decides (h : socketBody sockets = .ok body) : Decides call.load acc body
      (some (if sockets.Opens (call.arg 0) (call.arg 2) then retAllow else errnoAction eafnosupport)) := by
  obtain ⟨families, netlink, a, ha, hf, hn, rfl⟩ := socketBody_parts h
  refine Decides.ld (w := call.arg 0) rfl fun rest => ?_
  have hne : sockets.fams ≠ [] := ne_nil_of_length_pos (by have := three_le_fams sockets; omega)
  rw [append_assoc, append_assoc]
  exact exec_families ha hf hne hn

lemma comparisons_drop {j : ℕ} (hj : j ≤ fs.length) (h : comparisons allowIdx denyIdx idx fs = .ok js) :
    comparisons allowIdx denyIdx (idx + j) (fs.drop j) = .ok (js.drop j) := by
  induction j generalizing idx fs js with
  | zero => exact h
  | succ j ih =>
    cases fs with
    | nil => simp at hj
    | cons f fs =>
      obtain ⟨js', h', rfl⟩ := comparisons_cons h
      have := ih (by simpa using hj) h'
      rwa [Nat.add_assoc, Nat.add_comm 1 j] at this

lemma socketBody_entered {j : ℕ} (call : SeccompData) (h : socketBody sockets = .ok body) (hj : j ≤ 3) (acc : Word) :
    ∃ r, (r = retAllow ∨ r = errnoAction eafnosupport) ∧ ∀ rest, exec call.load (body ++ rest) j acc = some r := by
  cases j with
  | zero =>
    refine ⟨_, ?_, (socketBody_decides h : Decides call.load acc body _)⟩
    split
    · exact .inl rfl
    · exact .inr rfl
  | succ j =>
    obtain ⟨families, netlink, a, ha, hf, hn, rfl⟩ := socketBody_parts h
    have hfams := three_le_fams sockets
    have hlen := length_comparisons hf
    have hf' := comparisons_drop (j := j) (by omega) hf
    have hdrop : (sockets.fams.drop j).length = sockets.fams.length - j := length_drop
    have hsum : 1 + j + (sockets.fams.drop j).length = 1 + sockets.fams.length := by omega
    have hne : sockets.fams.drop j ≠ [] := ne_nil_of_length_pos (by omega)
    refine ⟨if acc ∈ sockets.fams.drop j ∨ sockets.netlinkAll = false ∧ acc = afNetlink ∧
      call.arg 2 ∈ sockets.protos then retAllow else errnoAction eafnosupport, ?_, fun rest => ?_⟩
    · split
      · exact .inl rfl
      · exact .inr rfl
    · rw [cons_append, exec_skip, exec_drop, append_assoc, append_assoc, drop_append_of_le_length (by omega)]
      rw [← hsum] at ha hn
      exact exec_families ha hf' hne hn

end Socket

variable {allow : List ℤ} {sockets : SocketPolicy} {call : SeccompData} {denyAction : Word}
  {block body : List SockFilter}

lemma nr_eq_iff {nr : ℤ} (h0 : 0 ≤ nr) (h1 : nr < 2 ^ 32) : call.nr = BitVec.ofInt 32 nr ↔ nr = call.number := by
  unfold SeccompData.number
  rw [← BitVec.toNat_inj, BitVec.toNat_ofInt]
  omega

lemma ArgRule.nr_eq_iff (rule : ArgRule) : call.nr = BitVec.ofInt 32 rule.nr ↔ rule.nr = call.number :=
  Seccomp.nr_eq_iff (by cases rule <;> decide) (by cases rule <;> decide)

lemma body_decides {acc : Word} (hrule : rule ≠ .socketFamilies) (h : rule.body denyAction sockets = .ok body) :
    body.length ≤ 10 ∧ Decides call.load acc body (some ((rule.verdict sockets call).action denyAction)) := by
  cases rule with
  | cloneNoNamespaces =>
    cases h
    refine ⟨by simp, .ld (w := call.arg 0) rfl fun rest => ?_⟩
    simp only [cons_append, exec_jset, ArgRule.verdict]
    split <;> rfl
  | clone3Enosys =>
    cases h
    exact ⟨by simp, .ret⟩
  | ioctlRefused =>
    cases h
    refine ⟨by simp, .ld (w := call.arg 1) rfl fun rest => ?_⟩
    rw [cons_append, exec_jeq, ArgRule.verdict]
    by_cases h1 : call.arg 1 = tiocsti
    · rw [if_pos h1, if_pos (.inl h1)]
      rfl
    rw [if_neg h1, cons_append, exec_jeq]
    by_cases h2 : call.arg 1 = tioclinux
    · rw [if_pos h2, if_pos (.inr h2)]
      rfl
    rw [if_neg h2, if_neg (not_or.mpr ⟨h1, h2⟩), cons_append, exec_jeq]
    by_cases h3 : call.arg 1 = siocethtool
    · have hnic : NicIoctl (call.arg 1) := .inl h3
      rw [if_pos h3, if_pos hnic]
      rfl
    rw [if_neg h3, cons_append, exec_jeq]
    by_cases h4 : call.arg 1 = siocsmiireg
    · have hnic : NicIoctl (call.arg 1) := .inr (.inl h4)
      rw [if_pos h4, if_pos hnic]
      rfl
    -- The private range is left to two comparisons, from below and from above.
    have hrange : NicIoctl (call.arg 1) ↔ siocdevprivate ≤ call.arg 1 ∧ call.arg 1 ≤ siocdevprivate + 15 := by
      simp [NicIoctl, h3, h4]
    rw [if_neg h4, cons_append, exec_jge]
    by_cases h5 : siocdevprivate ≤ call.arg 1
    · rw [if_pos h5, cons_append, exec_jgt]
      by_cases h6 : siocdevprivate + 15 < call.arg 1
      · rw [if_pos h6, if_neg fun hc => absurd (hrange.mp hc).2 (BitVec.not_le.mpr h6)]
        rfl
      · rw [if_neg h6, if_pos (hrange.mpr ⟨h5, BitVec.not_lt.mp h6⟩)]
        rfl
    · rw [if_neg h5, if_neg fun hc => h5 (hrange.mp hc).1]
      rfl
  | socketFamilies => exact absurd rfl hrule
  | socketpairUnix =>
    cases h
    refine ⟨by simp, .ld (w := call.arg 0) rfl fun rest => ?_⟩
    simp only [cons_append, exec_jeq, ArgRule.verdict]
    split <;> rfl

/-- A socket policy whose rule fits the one-byte jump past it, and that leaves
netlink to its own switch. -/
structure SocketPolicy.Plain (sockets : SocketPolicy) : Prop where
  netlink : afNetlink ∉ sockets.families
  short : ∀ body, socketBody sockets = .ok body → body.length ≤ 255

lemma SocketPolicy.opens_iff (h : afNetlink ∉ sockets.families) (family protocol : Word) :
    sockets.Opens family protocol ↔ sockets.Allows family protocol := by
  unfold SocketPolicy.Opens SocketPolicy.Allows
  rw [mem_fams, mem_protos]
  have hne : family ∈ sockets.families → family ≠ afNetlink := by
    rintro hf rfl
    exact h hf
  cases sockets.netlinkAll <;> simp <;> tauto

/-- The verdict reached is the one asked for, but in a loose case it may be what the
socket rule gives. -/
def Near (loose : Prop) (o want : Option Verdict) : Prop :=
  o = want ∨ loose ∧ (o = some .allow ∨ o = some (.errno eafnosupport))

lemma Near.imp {loose loose' : Prop} {o want : Option Verdict} (h : Near loose o want)
    (hl : loose → loose') : Near loose' o want := h.imp_right fun h => ⟨hl h.1, h.2⟩

lemma Near.or {loose : Prop} {o o' want want' : Option Verdict} (h : Near loose o want)
    (h' : Near loose o' want') : Near loose (o.or o') (want.or want') := by
  obtain rfl | ⟨hp, rfl | rfl⟩ := h
  · cases o with
    | some v => exact .inl rfl
    | none => exact h'
  · exact .inr ⟨hp, .inl rfl⟩
  · exact .inr ⟨hp, .inr rfl⟩

def Early (allow : List ℤ) (call : SeccompData) (rules : List ArgRule) : Prop :=
  ∃ rule ∈ rules.takeWhile (fun rule => rule ≠ .socketFamilies), rule.nr = call.number ∧ rule.nr ∈ allow

lemma Early.of_cons {allow : List ℤ} {call : SeccompData} {rules : List ArgRule}
    (h : Early allow call (rule :: rules)) :
    (rule.nr = call.number ∧ rule.nr ∈ allow) ∨ Early allow call rules := by
  obtain ⟨r, hr, hm⟩ := h
  by_cases hs : rule = .socketFamilies
  · simp [hs] at hr
  · rw [takeWhile_cons_of_pos (by simpa using hs)] at hr
    obtain rfl | hr := mem_cons.mp hr
    · exact .inl hm
    · exact .inr ⟨r, hr, hm⟩

/-- What a block makes of a call is the same verdict under every deny action. -/
def Reaches (call : SeccompData) (emit : Word → Except Stop (List SockFilter)) (o : Option Verdict) : Prop :=
  ∀ denyAction block, emit denyAction = .ok block → Decides call.load call.nr block (o.map (Verdict.action denyAction))

lemma reaches_socket (sockets : SocketPolicy) (call : SeccompData) :
    ∃ o, Reaches call (fun deny => emitArgRule .socketFamilies deny sockets) o ∧
      Near (¬ sockets.Plain) o (if sysSocket = call.number then
        some (ArgRule.socketFamilies.verdict sockets call) else none) := by
  have hnr : call.nr = BitVec.ofInt 32 sysSocket ↔ sysSocket = call.number :=
    ArgRule.nr_eq_iff .socketFamilies
  cases hbody : socketBody sockets with
  | error e =>
    refine ⟨_, fun deny block h => ?_, .inl rfl⟩
    obtain ⟨body, hb, _⟩ := bind_ok.mp h
    cases hbody.symm.trans hb
  | ok body =>
    have hblock (deny : Word) (block : List SockFilter) (h : emitArgRule .socketFamilies deny sockets = .ok block) :
        block = jump jmpJeqK (BitVec.ofInt 32 sysSocket) 0 (body.length % 256) :: body := by
      obtain ⟨body', hb, h⟩ := bind_ok.mp h
      cases hbody.symm.trans hb
      exact (pure_ok.mp h).symm
    by_cases hm : sysSocket = call.number
    · refine ⟨some (if sockets.Opens (call.arg 0) (call.arg 2) then .allow else .errno eafnosupport),
        fun deny block h => ?_, ?_⟩
      · rw [hblock deny block h]
        intro rest
        rw [cons_append, exec_jeq, if_pos (hnr.mpr hm), socketBody_decides hbody rest]
        split <;> rfl
      · rw [if_pos hm, ArgRule.verdict]
        by_cases hp : sockets.Plain
        · exact .inl (by simp only [opens_iff hp.netlink])
        · refine .inr ⟨hp, ?_⟩
          split
          · exact .inl rfl
          · exact .inr rfl
    · by_cases hlen : body.length ≤ 255
      · refine ⟨none, fun deny block h => ?_, .inl (by rw [if_neg hm])⟩
        rw [hblock deny block h]
        intro rest
        rw [cons_append, exec_jeq, if_neg fun hc => hm (hnr.mp hc), exec_past (by omega)]
        rfl
      · have hp : ¬ sockets.Plain := fun hp => hlen (hp.short body hbody)
        have hle := socketBody_length hbody
        obtain ⟨r, hr, hexec⟩ := socketBody_entered (j := body.length % 256) call hbody
          (by omega) call.nr
        refine ⟨some (if r = retAllow then .allow else .errno eafnosupport), fun deny block h => ?_, ?_⟩
        · rw [hblock deny block h]
          intro rest
          rw [cons_append, exec_jeq, if_neg fun hc => hm (hnr.mp hc), hexec]
          rcases hr with rfl | rfl <;> rfl
        · refine .inr ⟨hp, ?_⟩
          split
          · exact .inl rfl
          · exact .inr rfl

lemma reaches_rule (hrule : rule ≠ .socketFamilies) (sockets : SocketPolicy) (call : SeccompData) :
    Reaches call (fun deny => emitArgRule rule deny sockets)
      (if rule.nr = call.number then some (rule.verdict sockets call) else none) := by
  intro deny block h
  obtain ⟨body, hb, h⟩ := bind_ok.mp h
  obtain ⟨hlen, hdec⟩ : _ ∧ Decides call.load call.nr body _ := body_decides hrule hb
  rw [← pure_ok.mp h]
  have hguard : Decides call.load call.nr
      (jump jmpJeqK (BitVec.ofInt 32 rule.nr) 0 (body.length % 256) :: body) _ :=
    Decides.guard (by omega) fun _ => hdec
  simp only [ArgRule.nr_eq_iff] at hguard
  by_cases hm : rule.nr = call.number
  · rwa [if_pos hm] at hguard ⊢
  · rwa [if_neg hm] at hguard ⊢

def rulesVerdict (allow : List ℤ) (sockets : SocketPolicy) (call : SeccompData) (rules : List ArgRule) :
    Option Verdict :=
  (rules.find? (fun rule => rule.nr == call.number && allow.contains rule.nr)).map
    (fun rule => rule.verdict sockets call)

lemma rulesVerdict_cons (rules : List ArgRule) (sockets : SocketPolicy) (call : SeccompData)
    (hin : allow.contains rule.nr = true) :
    rulesVerdict allow sockets call (rule :: rules) =
      (if rule.nr = call.number then some (rule.verdict sockets call) else none).or
        (rulesVerdict allow sockets call rules) := by
  unfold rulesVerdict
  by_cases hm : rule.nr = call.number
  · rw [List.find?_cons_of_pos (by rw [hin, Bool.and_true]; exact beq_iff_eq.mpr hm), if_pos hm]
    rfl
  · rw [List.find?_cons_of_neg (by rw [beq_eq_false_iff_ne.mpr hm]; simp), if_neg hm]
    rfl

lemma reaches_rules (allow : List ℤ) (sockets : SocketPolicy) (call : SeccompData)
    (rules : List ArgRule) : ∃ o, Reaches call (fun deny => emitArgRules allow deny sockets rules) o ∧
      Near (¬ sockets.Plain ∧ ¬ Early allow call rules) o (rulesVerdict allow sockets call rules) := by
  induction rules with
  | nil =>
    refine ⟨none, fun deny block h => ?_, .inl rfl⟩
    cases h
    exact .nil
  | cons rule rules ih =>
    obtain ⟨o', hr', hnear'⟩ := ih
    by_cases hin : allow.contains rule.nr = true
    · have happend {o : Option Verdict} (hr : Reaches call (fun deny => emitArgRule rule deny sockets) o) :
          Reaches call (fun deny => emitArgRules allow deny sockets (rule :: rules)) (o.or o') := by
        intro deny block h
        obtain ⟨b, hb, h⟩ := bind_ok.mp h
        obtain ⟨b', hb', h⟩ := bind_ok.mp h
        rw [if_pos hin] at hb
        rw [← pure_ok.mp h, Option.map_or]
        exact (hr deny b hb).append (hr' deny b' hb')
      rw [rulesVerdict_cons rules sockets call hin]
      by_cases hs : rule = .socketFamilies
      · subst hs
        obtain ⟨o, hr, hnear⟩ := reaches_socket sockets call
        have hlate : ¬ Early allow call (.socketFamilies :: rules) := by simp [Early]
        exact ⟨o.or o', happend hr, (hnear.imp fun hp => ⟨hp, hlate⟩).or (hnear'.imp fun hp => ⟨hp.1, hlate⟩)⟩
      · refine ⟨_, happend (reaches_rule hs sockets call), ?_⟩
        by_cases hm : rule.nr = call.number
        · rw [if_pos hm]
          exact .inl rfl
        · rw [if_neg hm]
          exact hnear'.imp fun hp => ⟨hp.1, fun he => he.of_cons.elim (fun h => hm h.1) hp.2⟩
    · refine ⟨o', fun deny block h => ?_, ?_⟩
      · obtain ⟨b, hb, h⟩ := bind_ok.mp h
        obtain ⟨b', hb', h⟩ := bind_ok.mp h
        rw [if_neg hin] at hb
        rw [← pure_ok.mp h, ← pure_ok.mp hb]
        exact hr' deny b' hb'
      · rw [rulesVerdict, List.find?_cons, Bool.eq_false_iff.mpr hin, Bool.and_false]
        exact hnear'.imp fun hp => ⟨hp.1, fun he => he.of_cons.elim
          (fun h => hin (contains_iff_mem.mpr h.2)) hp.2⟩

def plainVerdict (l : List ℤ) (call : SeccompData) : Option Verdict :=
  if call.number ∈ l ∧ argRules.any (fun r => r.nr == call.number) = false then some .allow else none

lemma softPairs_decides {l : List (ℤ × Word)} (hl : ∀ e ∈ l, 0 ≤ e.1 ∧ e.1 < 2 ^ 32) :
    Decides call.load call.nr (softPairs allow denyAction l)
      (((l.find? (fun e => e.1 == call.number && !allow.contains e.1)).map
        (fun e => Verdict.soft e.2)).map (Verdict.action denyAction)) := by
  induction l with
  | nil => exact .nil
  | cons e l ih =>
    obtain ⟨nr, err⟩ := e
    have hrest := ih fun e he => hl e (mem_cons_of_mem _ he)
    obtain ⟨h0, h1⟩ := hl _ mem_cons_self
    rw [softPairs]
    by_cases hin : allow.contains nr = true
    · rw [if_pos hin, List.find?_cons_of_neg (by rw [hin, Bool.not_true, Bool.and_false]; simp)]
      exact hrest
    · rw [if_neg hin]
      have hpair : Decides call.load call.nr [jump jmpJeqK (BitVec.ofInt 32 nr) 0 1,
          stmt retK (softRefusal err denyAction)] _ := .pair
      simp only [nr_eq_iff h0 h1] at hpair
      have hboth := hpair.append hrest
      by_cases hm : nr = call.number
      · rw [if_pos hm] at hboth
        rw [List.find?_cons_of_pos (by rw [Bool.eq_false_iff.mpr hin, beq_iff_eq.mpr hm]; rfl)]
        exact hboth
      · rw [if_neg hm] at hboth
        rw [List.find?_cons_of_neg (by rw [beq_eq_false_iff_ne.mpr hm]; simp)]
        exact hboth

lemma plainPairs_decides {l : List ℤ} (h : plainPairs l = .ok block) :
    Decides call.load call.nr block (if call.number ∈ l ∧
      argRules.any (fun r => r.nr == call.number) = false then some retAllow else none) := by
  induction l generalizing block with
  | nil =>
    cases h
    simpa using Decides.nil
  | cons nr l ih =>
    rw [plainPairs] at h
    split at h
    · cases h
    · split at h
      · rename_i hany
        have hrest := ih h
        by_cases hm : nr = call.number
        · rw [hm] at hany
          rw [if_neg (by simp [hany])] at hrest ⊢
          exact hrest
        · simpa [mem_cons, Ne.symm hm] using hrest
      · rename_i hany
        obtain ⟨b, hb, h⟩ := bind_ok.mp h
        rw [← pure_ok.mp h]
        have hpair : Decides call.load call.nr [jump jmpJeqK (BitVec.ofInt 32 nr) 0 1, stmt retK retAllow] _ := .pair
        simp only [nr_eq_iff (show 0 ≤ nr by omega) (show nr < 2 ^ 32 by omega)] at hpair
        have hboth := hpair.append (ih hb)
        by_cases hm : nr = call.number
        · rw [if_pos hm] at hboth
          rw [if_pos ⟨by simp [hm], by rw [← hm]; exact Bool.eq_false_iff.mpr hany⟩]
          exact hboth
        · rw [if_neg hm] at hboth
          simpa [mem_cons, Ne.symm hm] using hboth

lemma evaluate_prologue (rest : List SockFilter) : evaluate (prologue denyAction ++ rest) call =
    if call.arch ≠ auditArchX8664 ∨ x32SyscallBit ≤ call.nr then some denyAction
    else exec call.load rest 0 call.nr := by
  unfold evaluate prologue
  have harch : call.load offArch = some call.arch := rfl
  have hnr : call.load offNr = some call.nr := rfl
  simp only [cons_append, nil_append]
  rw [exec_ld harch, exec_jeq]
  by_cases ha : call.arch = auditArchX8664
  · rw [if_pos ha, exec_skip, exec_ld hnr, exec_jge]
    by_cases hx : x32SyscallBit ≤ call.nr
    · rw [if_pos hx, if_pos (.inr hx), exec_ret]
    · rw [if_neg hx, if_neg (not_or.mpr ⟨not_not.mpr ha, hx⟩), exec_skip]
  · rw [if_neg ha, if_pos (.inl ha), exec_ret]

lemma refusedSoftly_range : ∀ e ∈ refusedSoftly, 0 ≤ e.1 ∧ e.1 < 2 ^ 32 := by decide

lemma verdict_eq (h : ¬ (call.arch ≠ auditArchX8664 ∨ x32SyscallBit ≤ call.nr)) :
    verdict allow sockets call = ((argVerdict allow sockets call).or ((softVerdict allow call).or
      (plainVerdict allow call))).getD .deny := by
  rw [verdict, if_neg h]
  cases ha : argVerdict allow sockets call with
  | some v => rfl
  | none =>
    cases softVerdict allow call with
    | some v => rfl
    | none =>
      have hany (hin : call.number ∈ allow) : argRules.any (fun r => r.nr == call.number) = false := by
        rw [argVerdict, Option.map_eq_none_iff, List.find?_eq_none] at ha
        refine any_eq_false.mpr fun rule hrule hc => ha rule hrule ?_
        rw [beq_iff_eq.mp hc] at *
        simpa using hin
      by_cases hin : call.number ∈ allow
      · simp [plainVerdict, hin, hany hin]
      · simp [plainVerdict, hin]

lemma buildProgramFull_ok {p : List SockFilter} (h : buildProgramFull allow denyAction sockets = .ok p) :
    ∃ rules plain, emitArgRules allow denyAction sockets argRules = .ok rules ∧
      plainPairs allow = .ok plain ∧ p = prologue denyAction ++ (rules ++
        (softPairs allow denyAction refusedSoftly ++ (plain ++ [stmt retK denyAction]))) := by
  obtain ⟨rules, hrules, h⟩ := bind_ok.mp h
  obtain ⟨plain, hplain, h⟩ := bind_ok.mp h
  dsimp only at h
  split at h
  · cases h
  · exact ⟨rules, plain, hrules, hplain, (pure_ok.mp h).symm⟩

/-- A built program runs to the same verdict under every deny action: that of the
specification, or one of the socket rule's where the socket policy is not plain and
no earlier rule takes the call. -/
lemma evaluate_verdict (allow : List ℤ) (sockets : SocketPolicy) (call : SeccompData) :
    ∃ v, (∀ denyAction p, buildProgramFull allow denyAction sockets = .ok p →
        evaluate p call = some (v.action denyAction)) ∧
      (v = verdict allow sockets call ∨ (¬ sockets.Plain ∧ ¬ Early allow call argRules) ∧
        (v = .allow ∨ v = .errno eafnosupport)) := by
  by_cases hforeign : call.arch ≠ auditArchX8664 ∨ x32SyscallBit ≤ call.nr
  · refine ⟨.deny, fun deny p h => ?_, .inl (by rw [verdict, if_pos hforeign])⟩
    obtain ⟨_, _, _, _, rfl⟩ := buildProgramFull_ok h
    rw [evaluate_prologue, if_pos hforeign]
    rfl
  · obtain ⟨o, hreach, hnear⟩ := reaches_rules allow sockets call argRules
    have hall : Near _ (o.or ((softVerdict allow call).or (plainVerdict allow call))) _ := hnear.or (.inl rfl)
    refine ⟨(o.or ((softVerdict allow call).or (plainVerdict allow call))).getD .deny, fun deny p h => ?_, ?_⟩
    · obtain ⟨rules, plain, hrules, hplain, rfl⟩ := buildProgramFull_ok h
      have hsoft : Decides call.load call.nr (softPairs allow deny refusedSoftly) _ :=
        softPairs_decides refusedSoftly_range
      have hpairs : Decides call.load call.nr plain _ := plainPairs_decides hplain
      have hprog := (hreach deny rules hrules).append
        (hsoft.append (hpairs.append (.ret (k := deny))))
      have hret := hprog []
      rw [append_nil] at hret
      rw [evaluate_prologue, if_neg hforeign, hret, softVerdict, plainVerdict]
      cases o with
      | some v => rfl
      | none =>
        cases refusedSoftly.find? (fun e => e.1 == call.number && !allow.contains e.1) with
        | some e => rfl
        | none => split <;> rfl
    · obtain ho | ⟨hp, ho | ho⟩ := hall
      · exact .inl ((congrArg (fun o => o.getD .deny) ho).trans (verdict_eq hforeign).symm)
      · exact .inr ⟨hp, .inl (congrArg (fun o => o.getD .deny) ho)⟩
      · exact .inr ⟨hp, .inr (congrArg (fun o => o.getD .deny) ho)⟩

lemma errnoAction_ne (e : Word) :
    errnoAction e ≠ retAllow ∧ errnoAction e ≠ retKillProcess ∧ errnoAction e ≠ retUserNotif := by
  have hbit : (errnoAction e).getLsbD 16 = true := by
    simp [errnoAction, retErrno]
  have hclear : (errnoAction e).getLsbD 17 = false := by
    simp [errnoAction, retErrno]
  exact ⟨fun h => absurd (h ▸ hclear) (by decide), fun h => absurd (h ▸ hbit) (by decide),
    fun h => absurd (h ▸ hbit) (by decide)⟩

lemma Verdict.action_eq_allow {v : Verdict} : v.action retKillProcess = retAllow ↔ v = .allow := by
  refine ⟨fun h => ?_, fun h => h ▸ rfl⟩
  cases v with
  | allow => rfl
  | deny => exact absurd h (by decide)
  | soft e | errno e => exact absurd h (errnoAction_ne e).1

end Kryptik.Kryptikd.Seccomp
