import Kryptik.Kryptikd.Policy
import Kryptik.Kryptikd.SeccompMeaning

namespace Kryptik.Kryptikd

open Lib Fallible Bpf Seccomp List Caps SocketPolicy

namespace Policy

lemma mem_of_named {β : Type} {table : List (String × β)} {name : String} {b : β}
    (h : (table.find? (fun e => e.1 == name)).map Prod.snd = some b) : b ∈ table.map Prod.snd := by
  obtain ⟨e, he, rfl⟩ := Option.map_eq_some_iff.mp h
  exact mem_map_of_mem (mem_of_find?_eq_some he)

structure Named (p : Policy) : Prop where
  syscalls : ∀ nr, nr ∈ p.extraSyscalls ↔ ∃ n ∈ p.extraSyscallNames, syscallByName n = some nr
  families : ∀ f, f ∈ p.sockets.families ↔ f ≠ afNetlink ∧ ∃ n ∈ p.socketNames, socketFamilyByName n = some f
  netlink : p.sockets.netlinkAll = true ↔ ∃ n ∈ p.socketNames, socketFamilyByName n = some afNetlink
  protocols : ∀ pr, pr ∈ p.sockets.netlinkProtocols ↔ ∃ n ∈ p.netlinkNames, netlinkProtocolByName n = some pr
  caps : ∀ c, c ∈ p.keepCaps ↔ ∃ n ∈ p.keepCapNames, Caps.capByName n = some c
  allowed : ∀ nr ∈ p.extraSyscalls, isDenied nr = false
  paired : p.keepCaps.length = p.keepCapNames.length

lemma named_start (source : String) : Named { source } := by
  constructor <;> simp

section Directives

variable {p p' : Policy} {lineno : ℕ} {arg : String}

lemma named_push {α : Type} {byName : String → Option α} {names : List String} {values : List α} {a : α}
    (h : ∀ b, b ∈ values ↔ ∃ n ∈ names, byName n = some b) (ha : byName arg = some a) (b : α) :
    b ∈ values ++ [a] ↔ ∃ n ∈ names ++ [arg], byName n = some b := by
  simp only [mem_append, mem_singleton, h b, or_and_right, exists_or, exists_eq_left, ha,
    Option.some_inj, eq_comm (a := a)]

lemma named_mono {α : Type} {byName : String → Option α} {names names' : List String} {values values' : List α}
    (h : ∀ b, b ∈ values ↔ ∃ n ∈ names, byName n = some b) (h' : ∀ b, b ∈ values' ↔ ∃ n ∈ names', byName n = some b)
    (hsub : names ⊆ names') : values ⊆ values' := by
  intro b hb
  obtain ⟨n, hn, hname⟩ := (h b).mp hb
  exact (h' b).mpr ⟨n, hsub hn, hname⟩

lemma named_allowSyscall (hp : p.Named) (h : p.allowSyscall lineno arg = .ok p') : p'.Named := by
  unfold allowSyscall at h
  split at h
  · cases h
  next nr hnr =>
    split_ifs at h with hdenied hbase
    · cases h
      exact { hp with }
    · cases h
      refine { hp with syscalls := named_push hp.syscalls hnr, allowed := ?_ }
      intro n hn
      obtain hn | hn := mem_append.mp hn
      · exact hp.allowed n hn
      · rw [mem_singleton.mp hn]
        exact Bool.eq_false_iff.mpr hdenied

lemma named_allowSocket (hp : p.Named) (h : p.allowSocket lineno arg = .ok p') : p'.Named := by
  unfold allowSocket at h
  split at h
  · cases h
  next fam hfam =>
    split_ifs at h with hnetlink hbase
    · cases h
      subst hnetlink
      refine { hp with families := ?_, netlink := ?_ }
      · intro f
        rw [hp.families]
        simp only [mem_append, mem_singleton, or_and_right, exists_or, exists_eq_left, hfam, Option.some_inj]
        refine and_congr_right fun hf => ⟨.inl, fun h => h.resolve_right (Ne.symm hf)⟩
      · simp [hfam]
    · cases h
      exact { hp with }
    · cases h
      refine { hp with families := ?_, netlink := ?_ }
      · intro f
        simp only [mem_append, mem_singleton, hp.families f, or_and_right, exists_or, exists_eq_left,
          hfam, Option.some_inj, and_or_left, eq_comm (a := fam)]
        refine or_congr_right ⟨fun h => ⟨h ▸ hnetlink, h⟩, And.right⟩
      · rw [hp.netlink]
        simp [or_and_right, exists_or, hfam, hnetlink]

lemma named_allowNetlink (hp : p.Named) (h : p.allowNetlink lineno arg = .ok p') : p'.Named := by
  unfold allowNetlink at h
  split at h
  · cases h
  next proto hproto =>
    split_ifs at h
    · cases h
      exact { hp with }
    · cases h
      exact { hp with protocols := named_push hp.protocols hproto }

lemma named_keepCapability (hp : p.Named) (h : p.keepCapability lineno arg = .ok p') : p'.Named := by
  unfold keepCapability at h
  split at h
  · cases h
  next c hc =>
    split_ifs at h
    · cases h
      exact { hp with }
    · cases h
      exact { hp with caps := named_push hp.caps hc, paired := by simp [hp.paired] }

lemma named_direct {directive : String} (hp : p.Named) (h : p.direct lineno arg directive = .ok p') : p'.Named := by
  unfold direct at h
  split_ifs at h
  · exact named_allowSyscall hp h
  · exact named_allowSocket hp h
  · exact named_allowNetlink hp h
  · exact named_keepCapability hp h

end Directives

lemma parse_ok {text source : String} {p : Policy} (h : parse text source = .ok p) :
    p.Named ∧ (privsepKept p.keepCaps = 0 ∨ privsepKept p.keepCaps = privsep.length) := by
  obtain ⟨st, hst, h⟩ := bind_ok.mp h
  split_ifs at h with hkept
  obtain rfl := pure_ok.mp h
  refine ⟨?_, by tauto⟩
  refine foldlM_ok (P := fun st => st.p.Named) ?_ (named_start source) hst
  intro numbered _ c c' hc hstep
  have hline := mapError_ok.mp hstep
  obtain ⟨found, -, hline⟩ := bind_ok.mp hline
  split at hline
  · obtain rfl := pure_ok.mp hline
    exact hc
  · split_ifs at hline
    obtain ⟨p', hp', hline⟩ := bind_ok.mp hline
    obtain rfl := pure_ok.mp hline
    exact named_direct hc hp'

end Policy

namespace Seccomp

lemma nodup_foldl_push {p : Word → Bool} {l m : List Word} (h : m.Nodup) :
    (l.foldl (fun acc f => if !acc.contains f && p f then acc ++ [f] else acc) m).Nodup := by
  induction l generalizing m with
  | nil => exact h
  | cons f l ih =>
    rw [foldl_cons]
    apply ih
    split
    · next hf =>
      have hnew : f ∉ m := by
        intro hin
        simp [hin] at hf
      exact nodup_append.mpr ⟨h, nodup_singleton f, by
        rintro a ha b hb rfl
        exact hnew (mem_singleton.mp hb ▸ ha)⟩
    · exact h

lemma SocketPolicy.nodup_fams (sockets : SocketPolicy) : sockets.fams.Nodup := by
  have hgrown : (sockets.families.foldl
      (fun fams f => if !fams.contains f && f != afNetlink then fams ++ [f] else fams)
      [afUnix, afInet, afInet6]).Nodup := nodup_foldl_push (by decide)
  unfold fams
  split
  · refine nodup_append.mpr ⟨hgrown, nodup_singleton _, ?_⟩
    rintro a ha b hb rfl
    obtain rfl := mem_singleton.mp hb
    obtain h | ⟨_, h⟩ := (mem_foldl_push (p := fun f => f != afNetlink)).mp ha
    · exact absurd h (by decide)
    · simp at h
  · exact hgrown

lemma SocketPolicy.nodup_protos (sockets : SocketPolicy) : sockets.protos.Nodup := by
  have h := nodup_foldl_push (p := fun _ => true) (l := sockets.netlinkProtocols) (nodup_singleton netlinkRoute)
  simpa only [protos, Bool.and_true] using h

end Seccomp

lemma Policy.Named.short {p : Policy} (h : p.Named) : p.sockets.fams.length ≤ 13 ∧ p.sockets.protos.length ≤ 6 := by
  have hfams : p.sockets.fams ⊆ socketFamilyNames.map Prod.snd := by
    intro f hf
    obtain hf | ⟨hf, -⟩ | ⟨-, rfl⟩ := mem_fams.mp hf
    · have hbase : ∀ f ∈ [afUnix, afInet, afInet6], f ∈ socketFamilyNames.map Prod.snd := by
        simp [socketFamilyNames]
      exact hbase f hf
    · obtain ⟨-, n, -, hn⟩ := (h.families f).mp hf
      exact mem_of_named hn
    · decide
  have hprotos : p.sockets.protos ⊆ netlinkProtocolNames.map Prod.snd := by
    intro pr hpr
    obtain rfl | hpr := mem_protos.mp hpr
    · decide
    · obtain ⟨n, -, hn⟩ := (h.protocols pr).mp hpr
      exact mem_of_named hn
  exact ⟨(p.sockets.nodup_fams.subperm hfams).length_le, (p.sockets.nodup_protos.subperm hprotos).length_le⟩

lemma Policy.Named.plain {p : Policy} (h : p.Named) : p.sockets.Plain where
  netlink := fun hin => ((h.families _).mp hin).1 rfl
  short := by
    intro body hb
    obtain ⟨hfams, hprotos⟩ := h.short
    rw [length_socketBody hb]
    unfold netlinkLen
    split <;> omega

lemma Policy.Named.evaluates {p : Policy} (hp : p.Named) {allow : List ℤ} {denyAction : Word}
    {prog : List SockFilter} (hb : buildProgramFull allow denyAction p.sockets = .ok prog) (call : SeccompData) :
    evaluate prog call = some ((verdict allow p.sockets call).action denyAction) := by
  obtain ⟨v, hv, rfl | ⟨⟨hplain, -⟩, -⟩⟩ := evaluate_verdict allow p.sockets call
  · exact hv denyAction prog hb
  · exact absurd hp.plain hplain

theorem filter_computes_verdict (text source : String) (p : Policy)
    (hp : Policy.parse text source = .ok p) (allow : List ℤ) (denyAction : Word)
    (prog : List SockFilter) (hb : buildProgramFull allow denyAction p.sockets = .ok prog)
    (call : SeccompData) :
    evaluate prog call = some ((verdict allow p.sockets call).action denyAction) :=
  (Policy.parse_ok hp).1.evaluates hb call

def packetCall : SeccompData where
  nr := 41#32
  arch := auditArchX8664
  instructionPointer := 0
  args := fun i => if i = 0 then 17 else 0

theorem filter_computes_verdict_packet : ∃ p prog,
    Policy.parse "allow-socket AF_PACKET # raw frames\n" "net.policy" = .ok p ∧
    buildProgramFull [41, 0] retKillProcess p.sockets = .ok prog ∧
    evaluate prog packetCall = some ((verdict [41, 0] p.sockets packetCall).action retKillProcess) ∧
    verdict [41, 0] p.sockets packetCall = .allow := by
  have h : (Policy.parse "allow-socket AF_PACKET # raw frames\n" "net.policy").toOption.any (fun p =>
      (buildProgramFull [41, 0] retKillProcess p.sockets).toOption.isSome ∧
        verdict [41, 0] p.sockets packetCall = .allow) = true := by decide +kernel
  obtain ⟨p, hp, h⟩ := (Option.any_eq_true _ _).mp h
  obtain ⟨hb, hv⟩ := of_decide_eq_true h
  obtain ⟨prog, hb⟩ := Option.isSome_iff_exists.mp hb
  have hp := toOption_eq_some.mp hp
  have hb := toOption_eq_some.mp hb
  exact ⟨p, prog, hp, hb, filter_computes_verdict _ _ p hp _ _ prog hb packetCall, hv⟩

namespace Seccomp

variable {allow : List ℤ} {nr : ℤ}

abbrev pushCall (allow : List ℤ) (nr : ℤ) : List ℤ := if allow.contains nr then allow else allow ++ [nr]

lemma mem_foldl_calls {calls : List ℤ} : nr ∈ calls.foldl pushCall allow ↔ nr ∈ allow ∨ nr ∈ calls := by
  have hpush : pushCall = fun allow nr => if !allow.contains nr && true then allow ++ [nr] else allow := by
    funext allow nr
    unfold pushCall
    cases allow.contains nr <;> rfl
  rw [hpush, mem_foldl_push (p := fun _ => true)]
  simp

lemma mem_foldl_capCalls {table : List (ℕ × List ℤ)} {keptCaps : List ℕ} : nr ∈ table.foldl (fun allow e =>
        if keptCaps.contains e.1 then e.2.foldl pushCall allow else allow) allow ↔
      nr ∈ allow ∨ ∃ e ∈ table, e.1 ∈ keptCaps ∧ nr ∈ e.2 := by
  induction table generalizing allow with
  | nil => simp
  | cons e table ih =>
    rw [foldl_cons, ih]
    by_cases he : e.1 ∈ keptCaps
    · rw [if_pos (contains_iff_mem.mpr he), mem_foldl_calls]
      simp [he, or_assoc]
    · simp [he]

lemma widened_iff {extra base : List ℤ} : extra.foldlM (m := Except SeccompError) (fun allow nr =>
    if isDenied nr then .error (.denied nr) else .ok (pushCall allow nr)) base = .ok allow ↔
      (∀ nr ∈ extra, isDenied nr = false) ∧ extra.foldl pushCall base = allow := by
  induction extra generalizing base with
  | nil => simp [pure_ok]
  | cons nr extra ih =>
    rw [foldlM_cons, forall_mem_cons]
    cases hd : isDenied nr with
    | true => exact ⟨nofun, fun h => absurd h.1.1 (by decide)⟩
    | false =>
      rw [and_iff_right rfl]
      exact ih

lemma widenedFor_mem {extra : List ℤ} {keptCaps : List ℕ} (h : widenedFor extra keptCaps = .ok allow) :
    (∀ nr ∈ extra, isDenied nr = false) ∧ ∀ nr, nr ∈ allow ↔
      nr ∈ baseAllowlist ∨ nr ∈ extra ∨ ∃ e ∈ capCalls, e.1 ∈ keptCaps ∧ nr ∈ e.2 := by
  obtain ⟨wide, hwide, h⟩ := bind_ok.mp h
  obtain ⟨hdenied, rfl⟩ := widened_iff.mp hwide
  obtain rfl := pure_ok.mp h
  refine ⟨hdenied, fun nr => ?_⟩
  rw [mem_foldl_capCalls, mem_foldl_calls, or_assoc]

lemma base_not_denied : ∀ nr ∈ baseAllowlist, nr ∉ denied := by decide +kernel

lemma capCalls_privsep : ∀ e ∈ capCalls, e.1 ∈ privsep ∧ e.1 ∈ Caps.nicOnly := by decide

lemma rule_not_denied : ∀ rule ∈ argRules, rule.nr ∉ denied := by decide +kernel

lemma verdict_allow {sockets : SocketPolicy} {call : SeccompData} (h : verdict allow sockets call = .allow)
    (hrule : ∀ rule ∈ argRules, rule.nr ≠ call.number) :
    call.number ∈ allow := by
  unfold verdict at h
  split at h
  · cases h
  have harg : argVerdict allow sockets call = none := by
    rw [argVerdict, Option.map_eq_none_iff, List.find?_eq_none]
    intro rule hr hc
    exact hrule rule hr (beq_iff_eq.mp (Bool.and_eq_true _ _ ▸ hc).1)
  rw [harg] at h
  by_contra hn
  rw [if_neg hn] at h
  unfold softVerdict at h
  cases hf : refusedSoftly.find? (fun e => e.1 == call.number && !allow.contains e.1) with
  | none | some e =>
    rw [hf] at h
    cases h

end Seccomp

lemma privsepKept_all {keepCaps : List ℕ} {c : ℕ}
    (h : Policy.privsepKept keepCaps = 0 ∨ Policy.privsepKept keepCaps = privsep.length)
    (hc : c ∈ privsep) (hk : c ∈ keepCaps) : ∀ d ∈ privsep, d ∈ keepCaps := by
  obtain h | h := h
  · have hnil := length_eq_zero_iff.mp h
    have : c ∈ privsep.filter (fun c => c ∈ keepCaps) := mem_filter.mpr ⟨hc, by simpa using hk⟩
    rw [hnil] at this
    exact absurd this not_mem_nil
  · intro d hd
    have := length_filter_eq_length_iff.mp h d hd
    simpa using this

lemma Policy.checkForZone_ok {p : Policy} {z : Zone} (h : p.checkForZone z = .ok ())
    (hp : p.Named) {c : ℕ} (hk : c ∈ p.keepCaps) (hc : c ∈ Caps.nicOnly) : z.network = .nic := by
  unfold checkForZone at h
  split_ifs at h with hz
  · exact hz
  · split at h
    · cases h
    next hf =>
      have hmap := map_fst_zip (Nat.le_of_eq hp.paired)
      rw [← hmap] at hk
      obtain ⟨e, he, rfl⟩ := mem_map.mp hk
      have := List.find?_eq_none.mp hf e he
      exact absurd hc (by simpa using this)

theorem denied_reopened_only_by_caps (text source : String) (p : Policy) (z : Zone) (allow : List ℤ)
    (prog : List SockFilter) (call : SeccompData)
    (hp : Policy.parse text source = .ok p) (hz : p.checkForZone z = .ok ())
    (hw : widenedFor p.extraSyscalls p.keepCaps = .ok allow)
    (hb : buildProgramFull allow retKillProcess p.sockets = .ok prog)
    (hdenied : call.number ∈ denied) (hallow : evaluate prog call = some retAllow) :
    (∃ e ∈ capCalls, e.1 ∈ p.keepCaps ∧ call.number ∈ e.2) ∧ z.network = .nic ∧
      setuid ∈ p.keepCaps ∧ setgid ∈ p.keepCaps ∧ sysChroot ∈ p.keepCaps := by
  obtain ⟨hwell, hkept⟩ := Policy.parse_ok hp
  rw [(Policy.parse_ok hp).1.evaluates hb call] at hallow
  have hv := Verdict.action_eq_allow.mp (Option.some.inj hallow)
  have hin : call.number ∈ allow :=
    verdict_allow hv (fun rule hr he => rule_not_denied rule hr (he ▸ hdenied))
  obtain ⟨hextra, hmem⟩ := widenedFor_mem hw
  obtain hbase | hnr | ⟨e, he, hcap, hcall⟩ := (hmem _).mp hin
  · exact absurd hdenied (base_not_denied _ hbase)
  · exact absurd (contains_iff_mem.mpr hdenied) (Bool.eq_false_iff.mp (hextra _ hnr))
  · have hpriv := capCalls_privsep e he
    have hall := privsepKept_all hkept hpriv.1 hcap
    exact ⟨⟨e, he, hcap, hcall⟩, Policy.checkForZone_ok hz hwell hcap hpriv.2,
      hall _ (by decide), hall _ (by decide), hall _ (by decide)⟩

def nicZone : Zone where
  name := "net"
  description := ""
  network := .nic
  nic := some "*"
  localNets := false
  storage := .ephemeral
  volume := none
  seccomp := some "net.policy"
  landlock := none
  size := some "1M"
  memoryMax := none
  pidsMax := none
  cpuMax := none
  ioMax := none
  borderColor := "#a03030"
  borderPattern := none
  glyph := none
  label := none
  uidBase := some 131072
  transferTo := []
  transferMax := none
  images := []
  sound := false
  removable := false
  camera := false
  holdAwake := false

def setuidCall : SeccompData where
  nr := 105#32
  arch := auditArchX8664
  instructionPointer := 0
  args := fun _ => 0

def privsepPolicy : String :=
  "keep-capability CAP_SETUID\nkeep-capability CAP_SETGID\nkeep-capability CAP_SYS_CHROOT\n"

theorem denied_reopened_only_by_caps_setuid : ∃ p allow prog,
    Policy.parse privsepPolicy "net.policy" = .ok p ∧ p.checkForZone nicZone = .ok () ∧
    widenedFor p.extraSyscalls p.keepCaps = .ok allow ∧
    buildProgramFull allow retKillProcess p.sockets = .ok prog ∧ setuidCall.number ∈ denied ∧
    evaluate prog setuidCall = some retAllow ∧
    ∃ e ∈ capCalls, e.1 ∈ p.keepCaps ∧ setuidCall.number ∈ e.2 := by
  have h : (Policy.parse privsepPolicy "net.policy").toOption.any (fun p =>
      p.checkForZone nicZone = .ok () ∧ (widenedFor p.extraSyscalls p.keepCaps).toOption.any (fun allow =>
          (buildProgramFull allow retKillProcess p.sockets).toOption.any (fun prog =>
            evaluate prog setuidCall = some retAllow))) = true := by decide +kernel
  obtain ⟨p, hp, h⟩ := (Option.any_eq_true _ _).mp h
  obtain ⟨hz, h⟩ := of_decide_eq_true h
  obtain ⟨allow, hw, h⟩ := (Option.any_eq_true _ _).mp h
  obtain ⟨prog, hb, h⟩ := (Option.any_eq_true _ _).mp h
  have hp := toOption_eq_some.mp hp
  have hw := toOption_eq_some.mp hw
  have hb := toOption_eq_some.mp hb
  have hallow := of_decide_eq_true h
  have hdenied : setuidCall.number ∈ denied := by decide +kernel
  exact ⟨p, allow, prog, hp, hz, hw, hb, hdenied, hallow,
    (denied_reopened_only_by_caps _ _ p nicZone allow prog setuidCall hp hz hw hb hdenied hallow).1⟩

end Kryptik.Kryptikd
