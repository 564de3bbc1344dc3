import Kryptik.Kryptikd.Images
import Kryptik.Kryptikd.SeccompTrace

namespace Kryptik.Kryptikd

open Lib Fallible Bpf Seccomp List

namespace Policy

structure Within (p g : Policy) : Prop where
  syscalls : p.extraSyscalls ⊆ g.extraSyscalls
  families : p.sockets.families ⊆ g.sockets.families
  netlink : p.sockets.netlinkAll = true → g.sockets.netlinkAll = true
  protocols : p.sockets.netlinkProtocols ⊆ g.sockets.netlinkProtocols
  caps : p.keepCaps ⊆ g.keepCaps

end Policy

namespace Seccomp

variable {extra : List ℤ}
variable {allow allow' : List ℤ} {sockets sockets' : SocketPolicy} {call : SeccompData}

variable (sockets call) in
lemma argVerdict_base (hbase : ∀ rule ∈ argRules, rule.nr ∈ allow) : argVerdict allow sockets call =
    (argRules.find? fun rule => rule.nr == call.number).map fun rule => rule.verdict sockets call := by
  have hin (rule : ArgRule) (hrule : rule ∈ argRules) : allow.contains rule.nr = true :=
    contains_iff_mem.mpr (hbase rule hrule)
  have hfind : ∀ rules ⊆ argRules, (rules.find? fun rule => rule.nr == call.number && allow.contains rule.nr) =
      rules.find? fun rule => rule.nr == call.number := by
    intro rules
    induction rules with
    | nil => exact fun _ => rfl
    | cons rule rules ih =>
      intro hsub
      rw [List.find?_cons, List.find?_cons, hin rule (hsub mem_cons_self), Bool.and_true,
        ih fun r hr => hsub (mem_cons_of_mem rule hr)]
  rw [argVerdict, hfind argRules (List.Subset.refl _)]

lemma ArgRule.verdict_mono {rule : ArgRule}
    (hsockets : ∀ family protocol, sockets.Allows family protocol → sockets'.Allows family protocol)
    (h : rule.verdict sockets call = .allow) : rule.verdict sockets' call = .allow := by
  cases rule with
  | socketFamilies =>
    simp only [ArgRule.verdict] at h ⊢
    split_ifs at h with hopen
    rw [if_pos (hsockets _ _ hopen)]
  | cloneNoNamespaces | clone3Enosys | ioctlRefused | socketpairUnix => exact h

lemma verdict_mono (hbase : ∀ rule ∈ argRules, rule.nr ∈ allow) (hsub : allow ⊆ allow')
    (hsockets : ∀ family protocol, sockets.Allows family protocol → sockets'.Allows family protocol)
    (h : verdict allow sockets call = .allow) : verdict allow' sockets' call = .allow := by
  have hnative : ¬ (call.arch ≠ auditArchX8664 ∨ x32SyscallBit ≤ call.nr) := by
    intro hforeign
    rw [verdict, if_pos hforeign] at h
    cases h
  have hrules := argVerdict_base sockets call hbase
  have hrules' := argVerdict_base sockets' call fun rule hrule => hsub (hbase rule hrule)
  cases hfind : argRules.find? fun rule => rule.nr == call.number with
  | some rule =>
    rw [hfind] at hrules hrules'
    rw [verdict, if_neg hnative, hrules] at h
    rw [verdict, if_neg hnative, hrules']
    exact ArgRule.verdict_mono hsockets h
  | none =>
    have hnone : ∀ rule ∈ argRules, rule.nr ≠ call.number := by
      simpa [List.find?_eq_none] using hfind
    have hin : call.number ∈ allow' := hsub (verdict_allow h hnone)
    rw [hfind] at hrules'
    rw [verdict, if_neg hnative, hrules', softVerdict_eq, if_pos hin]
    exact if_pos hin

def filterWith (extra : List ℤ) (sockets : SocketPolicy) (keptCaps : List ℕ) : Except Stop (List SockFilter) := do
  let allow ← (widenedFor extra keptCaps).mapError .error
  buildProgramFull allow retKillProcess sockets

lemma filterWith_ok {keptCaps : List ℕ} (h : widenedFor extra keptCaps = .ok allow) :
    filterWith extra sockets keptCaps = buildProgramFull allow retKillProcess sockets := by
  rw [filterWith, h]
  rfl

def zoneFilter : Option Policy → Except Stop (List SockFilter)
  | none => buildProgramFull baseAllowlist retKillProcess {}
  | some p => filterWith p.extraSyscalls p.sockets p.keepCaps

lemma off_builds (start : ℕ) {target : ℕ} (h : target ≤ 256) : ∃ d, off start target = .ok d := by
  have hd : target - (start + 1) ≤ 255 := by omega
  exact ⟨target - (start + 1), if_pos hd⟩

lemma comparisons_builds {allowIdx denyIdx : ℕ} (hallow : allowIdx ≤ 256) (hdeny : denyIdx ≤ 256) (fs : List Word)
    (idx : ℕ) : ∃ js, comparisons allowIdx denyIdx idx fs = .ok js := by
  induction fs generalizing idx with
  | nil => exact ⟨[], rfl⟩
  | cons f fs ih =>
    obtain ⟨jt, hjt⟩ := off_builds idx hallow
    obtain ⟨rest, hrest⟩ := ih (idx + 1)
    obtain ⟨jf, hjf⟩ : ∃ jf, (if idx + 1 = allowIdx then off idx denyIdx else pure 0 : Except Stop ℕ) = .ok jf := by
      split
      · exact off_builds idx hdeny
      · exact ⟨0, rfl⟩
    exact ⟨jump jmpJeqK f jt jf :: rest, bind_ok.mpr ⟨jf, hjf, bind_ok.mpr ⟨jt, hjt, bind_ok.mpr ⟨rest, hrest, rfl⟩⟩⟩⟩

lemma socketBody_builds (h : sockets.fams.length + sockets.protos.length ≤ 100) :
    ∃ body, socketBody sockets = .ok body ∧ body.length ≤ 105 := by
  have hlen : sockets.netlinkLen ≤ 2 + sockets.protos.length := by
    unfold SocketPolicy.netlinkLen
    split <;> omega
  obtain ⟨body, hbody⟩ : ∃ body, socketBody sockets = .ok body := by
    have hallow : 1 + sockets.fams.length + sockets.netlinkLen ≤ 256 := by omega
    have hdeny : 1 + sockets.fams.length + sockets.netlinkLen + 1 ≤ 256 := by omega
    obtain ⟨families, hf⟩ := comparisons_builds hallow hdeny sockets.fams 1
    obtain ⟨netlink, hn⟩ : ∃ netlink, sockets.netlinkPart _ (1 + sockets.fams.length) = .ok netlink := by
      unfold SocketPolicy.netlinkPart
      split
      · exact ⟨[], rfl⟩
      · obtain ⟨jf, hjf⟩ := off_builds (1 + sockets.fams.length) hdeny
        obtain ⟨rest, hrest⟩ := comparisons_builds hallow hdeny sockets.protos (1 + sockets.fams.length + 2)
        exact ⟨_, bind_ok.mpr ⟨jf, hjf, bind_ok.mpr ⟨rest, hrest, rfl⟩⟩⟩
    exact ⟨_, bind_ok.mpr ⟨families, hf, bind_ok.mpr ⟨netlink, hn, rfl⟩⟩⟩
  refine ⟨body, hbody, ?_⟩
  rw [length_socketBody hbody]
  omega

variable {deny : Word}

variable (allow deny) in
lemma emitArgRules_builds {body : List SockFilter} (hbody : socketBody sockets = .ok body)
    (hshort : body.length ≤ 105) (rules : List ArgRule) :
    ∃ block, emitArgRules allow deny sockets rules = .ok block ∧ block.length ≤ 106 * rules.length := by
  induction rules with
  | nil => exact ⟨[], rfl, Nat.le_refl _⟩
  | cons rule rules ih =>
    obtain ⟨rest, hrest, hlen⟩ := ih
    obtain ⟨one, hone, hbound⟩ : ∃ one, rule.body deny sockets = .ok one ∧ one.length ≤ 105 := by
      cases rule with
      | socketFamilies => exact ⟨body, hbody, hshort⟩
      | cloneNoNamespaces | clone3Enosys | ioctlRefused | socketpairUnix => exact ⟨_, rfl, by simp⟩
    obtain ⟨block, hblock, hlen'⟩ : ∃ block, (if allow.contains rule.nr then emitArgRule rule deny sockets
        else pure [] : Except Stop (List SockFilter)) = .ok block ∧ block.length ≤ 106 := by
      split
      · exact ⟨_, bind_ok.mpr ⟨one, hone, rfl⟩, Nat.succ_le_succ hbound⟩
      · exact ⟨[], rfl, by simp⟩
    refine ⟨block ++ rest, bind_ok.mpr ⟨block, hblock, bind_ok.mpr ⟨rest, hrest, rfl⟩⟩, ?_⟩
    rw [length_append, length_cons]
    omega

lemma plainPairs_builds {l : List ℤ} (h : ∀ nr ∈ l, 0 ≤ nr ∧ nr < 2 ^ 32) :
    ∃ block, plainPairs l = .ok block ∧ block.length ≤ 2 * l.length := by
  induction l with
  | nil => exact ⟨[], rfl, Nat.le_refl _⟩
  | cons nr l ih =>
    obtain ⟨block, hblock, hlen⟩ := ih fun n hn => h n (mem_cons_of_mem nr hn)
    have hrange := h nr mem_cons_self
    rw [plainPairs, if_neg (by omega)]
    split
    · exact ⟨block, hblock, by rw [length_cons]; omega⟩
    · refine ⟨_, bind_ok.mpr ⟨block, hblock, rfl⟩, ?_⟩
      simp only [length_cons]
      omega

variable (allow deny) in
lemma length_softPairs (l : List (ℤ × Word)) : (softPairs allow deny l).length ≤ 2 * l.length := by
  induction l with
  | nil => exact Nat.le_refl _
  | cons e l ih =>
    rw [softPairs]
    split <;> simp only [length_cons] <;> omega

variable (sockets deny) in
lemma buildProgramFull_builds (hsockets : sockets.fams.length + sockets.protos.length ≤ 100)
    (hrange : ∀ nr ∈ allow, 0 ≤ nr ∧ nr < 2 ^ 32) (hlen : allow.length ≤ 1000) :
    ∃ prog, buildProgramFull allow deny sockets = .ok prog := by
  obtain ⟨body, hbody, hshort⟩ := socketBody_builds hsockets
  obtain ⟨rules, hrules, hlen1⟩ := emitArgRules_builds allow deny hbody hshort argRules
  obtain ⟨plain, hplain, hlen2⟩ := plainPairs_builds hrange
  have hlen3 := length_softPairs allow deny refusedSoftly
  have hrulesLen : argRules.length = 5 := rfl
  have hsoftLen : refusedSoftly.length = 18 := rfl
  refine ⟨_, bind_ok.mpr ⟨rules, hrules, bind_ok.mpr ⟨plain, hplain, if_neg ?_⟩⟩⟩
  simp only [length_append, prologue, length_cons, length_nil]
  omega

/-- A list grown from `base` by calls that are not in it yet. -/
def Grown (base allow : List ℤ) : Prop := ∃ more : List ℤ, allow = base ++ more ∧ more.Nodup

lemma Grown.push {base : List ℤ} (h : Grown base allow) (calls : List ℤ) :
    Grown base (calls.foldl pushCall allow) := by
  induction calls generalizing allow with
  | nil => exact h
  | cons c calls ih =>
    apply ih
    unfold pushCall
    split
    · exact h
    · next hc =>
      obtain ⟨more, rfl, hnodup⟩ := h
      refine ⟨more ++ [c], append_assoc _ _ _, nodup_append.mpr ⟨hnodup, nodup_singleton c, ?_⟩⟩
      intro a ha b hb heq
      rw [heq, mem_singleton.mp hb] at ha
      exact hc (contains_iff_mem.mpr (mem_append_right _ ha))

lemma Grown.pushCaps {base : List ℤ} (h : Grown base allow) (table : List (ℕ × List ℤ)) (keptCaps : List ℕ) :
    Grown base (table.foldl (fun allow e =>
        if keptCaps.contains e.1 then e.2.foldl pushCall allow else allow) allow) := by
  induction table generalizing allow with
  | nil => exact h
  | cons e table ih =>
    rw [foldl_cons]
    apply ih
    split
    · exact h.push e.2
    · exact h

lemma widenedFor_builds (h : ∀ nr ∈ extra, isDenied nr = false) (keptCaps : List ℕ) :
    ∃ allow, widenedFor extra keptCaps = .ok allow ∧ Grown baseAllowlist allow ∧ ∀ nr, nr ∈ allow ↔
      nr ∈ baseAllowlist ∨ nr ∈ extra ∨ ∃ e ∈ capCalls, e.1 ∈ keptCaps ∧ nr ∈ e.2 := by
  have hbase : Grown baseAllowlist baseAllowlist := ⟨[], by simp, nodup_nil⟩
  refine ⟨_, bind_ok.mpr ⟨_, widened_iff.mpr ⟨h, rfl⟩, rfl⟩, (hbase.push extra).pushCaps _ _, fun nr => ?_⟩
  rw [mem_foldl_capCalls, mem_foldl_calls, or_assoc]

lemma names_range : ∀ nr ∈ names.map Prod.snd, 0 ≤ nr ∧ nr < 2 ^ 32 := by decide +kernel

lemma base_named : ∀ nr ∈ baseAllowlist, nr ∈ names.map Prod.snd := by
  intro nr hnr
  rw [names, map_append]
  exact mem_append_right _ (mem_append_left _ hnr)

lemma capCalls_named : ∀ e ∈ capCalls, ∀ nr ∈ e.2, nr ∈ names.map Prod.snd := by decide +kernel

lemma rules_base : ∀ rule ∈ argRules, rule.nr ∈ baseAllowlist := by decide +kernel

end Seccomp

namespace Policy

lemma Named.builds {p : Policy} (h : p.Named) : ∃ allow prog, zoneFilter (some p) = .ok prog ∧
      (∀ nr, nr ∈ allow ↔ nr ∈ baseAllowlist ∨ nr ∈ p.extraSyscalls ∨ ∃ e ∈ capCalls, e.1 ∈ p.keepCaps ∧ nr ∈ e.2) ∧
      ∀ call, evaluate prog call = some retAllow ↔ verdict allow p.sockets call = .allow := by
  obtain ⟨allow, hallow, ⟨more, rfl, hnodup⟩, hmem⟩ := widenedFor_builds h.allowed p.keepCaps
  have hnamed : baseAllowlist ++ more ⊆ names.map Prod.snd := by
    intro nr hnr
    obtain hbase | hextra | ⟨e, he, -, hcall⟩ := (hmem nr).mp hnr
    · exact base_named nr hbase
    · obtain ⟨n, -, hn⟩ := (h.syscalls nr).mp hextra
      exact mem_of_named hn
    · exact capCalls_named e he nr hcall
  have hlen : (baseAllowlist ++ more).length ≤ 1000 := by
    have hmore := (hnodup.subperm (append_subset.mp hnamed).2).length_le
    have hnames : (names.map Prod.snd).length ≤ 500 := by decide +kernel
    have hbase : baseAllowlist.length ≤ 500 := by decide +kernel
    rw [length_append]
    omega
  obtain ⟨hfams, hprotos⟩ := h.short
  obtain ⟨prog, hprog⟩ := buildProgramFull_builds p.sockets retKillProcess (by omega)
    (fun nr hnr => names_range nr (hnamed hnr)) hlen
  refine ⟨_, prog, ?_, hmem, fun call => ?_⟩
  · exact (filterWith_ok hallow).trans hprog
  · rw [h.evaluates hprog call, Option.some_inj]
    exact Verdict.action_eq_allow

lemma Within.allows {p g : Policy} (h : p.Within g) (hp : p.Named) (hg : g.Named) :
    ∃ want have_, zoneFilter (some p) = .ok want ∧ zoneFilter (some g) = .ok have_ ∧
      ∀ call, evaluate want call = some retAllow → evaluate have_ call = some retAllow := by
  obtain ⟨allow, want, hwant, hmem, heval⟩ := hp.builds
  obtain ⟨allow', have_, hhave, hmem', heval'⟩ := hg.builds
  refine ⟨want, have_, hwant, hhave, fun call hcall => (heval' call).mpr ?_⟩
  refine verdict_mono (fun rule hrule => (hmem _).mpr (.inl (rules_base rule hrule))) ?_ ?_ ((heval call).mp hcall)
  · intro nr hnr
    refine (hmem' nr).mpr ?_
    obtain hbase | hextra | ⟨e, he, hcap, hnr⟩ := (hmem nr).mp hnr
    · exact .inl hbase
    · exact .inr (.inl (h.syscalls hextra))
    · exact .inr (.inr ⟨e, he, h.caps hcap, hnr⟩)
  · intro family protocol hallowed
    refine hallowed.imp_right (Or.imp_right (Or.imp_right (Or.imp (@h.families family) ?_)))
    exact And.imp_right (Or.imp h.netlink (Or.imp_right (@h.protocols protocol)))

end Policy

namespace Images

variable {m : Manifest}
variable {g : Option Policy} {p : Policy}

def grants (g : Option Policy) : Policy := g.getD { source := "" }

lemma zoneFilter_grants (g : Option Policy) : zoneFilter (some (grants g)) = zoneFilter g := by
  cases g with
  | none =>
    have hwide : widenedFor [] [] = .ok baseAllowlist := by
      simp [widenedFor, widened, capCalls, bind, Except.bind, pure, Except.pure]
    have hnone : zoneFilter (some (grants none)) = filterWith [] {} [] := rfl
    rw [hnone, filterWith_ok hwide, zoneFilter]
  | some g => rfl

lemma subset_of_holds {f : Policy → List String} {want : List String}
    (h : holds want (g.map f) = true) : want ⊆ f (grants g) := by
  intro w hw
  have hin := all_eq_true.mp h w hw
  cases g with
  | none => cases hin
  | some g => exact contains_iff_mem.mp hin

lemma within_of_granted (hp : p.Named) (hg : (grants g).Named) (h : granted g p = true) : p.Within (grants g) := by
  simp only [granted, Bool.and_eq_true] at h
  obtain ⟨⟨⟨hsyscalls, hsockets⟩, hnetlink⟩, hcaps⟩ := h
  have hsockets := subset_of_holds hsockets
  refine ⟨Policy.named_mono hp.syscalls hg.syscalls (subset_of_holds hsyscalls), ?_, ?_,
    Policy.named_mono hp.protocols hg.protocols (subset_of_holds hnetlink),
    Policy.named_mono hp.caps hg.caps (subset_of_holds hcaps)⟩
  · intro f hf
    obtain ⟨hne, n, hn, hname⟩ := (hp.families f).mp hf
    exact (hg.families f).mpr ⟨hne, n, hsockets hn, hname⟩
  · intro hall
    obtain ⟨n, hn, hname⟩ := hp.netlink.mp hall
    exact hg.netlink.mpr ⟨n, hsockets hn, hname⟩

lemma Manifest.needs_readLine {m' : Manifest} {line : List Char} (hm : ∀ e ∈ m.needs, ∃ p, need e.2 = .ok p)
    (h : m.readLine line = .ok m') : ∀ e ∈ m'.needs, ∃ p, need e.2 = .ok p := by
  unfold Manifest.readLine at h
  split at h
  · unfold Manifest.readImage at h
    split_ifs at h
    obtain ⟨img, -, h⟩ := bind_ok.mp h
    split_ifs at h
    obtain rfl := pure_ok.mp h
    exact hm
  split at h
  · unfold Manifest.readRequires at h
    split_ifs at h
    dsimp only at h
    split at h
    · cases h
    split at h
    · cases h
    split at h
    · cases h
    split_ifs at h
    cases h
    exact hm
  split at h
  · unfold Manifest.readNeeds at h
    split at h
    · cases h
    dsimp only at h
    split at h
    · cases h
    split_ifs at h
    obtain ⟨p, hp, h⟩ := bind_ok.mp h
    obtain rfl := pure_ok.mp h
    intro e he
    obtain he | he := mem_append.mp he
    · exact hm e he
    · rw [mem_singleton.mp he]
      exact ⟨p, mapError_ok.mp hp⟩
  · cases h

lemma need_of_parse {text : String} (h : parse text = .ok m) : ∀ e ∈ m.needs, ∃ p, need e.2 = .ok p := by
  unfold parse at h
  split at h
  · cases h
  obtain ⟨-, -, h⟩ := bind_ok.mp h
  obtain ⟨release, -, h⟩ := bind_ok.mp h
  obtain ⟨-, -, h⟩ := bind_ok.mp h
  obtain ⟨base, -, h⟩ := bind_ok.mp h
  obtain ⟨-, -, h⟩ := bind_ok.mp h
  obtain ⟨read, hread, h⟩ := bind_ok.mp h
  obtain ⟨-, -, h⟩ := bind_ok.mp h
  obtain rfl := pure_ok.mp h
  refine foldlM_ok (P := fun m : Manifest => ∀ e ∈ m.needs, ∃ p, need e.2 = .ok p) ?_ ?_ hread
  · intro line _ m m' hm hstep
    exact Manifest.needs_readLine hm hstep
  · intro e he
    exact absurd he not_mem_nil

lemma needsMet_granted {image line : String} (h : needsMet m image g = .ok ()) (hline : (image, line) ∈ m.needs)
    (hp : need line = .ok p) : granted g p = true := by
  have hmem : (image, line) ∈ m.needs.filter fun e => e.1 = image := mem_filter.mpr ⟨hline, by simp⟩
  obtain ⟨p', hp', h⟩ := bind_ok.mp (forM_ok h _ hmem)
  cases (mapError_ok.mp hp').symm.trans hp
  split_ifs at h with hgranted
  exact hgranted

theorem images_widen_nothing (text : String) (m : Manifest) (hm : parse text = .ok m) (image : String)
    (g : Option Policy) (hg : ∀ p ∈ g, ∃ text source, Policy.parse text source = .ok p)
    (hmet : needsMet m image g = .ok ()) :
    ∀ line, (image, line) ∈ m.needs → ∃ p want have_, need line = .ok p ∧
      filterWith p.extraSyscalls p.sockets p.keepCaps = .ok want ∧ zoneFilter g = .ok have_ ∧
      (∀ call, evaluate want call = some retAllow → evaluate have_ call = some retAllow) ∧
      ∀ c ∈ p.keepCaps, ∃ granted ∈ g, c ∈ granted.keepCaps := by
  intro line hline
  obtain ⟨p, hp⟩ := need_of_parse hm _ hline
  have hgrants : (grants g).Named := by
    cases g with
    | none => exact Policy.named_start ""
    | some g =>
      obtain ⟨text, source, hparse⟩ := hg g rfl
      exact (Policy.parse_ok hparse).1
  have hneed := (Policy.parse_ok hp).1
  have hwithin := within_of_granted hneed hgrants (needsMet_granted hmet hline hp)
  obtain ⟨want, have_, hwant, hhave, hallows⟩ := hwithin.allows hneed hgrants
  refine ⟨p, want, have_, hp, hwant, zoneFilter_grants g ▸ hhave, hallows, fun c hc => ?_⟩
  have hkept := hwithin.caps hc
  cases g with
  | none => exact absurd hkept not_mem_nil
  | some g => exact ⟨g, rfl, hkept⟩

lemma parse_ofList (ls : List (List Char)) (hne : ls ≠ []) (h : ∀ l ∈ ls, '\n' ∉ l) :
    parse (String.ofList (ls.flatMap (· ++ ['\n']))) = readLines ls := by
  obtain ⟨body, hbody, hsplit⟩ := Text.splitBy_flatMap hne h
  rw [parse, String.toList_ofList, hbody]
  exact congrArg readLines hsplit

def webImages : List (List Char) :=
  let hash := List.replicate 64 '0'
  [magic.toList, "release: 1".toList, "base: ".toList ++ hash,
    "image: web 1 bytes=8192 sha256=".toList ++ hash ++ " data-blocks=1 root-hash=".toList ++ hash ++
      " salt=".toList ++ hash,
    "needs: web allow-syscall mincore".toList]

lemma parse_webImages : parse (String.ofList (webImages.flatMap (· ++ ['\n']))) = readLines webImages := by
  have hwhole : webImages.all (fun l => !l.contains '\n') = true := by decide +kernel
  exact parse_ofList webImages (by decide) fun l hl => by simpa using all_eq_true.mp hwhole l hl

theorem images_widen_nothing_web : ∃ text m g, parse text = .ok m ∧
    Policy.parse "allow-syscall mincore" "web.policy" = .ok g ∧ needsMet m "web" (some g) = .ok () ∧
    ("web", "allow-syscall mincore") ∈ m.needs ∧ ∃ p want have_, need "allow-syscall mincore" = .ok p ∧
      filterWith p.extraSyscalls p.sockets p.keepCaps = .ok want ∧ zoneFilter (some g) = .ok have_ ∧
      ∀ call, evaluate want call = some retAllow → evaluate have_ call = some retAllow := by
  have hrun : (readLines webImages).toOption.any (fun m =>
      (Policy.parse "allow-syscall mincore" "web.policy").toOption.any fun g =>
        needsMet m "web" (some g) = .ok () ∧ ("web", "allow-syscall mincore") ∈ m.needs) = true := by
    decide +kernel
  obtain ⟨m, hm, hrun⟩ := (Option.any_eq_true _ _).mp hrun
  obtain ⟨g, hg, hrun⟩ := (Option.any_eq_true _ _).mp hrun
  obtain ⟨hmet, hneeds⟩ := of_decide_eq_true hrun
  have hg := toOption_eq_some.mp hg
  have hm := parse_webImages.trans (toOption_eq_some.mp hm)
  obtain ⟨p, want, have_, hp, hwant, hhave, hallows, -⟩ := images_widen_nothing _ m hm "web" (some g)
    (by rintro _ ⟨⟩; exact ⟨_, _, hg⟩) hmet _ hneeds
  exact ⟨_, m, g, hm, hg, hmet, hneeds, p, want, have_, hp, hwant, hhave, hallows⟩

def Manifest.names (m : Manifest) : List String := m.images.map Image.name

/-- An accepted list's lines: images in order, and each of the others about images listed. -/
structure Manifest.Listed (m : Manifest) : Prop where
  sorted : m.names.IsChain (· < ·)
  requires : ∀ e ∈ m.requires, e.1 ∈ m.names ∧ ∀ r ∈ e.2, r ≠ e.1 ∧ r ∈ m.names
  needs : ∀ e ∈ m.needs, e.1 ∈ m.names

lemma Manifest.mem_names {name : String} : name ∈ m.names ↔ (m.position name).isSome := by
  simp [names, position]

lemma Manifest.Listed.readLine {m' : Manifest} {line : List Char} (hm : m.Listed) (h : m.readLine line = .ok m') :
    m'.Listed := by
  unfold Manifest.readLine at h
  split at h
  · unfold Manifest.readImage at h
    split_ifs at h with hlate
    obtain ⟨img, -, h⟩ := bind_ok.mp h
    split_ifs at h with hlast
    obtain rfl := pure_ok.mp h
    simp only [not_or, not_not] at hlate
    refine ⟨?_, by simp [hlate.1], by simp [hlate.2]⟩
    rw [names, map_append, isChain_append]
    refine ⟨hm.sorted, .singleton _, ?_⟩
    rw [getLast?_map]
    rintro _ hx _ ⟨⟩
    obtain ⟨last, hl, rfl⟩ := Option.map_eq_some_iff.mp hx
    rw [hl, Option.any_some, decide_eq_true_eq] at hlast
    exact not_le.mp hlast
  split at h
  · unfold Manifest.readRequires at h
    split_ifs at h
    extract_lets words name reqs at h
    split at h
    · cases h
    rename_i hat
    split at h
    · cases h
    split at h
    · cases h
    rename_i hfind
    split_ifs at h
    cases h
    have hname : name ∈ m.names := mem_names.mpr (by rw [hat]; rfl)
    refine ⟨hm.sorted, forall_mem_append.mpr ⟨hm.requires, forall_mem_singleton.mpr ⟨hname, fun r hr => ?_⟩⟩, hm.needs⟩
    obtain ⟨k, hk⟩ := mem_iff_getElem?.mp hr
    have hreq := find?_eq_none.mp hfind (r, k) (mk_mem_zipIdx_iff_getElem?.mpr hk)
    simp only [Bool.or_eq_true, decide_eq_true_eq, not_or, Option.isNone_iff_eq_none] at hreq
    exact ⟨hreq.1.1, mem_names.mpr (Option.isSome_iff_ne_none.mpr hreq.1.2)⟩
  split at h
  · unfold Manifest.readNeeds at h
    split at h
    · cases h
    extract_lets name at h
    split at h
    · cases h
    rename_i hat
    split_ifs at h
    obtain ⟨-, -, h⟩ := bind_ok.mp h
    obtain rfl := pure_ok.mp h
    have hname : name ∈ m.names := mem_names.mpr (by rw [hat]; rfl)
    exact ⟨hm.sorted, hm.requires, forall_mem_append.mpr ⟨hm.needs, forall_mem_singleton.mpr hname⟩⟩
  · cases h

/-- An accepted list has an image, and its lines are about images it has. -/
theorem accepted_list_sound (text : String) (m : Manifest) (h : parse text = .ok m) : m.names ≠ [] ∧ m.Listed := by
  unfold parse at h
  split at h
  · cases h
  simp only [readLines, bind_ok] at h
  obtain ⟨-, -, release, -, -, -, base, -, -, -, read, hread, ⟨⟩, hsome, h⟩ := h
  obtain rfl := pure_ok.mp h
  refine ⟨fun hno => ?_, foldlM_ok (fun _ _ _ _ hm => hm.readLine) ⟨.nil, by simp, by simp⟩ hread⟩
  rw [map_eq_nil_iff.mp hno] at hsome
  cases hsome

theorem accepted_list_sound_web : ∃ text m, parse text = .ok m ∧ m.names = ["web"] ∧ m.Listed := by
  have hrun : (readLines webImages).toOption.any (fun m => m.names = ["web"]) = true := by decide +kernel
  obtain ⟨m, hm, hnames⟩ := (Option.any_eq_true _ _).mp hrun
  have hm := parse_webImages.trans (toOption_eq_some.mp hm)
  exact ⟨_, m, hm, of_decide_eq_true hnames, (accepted_list_sound _ m hm).2⟩

def Manifest.Over (m : Manifest) (a b : String) : Prop := ∃ e ∈ m.requires, e.1 = a ∧ b ∈ e.2

/-- A zone may name images just if it names all that they are built over, however far down. -/
theorem requires_met_closed (m : Manifest) (named : List String) :
    requiresMet m named = .ok () ↔ ∀ a ∈ named, ∀ b, Relation.ReflTransGen m.Over a b → b ∈ named := by
  constructor
  · intro h a ha b hab
    induction hab with
    | refl => exact ha
    | tail _ hover ih =>
      obtain ⟨e, he, rfl, hr⟩ := hover
      have hone := forM_ok h e (mem_filter.mpr ⟨he, by simpa using ih⟩)
      cases hfind : e.2.find? fun r => !named.contains r with
      | none => simpa using find?_eq_none.mp hfind _ hr
      | some r =>
        rw [hfind] at hone
        cases hone
  · intro h
    refine forM_of_ok fun e he => ?_
    obtain ⟨he, hnamed⟩ := mem_filter.mp he
    have hnone : (e.2.find? fun r => !named.contains r) = none := by
      rw [find?_eq_none]
      intro r hr
      simpa using h e.1 (by simpa using hnamed) r (.single ⟨e, he, rfl, hr⟩)
    rw [hnone]
    rfl

end Images

end Kryptik.Kryptikd
