import Kryptik.Wlproxy.Effects

namespace Kryptik.Wlproxy

open Lib Prog Tables Wire Protocol

namespace View

/-- The event that tells a registry of the proxy's own global. -/
def ownGlobal (registry : ℕ) : MessageWriter :=
  (((MessageWriter.new registry wlRegistryGlobal).u32 Policy.ownGlobalBase).string
    "wl_data_device_manager").u32 3

/-- A new object's registry hears of the proxy's own global. -/
def Advertised (id : ℕ) (name : String) (v v' : View) : Prop :=
  if name = "wl_registry" then Tells (ownGlobal id)
    { v with globals := v.globals.insert Policy.ownGlobalBase ("wl_data_device_manager", 3) } v'
  else v' = v

/-- A new object's place is held at the compositor, and a data device where the
keyboard is hears of the selection. -/
def ServesNew (clip : Clipboard) (id : ℕ) (name : String) (v v' : View) : Prop :=
  ∃ v1, Places id v v1 ∧
    if name = "wl_data_device" ∧ clip.focus = some v.id then Offering clip [id] v1 v' else v' = v1

def Creates (dir : Dir) (forward : Bool) (d : Decoded) (version : ℕ) (clip : Clipboard) (v v' : View) : Prop :=
  match d.newObject with
  | none => v' = v
  | some (id, name) => ∃ v1 v2, Registers id name (d.bindVersion.getD version) dir v v1 ∧
      Advertised id name v1 v2 ∧
      if dir = .clientToServer ∧ forward = false then ServesNew clip id name v2 v' else v' = v2

def Uncreated (dir : Dir) (forward : Bool) (d : Decoded) (version : ℕ) (clip : Clipboard) (v v' : View) : Prop :=
  Quiet v v' ∨ ∃ id name v1 v2, d.newObject = some (id, name) ∧
    Registers id name (d.bindVersion.getD version) dir v v1 ∧ Advertised id name v1 v2 ∧
    (v' = v2 ∨ (dir = .clientToServer ∧ forward = false) ∧ name = "wl_data_device" ∧
      ∃ v3, Places id v2 v3 ∧ Offering clip [id] v3 v')

lemma Creates.uncreated {dir : Dir} {d : Decoded} {version : ℕ} {clip : Clipboard} {v v' : View}
    (h : Creates dir true d version clip v v') : Uncreated dir true d version clip v v' := by
  unfold Creates at h
  split at h
  · exact .inl (h ▸ .refl v)
  · rename_i id name hd
    obtain ⟨v1, v2, hr, ha, hv⟩ := h
    rw [if_neg (by simp)] at hv
    exact .inr ⟨id, name, v1, v2, hd, hr, ha, Or.inl hv⟩

end View

open View Wlproxy.Core

lemma Registers.quiet {id version : ℕ} {name : String} {dir : Dir} {v v' : View}
    (h : Registers id name version dir v v') : Quiet v v' := by
  obtain ⟨_, _, _, _, _, _, rfl⟩ := h
  exact ⟨rfl, rfl, rfl, rfl⟩

lemma wp_advertiseOwn (id : ℕ) (name : String) (c : Core) :
    wp (if name = "wl_registry" then advertiseOwn id else pure ())
      (fun _ c' => Advertised id name c.view c'.view) (fun _ c' => Quiet c.view c'.view) c := by
  unfold Advertised
  refine wp_ite (fun hn => ?_) fun hn => ?_
  · have hown : advertiseOwn id = (do
        modify (fun c => { c with
          globals := c.globals.insert Policy.ownGlobalBase ("wl_data_device_manager", 3) })
        emit (ownGlobal id).finish []
        pure ()) := rfl
    simp only [hown, if_pos hn, wp_bind, wp_modify, wp_pure]
    exact wp_mono (wp_emit _ _ _) (fun _ _ ht => ht) fun _ _ he => he ▸ ⟨rfl, rfl, rfl, rfl⟩
  · rw [wp_pure, if_neg hn]

lemma wp_serveNew (id : ℕ) (name : String) (w : World) : wp (serveNew id name)
    (fun _ w' => ServesNew w.clip id name w.core.view w'.core.view ∧ w'.clip = w.clip)
    (fun _ w' => (w'.core = w.core ∨ name = "wl_data_device" ∧ ∃ v, Places id w.core.view v ∧
      Offering w.clip [id] v w'.core.view) ∧ w'.clip = w.clip) w := by
  simp only [serveNew, onCore, wp_zoom, wp_bind, wp_get]
  refine wp_mono (wp_placeholder id w.core) (fun _ c hp => ?_) fun _ _ he => ⟨.inl he, trivial⟩
  have hid : c.id = w.core.id := by
    obtain ⟨_, _, hv⟩ := hp
    exact congrArg View.id hv
  refine wp_ite (fun hc => ?_) fun hc => ⟨⟨c.view, hp, ?_⟩, rfl⟩
  · simp only [wp_zoom]
    refine wp_mono (wp_offerSelection w.clip [id] c) (fun _ c' ho => ⟨⟨c.view, hp, ?_⟩, trivial⟩)
      fun _ c' ho => ⟨.inr ⟨hc.1, c.view, hp, ho⟩, trivial⟩
    rw [if_pos ⟨hc.1, hc.2.trans (congrArg some hid)⟩]
    exact ho
  · rw [if_neg fun h => hc ⟨h.1, h.2.trans (congrArg some hid.symm)⟩]

lemma wp_registerNew (dir : Dir) (forward : Bool) (d : Decoded) (version : ℕ) (w : World) :
    wp (registerNew dir forward d version)
      (fun _ w' => Creates dir forward d version w.clip w.core.view w'.core.view ∧ w'.clip = w.clip)
      (fun _ w' => Uncreated dir forward d version w.clip w.core.view w'.core.view ∧ w'.clip = w.clip) w := by
  unfold registerNew Creates Uncreated
  cases hd : d.newObject with
  | none => exact ⟨rfl, rfl⟩
  | some x =>
    obtain ⟨id, name⟩ := x
    simp only [onCore, wp_zoom, wp_bind]
    refine wp_mono (wp_register id name _ dir w.core) (fun _ c1 hr => ?_)
      fun _ _ he => ⟨.inl (he ▸ ⟨rfl, rfl, rfl, rfl⟩), trivial⟩
    have hq := Registers.quiet hr
    refine wp_mono (wp_advertiseOwn id name c1) (fun _ c2 ha => ?_) fun _ _ he => ⟨.inl (hq.trans he), trivial⟩
    by_cases hs : dir = .clientToServer ∧ forward = false
    · have hs' : dir = .clientToServer ∧ (!forward) = true := by simpa using hs
      simp only [if_pos hs, if_pos hs']
      refine wp_mono (wp_serveNew id name _) (fun _ w3 h => ⟨⟨_, _, hr, ha, h.1⟩, h.2⟩)
        fun _ w3 h => ⟨.inr ⟨id, name, _, _, rfl, hr, ha, ?_⟩, h.2⟩
      obtain hc | ⟨hn, v3, hp, ho⟩ := h.1
      · exact .inl (congrArg Core.view hc)
      · exact .inr ⟨hs, hn, v3, hp, ho⟩
    · have hs' : ¬ (dir = .clientToServer ∧ (!forward) = true) := by simpa using hs
      simp only [if_neg hs, if_neg hs']
      exact ⟨⟨_, _, hr, ha, rfl⟩, rfl⟩

def View.passUp (v : View) (msg : Bytes) (stamp : Option Bytes) : View :=
  match stamp with
  | none => v.sendUp .request msg
  | some s => (v.sendUp .request msg).sendUp .stamp s

lemma wp_passUp (msg : Bytes) (fds : List Fd) (stamp : Option Bytes) (c : Core) :
    wp (passOn .clientToServer msg fds stamp) (fun _ c' => c'.view = c.view.passUp msg stamp) (fun _ c' => c' = c) c := by
  refine wp_ite (fun _ => rfl) fun _ => wp_ite (fun _ => rfl) fun _ => ?_
  cases stamp <;> rfl

lemma wp_passDown (msg : Bytes) (fds : List Fd) (stamp : Option Bytes) (c : Core) :
    wp (passOn .serverToClient msg fds stamp) (fun _ c' => c'.view = c.view.sendDown .event msg)
      (fun _ c' => c' = c) c := by
  exact wp_ite (fun _ => rfl) fun _ => wp_ite (fun _ => rfl) fun _ => rfl

namespace View

def Binds (v : View) (body : Bytes) (d : Decoded) (name : String) : Prop :=
  ∃ id version max gname cap, d.newObject = some (id, name) ∧ d.bindVersion = some version ∧
    (Policy.allowedVersion name v.holdAwake <|> Policy.ownVersion name) = some max ∧
    readArgs ArgReader.u32 body = .ok gname ∧ v.globals.lookup gname = some (name, cap) ∧
    version ≠ 0 ∧ version ≤ min max cap

inductive Checked (h : Header) (iface : Interface) (body : Bytes) (d : Decoded) (v : View) :
    Bool → Prop
  | other : ¬ (iface = .wlRegistry ∧ h.opcode = wlRegistryBind) → Checked h iface body d v true
  | bind (name : String) : iface = .wlRegistry → h.opcode = wlRegistryBind → Binds v body d name →
      Checked h iface body d v (!Policy.served name)

lemma Checked.bind_of_kept {h : Header} {iface : Interface} {body : Bytes} {d : Decoded} {v : View}
    (hc : Checked h iface body d v false) : ∃ name, iface = .wlRegistry ∧ h.opcode = wlRegistryBind ∧
      Binds v body d name ∧ Policy.served name = true := by
  generalize hb : false = b at hc
  cases hc with
  | other => cases hb
  | bind name hi ho hbinds => exact ⟨name, hi, ho, hbinds, by simpa using hb⟩

def Rewrites (zone : String) (h : Header) (iface : Interface) (m : Message) (d : Decoded) (msg out : Bytes) : Prop :=
  if iface = .xdgToplevel ∧ (m.name = "set_title" ∨ m.name = "set_app_id") then
    match d.strings.head? with
    | none => out = msg
    | some (_, s) => ((MessageWriter.new h.object h.opcode).string
        (if m.name = "set_title" then Policy.titleFor zone s else Policy.appIdFor zone s)).finish =
      some out
  else out = msg

def Stamps (zone : String) (iface : Interface) (m : Message) (d : Decoded) (stamp : Option Bytes) : Prop :=
  if iface = .xdgSurface ∧ m.name = "get_toplevel" then
    match d.newObject with
    | none => stamp = none
    | some (id, _) => ∃ opcode, Request.setAppId = some opcode ∧ stamp.isSome ∧
        ((MessageWriter.new id opcode).string (Policy.appIdFor zone "")).finish = stamp
  else stamp = none

end View

namespace Request

variable {h : Header} {iface : Interface} {m : Message} {body : Bytes} {fds : List Fd} {d : Decoded}

lemma wp_checkBind (c : Core) : wp (checkBind h iface body d)
    (fun forward c' => Checked h iface body d c.view forward ∧ c'.view = c.view)
    (fun _ c' => c'.view = c.view) c := by
  refine wp_ite (fun hb => ?_) fun hb => ⟨.other hb, rfl⟩
  unfold bindGlobal
  split
  · rename_i id name version hd hv
    simp only [wp_bind, wp_get, wp_orRefuse, wp_liftWire, implies_true, and_true]
    intro max hmax gname hg a ha
    obtain ⟨advertised, cap⟩ := a
    refine wp_ite (fun _ => rfl) fun hn => wp_ite (fun _ => rfl) fun hcap => ?_
    obtain ⟨rfl, h0⟩ := not_or.mp hn |>.imp_left Classical.not_not.mp
    have hc : Checked h iface body d c.view (!Policy.served advertised) := .bind _ hb.1 hb.2
      ⟨id, version, max, gname, cap, hd, hv, hmax, hg, ha, h0, Nat.not_lt.mp hcap⟩
    exact wp_ite (fun _ => ⟨hc, rfl⟩) fun _ => ⟨hc, rfl⟩
  · exact rfl

lemma wp_answer (forward : Bool) (w : World) : wp (answer h iface m body fds forward)
    (fun forward' w' => if Policy.served iface.name = true then forward' = false ∧
        Served h.object body fds w.core.view w.clip iface m.name w'.core.view w'.clip
      else forward' = forward ∧ w' = w)
    (fun _ w' => Unserved h.object iface m.name w.core.view w.clip w'.core.view w'.clip) w := by
  refine wp_ite (fun hs => ?_) fun hs => ?_
  · simp only [hs, if_true, wp_bind, wp_pure, true_and]
    exact answers_serve iface m.name
  · simp [hs]

lemma wp_identity (c : Core) : wp (identity h iface m d)
    (fun r c' => (∀ msg, Rewrites c.zone h iface m d msg (r.getD msg)) ∧ c'.view = c.view)
    (fun _ c' => c'.view = c.view) c := by
  unfold identity Rewrites
  refine wp_ite (fun hi => ?_) fun hi => ?_
  · simp only [if_pos hi]
    cases d.strings.head? with
    | none => exact ⟨fun _ => rfl, rfl⟩
    | some x =>
      simp only [wp_bind, wp_get, wp_orRefuse, wp_set, wp_pure]
      exact ⟨fun msg hm => ⟨fun _ => hm, rfl⟩, fun _ => trivial⟩
  · simp only [if_neg hi]
    exact ⟨fun _ => rfl, rfl⟩

lemma wp_stamp (c : Core) : wp (stamp iface m d)
    (fun s c' => Stamps c.zone iface m d s ∧ c' = c) (fun _ c' => c' = c) c := by
  unfold stamp Stamps
  refine wp_ite (fun hi => ?_) fun hi => ?_
  · simp only [if_pos hi]
    cases d.newObject with
    | none => exact ⟨rfl, rfl⟩
    | some x =>
      simp only [wp_bind, wp_get, wp_orRefuse, wp_pure, implies_true, and_true]
      exact fun opcode ho msg hm => ⟨opcode, ho, rfl, hm⟩
  · simp only [if_neg hi]
    exact ⟨rfl, rfl⟩

end Request

namespace View

variable (h : Header) (iface : Interface) (m : Message) (version : ℕ) (msg : Bytes) (fds : List Fd)
  (d : Decoded) (v : View) (clip : Clipboard)

/-- What a client's request does: it is passed on, or a bind of the proxy's own
global or a request on a served object is answered here. -/
inductive Requested : View → Clipboard → Prop
  | passed (out : Bytes) (stamp : Option Bytes) (v1 : View) : Policy.served iface.name = false →
      Checked h iface (msg.drop headerLen) d v true → Rewrites v.zone h iface m d msg out →
      Stamps v.zone iface m d stamp → Creates .clientToServer true d version clip v v1 →
      Requested (v1.passUp out stamp) clip
  | bound (name : String) (v1 : View) : Policy.served iface.name = false → iface = .wlRegistry →
      h.opcode = wlRegistryBind → Binds v (msg.drop headerLen) d name → Policy.served name = true →
      Creates .clientToServer false d version clip v v1 → Requested v1 clip
  | answered (v1 v2 : View) (clip1 : Clipboard) : Policy.served iface.name = true →
      Served h.object (msg.drop headerLen) fds v clip iface m.name v1 clip1 →
      Creates .clientToServer false d version clip1 v1 v2 → Requested v2 clip1

inductive Unrequested : View → Clipboard → Prop
  | unserved (v' : View) (clip' : Clipboard) : Unserved h.object iface m.name v clip v' clip' → Unrequested v' clip'
  | passed (v' : View) : Policy.served iface.name = false →
      Checked h iface (msg.drop headerLen) d v true →
      Uncreated .clientToServer true d version clip v v' → Unrequested v' clip
  | bound (name : String) (v' : View) : iface = .wlRegistry → h.opcode = wlRegistryBind →
      Binds v (msg.drop headerLen) d name → Policy.served name = true →
      Uncreated .clientToServer false d version clip v v' → Unrequested v' clip
  | answered (v1 v' : View) (clip1 : Clipboard) : Policy.served iface.name = true →
      Served h.object (msg.drop headerLen) fds v clip iface m.name v1 clip1 →
      Uncreated .clientToServer false d version clip1 v1 v' → Unrequested v' clip1

end View

lemma Served.zone_eq {object : ℕ} {body : Bytes} {fds : List Fd} {v v' : View}
    {clip clip' : Clipboard} {iface : Interface} {request : String}
    (h : Served object body fds v clip iface request v' clip') : v'.zone = v.zone := by
  cases h with
  | sourceDestroy _ ht | cancel _ _ _ _ ht | deviceRelease _ ht => obtain ⟨_, _, rfl⟩ := ht; rfl
  | _ => rfl

/-- How far the policy takes a request: where it leads, what goes out in its
place and what behind it. -/
def Request.Decided (h : Header) (iface : Interface) (m : Message) (body : Bytes) (fds : List Fd)
    (d : Decoded) (w : World) (r : Verdict) (w' : World) : Prop :=
  (∀ msg, Rewrites w.core.zone h iface m d msg (r.rewritten.getD msg)) ∧
  Stamps w.core.zone iface m d r.stamp ∧
  if Policy.served iface.name = true then r.forward = false ∧
    Served h.object body fds w.core.view w.clip iface m.name w'.core.view w'.clip
  else Checked h iface body d w.core.view r.forward ∧ w'.core.view = w.core.view ∧ w'.clip = w.clip

lemma Request.wp_policy (k : Kernel) (h : Header) (iface : Interface) (m : Message)
    (body : Bytes) (fds : List Fd) (d : Decoded) (w : World) :
    wp (Request.policy k h iface m body fds d) (Request.Decided h iface m body fds d w)
      (fun _ w' => Unserved h.object iface m.name w.core.view w.clip w'.core.view w'.clip ∨
        Policy.served iface.name = true ∧
          Served h.object body fds w.core.view w.clip iface m.name w'.core.view w'.clip) w := by
  simp only [Request.policy, onCore, onShm, wp_bind, wp_zoom, wp_pure]
  refine wp_mono (wp_checkBind w.core) (fun forward c1 h1 => ?_) fun _ c he =>
    .inl ⟨he ▸ ⟨rfl, rfl, rfl, rfl⟩, .inl rfl⟩
  have hw1 : ({ core := c1, clip := w.clip } : World).core.view = w.core.view := h1.2
  refine wp_mono (wp_answer forward ⟨c1, w.clip⟩) (fun forward' w2 h2 => ?_) fun _ _ he => .inl (hw1 ▸ he)
  rw [hw1] at h2
  have hzone : w2.core.zone = w.core.zone := by
    split at h2
    · exact Served.zone_eq h2.2
    · rw [h2.2]
      exact congrArg View.zone h1.2
  have hleft : Unserved h.object iface m.name w.core.view w.clip w2.core.view w2.clip ∨
      Policy.served iface.name = true ∧
        Served h.object body fds w.core.view w.clip iface m.name w2.core.view w2.clip := by
    split at h2
    · exact .inr ⟨‹_›, h2.2⟩
    · rw [h2.2]
      exact .inl (hw1 ▸ ⟨⟨rfl, rfl, rfl, rfl⟩, Or.inl rfl⟩)
  refine wp_mono (wp_identity w2.core) (fun r c3 h3 => ?_) fun _ _ he => he ▸ hleft
  have hshm (t : Shm) : ({ c3 with shm := t } : Core).view = w2.core.view := h3.2
  refine wp_of_cases (fun _ t _ => ?_) fun _ t _ => hshm t ▸ hleft
  refine wp_mono (wp_stamp _) (fun stamp c4 h4 => ?_) fun _ _ he => he ▸ hshm t ▸ hleft
  obtain ⟨hs, rfl⟩ := h4
  have hz : c3.zone = w.core.zone := (congrArg View.zone h3.2).trans hzone
  refine ⟨hzone ▸ h3.1, hz ▸ hs, ?_⟩
  rw [hshm t]
  split at h2
  · rwa [if_pos ‹_›]
  · rw [if_neg ‹_›, h2.1, h2.2]
    exact ⟨h1.1, h1.2, rfl⟩

lemma wp_request (k : Kernel) (h : Header) (iface : Interface) (m : Message) (version : ℕ)
    (msg : Bytes) (fds : List Fd) (w : World) :
    wp (handle k .clientToServer h iface m version msg fds) (fun _ w' => ∃ d, decode m (msg.drop headerLen) = .ok d ∧
        Requested h iface m version msg fds d w.core.view w.clip w'.core.view w'.clip)
      (fun _ w' => w' = w ∨ ∃ d, decode m (msg.drop headerLen) = .ok d ∧
        Unrequested h iface m version msg fds d w.core.view w.clip w'.core.view w'.clip) w := by
  simp only [handle, policy, wp_bind, wp_liftWire]
  refine ⟨fun d hd => ?_, fun _ _ => .inl trivial⟩
  refine wp_mono (Request.wp_policy k h iface m _ fds d w) (fun r w1 h1 => ?_) fun _ w' he => ?_
  · obtain ⟨hr, hs, h1⟩ := h1
    have hleft (w' : World) (hu : Uncreated .clientToServer r.forward d version w1.clip w1.core.view
        w'.core.view) (hclip : w'.clip = w1.clip) :
        Unrequested h iface m version msg fds d w.core.view w.clip w'.core.view w'.clip := by
      rw [hclip]
      split at h1
      · exact .answered w1.core.view _ _ ‹_› h1.2 (h1.1 ▸ hu)
      · obtain ⟨hcheck, hv, hclip1⟩ := h1
        rw [hv, hclip1] at hu
        rw [hclip1]
        cases hf : r.forward with
        | true =>
          rw [hf] at hcheck hu
          exact .passed _ (Bool.eq_false_iff.mpr ‹_›) hcheck hu
        | false =>
          rw [hf] at hcheck hu
          obtain ⟨name, hi, ho, hbinds, hserved⟩ := hcheck.bind_of_kept
          exact .bound name _ hi ho hbinds hserved hu
    refine wp_mono (wp_registerNew .clientToServer r.forward d version w1) (fun _ w2 h2 => ?_)
      fun _ w2 h2 => .inr ⟨d, hd, hleft w2 h2.1 h2.2⟩
    simp only [onCore, wp_zoom]
    refine wp_ite (fun hf => ?_) fun hf => ⟨d, hd, ?_⟩
    · refine wp_mono (wp_passUp _ fds r.stamp w2.core) (fun _ c hc => ⟨d, hd, ?_⟩)
        fun _ c hc => .inr ⟨d, hd, hleft ⟨c, w2.clip⟩ ?_ h2.2⟩
      · split at h1
        · rw [h1.1] at hf
          cases hf
        · obtain ⟨hcheck, hv, hclip⟩ := h1
          rw [hf] at hcheck
          rw [hc, h2.2, hclip]
          exact .passed _ _ _ (Bool.eq_false_iff.mpr ‹_›) hcheck (hr msg) hs (hclip ▸ hv ▸ hf ▸ h2.1)
      · rw [hc, hf]
        exact Creates.uncreated (hf ▸ h2.1)
    · have hf' : r.forward = false := by simpa using hf
      rw [hf'] at h2 h1
      rw [h2.2]
      split at h1
      · exact .answered w1.core.view _ _ ‹_› h1.2 h2.1
      · obtain ⟨hcheck, hv, hclip⟩ := h1
        rw [hv, hclip] at h2
        rw [hclip]
        obtain ⟨name, hi, ho, hbinds, hserved⟩ := hcheck.bind_of_kept
        exact .bound name _ (Bool.eq_false_iff.mpr ‹_›) hi ho hbinds hserved h2.1
  · refine .inr ⟨d, hd, ?_⟩
    obtain he | he := he
    · exact .unserved _ _ he
    · exact .answered _ _ _ he.1 he.2 (.inl ⟨rfl, rfl, rfl, rfl⟩)

namespace View

def globalArgs : ArgReader (ℕ × String × ℕ) := do
  return (← ArgReader.u32, (← ArgReader.string).getD "", ← ArgReader.u32)

def listed (iname : String) (cap : ℕ) : String × ℕ := (((find iname).map Interface.name).getD "?", cap)

inductive Announced (h : Header) (iface : Interface) (body : Bytes) (v : View) :
    Verdict → View → Prop
  | shown (gname version allowed : ℕ) (iname : String) : iface = .wlRegistry →
      h.opcode = wlRegistryGlobal → readArgs globalArgs body = .ok (gname, iname, version) →
      Policy.allowedVersion iname v.holdAwake = some allowed →
      Announced h iface body v
        { rewritten := if min allowed version ≠ version then
            (((MessageWriter.new h.object h.opcode).u32 gname).string iname
              |>.u32 (min allowed version)).finish
          else none }
        { v with globals := v.globals.insert gname (listed iname (min allowed version)) }
  | hidden : Announced h iface body v { forward := false } v
  | other : ¬ (iface = .wlRegistry ∧ h.opcode = wlRegistryGlobal) → Announced h iface body v {} v

def Removed (h : Header) (iface : Interface) (body : Bytes) (v : View) (r r' : Verdict) : Prop :=
  if iface = .wlRegistry ∧ h.opcode = wlRegistryGlobalRemove then
    ∃ gname, readArgs ArgReader.u32 body = .ok gname ∧ r' = { r with forward := decide (gname ∈ v.globals) }
  else r' = r

def Blanked (h : Header) (iface : Interface) (r r' : Verdict) : Prop :=
  r' = r ∨ iface = .wlOutput ∧ ∃ w : MessageWriter, w.object = h.object ∧ w.opcode = h.opcode ∧
    w.finish.isSome ∧ r' = { r with rewritten := w.finish }

inductive Focused (iface : Interface) (m : Message) (v : View) (clip : Clipboard) :
    View → Clipboard → Prop
  | enter (v' : View) : iface = .wlKeyboard → m.name = "enter" →
      Offering { clip with focus := some v.id } v.devices v v' →
      Focused iface m v clip v' { clip with focus := some v.id }
  | leave : iface = .wlKeyboard → m.name = "leave" → clip.focus = some v.id →
      Focused iface m v clip v { clip with focus := none }
  | stay : (iface = .wlKeyboard → m.name ≠ "enter") →
      (iface = .wlKeyboard → m.name = "leave" → clip.focus ≠ some v.id) → Focused iface m v clip v clip

inductive Deleted (h : Header) (body : Bytes) (v : View) (r : Verdict) : Verdict → View → Prop
  | placeholder (id n : ℕ) : h.object = wlDisplay → h.opcode = wlDisplayDeleteId →
      readArgs ArgReader.u32 body = .ok id → v.placeholders.lookup id = some n →
      Deleted h body v r { r with forward := false } { v with
        placeholders := if n - 1 = 0 then v.placeholders.erase id
          else v.placeholders.insert id (n - 1) }
  | object (id : ℕ) : h.object = wlDisplay → h.opcode = wlDisplayDeleteId →
      readArgs ArgReader.u32 body = .ok id → v.placeholders.lookup id = none →
      Deleted h body v r r { v with objects := v.objects.erase id }
  | other : ¬ (h.object = wlDisplay ∧ h.opcode = wlDisplayDeleteId) → Deleted h body v r r v

/-- What the compositor's event does: one after another the changes above, the
object it creates, and its way to the client. -/
def Happened (h : Header) (iface : Interface) (m : Message) (version : ℕ) (msg : Bytes)
    (d : Decoded) (v : View) (clip : Clipboard) (v' : View) (clip' : Clipboard) : Prop :=
  ∃ r1 r2 r3 r4 v1 v2 v3 v4, Announced h iface (msg.drop headerLen) v r1 v1 ∧
    Removed h iface (msg.drop headerLen) v1 r1 r2 ∧ Blanked h iface r2 r3 ∧
    Focused iface m v1 clip v2 clip' ∧ Deleted h (msg.drop headerLen) v2 r3 r4 v3 ∧
    Creates .serverToClient r4.forward d version clip' v3 v4 ∧
    v' = if r4.forward = true then v4.sendDown .event (r4.rewritten.getD msg) else v4

def Unhappened (h : Header) (iface : Interface) (m : Message) (version : ℕ) (msg : Bytes)
    (d : Decoded) (v : View) (clip : Clipboard) (v' : View) (clip' : Clipboard) : Prop :=
  ∃ r v1 v2 v3 forward, Announced h iface (msg.drop headerLen) v r v1 ∧
    (v2 = v1 ∧ clip' = clip ∨ Focused iface m v1 clip v2 clip') ∧ Quiet v2 v3 ∧
    Uncreated .serverToClient forward d version clip' v3 v'

end View

lemma Announced.globals_eq {h : Header} {iface : Interface} {body : Bytes} {v v' : View}
    {r : Verdict} (ha : Announced h iface body v r v') : ∃ globals, v' = { v with globals := globals } := by
  cases ha with
  | shown => exact ⟨_, rfl⟩
  | hidden | other => exact ⟨v.globals, rfl⟩

namespace Event

variable {h : Header} {iface : Interface} {m : Message} {body : Bytes}

lemma wp_global (c : Core) : wp (global h iface body)
    (fun r c' => Announced h iface body c.view r c'.view) (fun _ c' => c' = c) c := by
  refine wp_ite (fun hg => ?_) fun hg => .other hg
  simp only [wp_bind, wp_liftWire, wp_get, implies_true, and_true]
  intro a ha
  obtain ⟨gname, iname, version⟩ := a
  cases hv : Policy.allowedVersion iname c.holdAwake with
  | none => exact .hidden
  | some allowed => exact .shown gname version allowed iname hg.1 hg.2 ha hv

lemma wp_globalRemove (r : Verdict) (c : Core) : wp (globalRemove h iface body r)
    (fun r' c' => Removed h iface body c.view r r' ∧ c' = c) (fun _ c' => c' = c) c := by
  unfold globalRemove Removed
  refine wp_ite (fun hg => ?_) fun hg => ?_
  · simp only [if_pos hg, wp_bind, wp_liftWire, wp_get, wp_pure, implies_true, and_true]
    exact fun gname hn => ⟨gname, hn, rfl⟩
  · simp only [if_neg hg]
    exact ⟨rfl, rfl⟩

lemma blanked_ok {c : Core} {w : MessageWriter} (hw : blanked c h m body = .ok w) :
    w.object = h.object ∧ w.opcode = h.opcode := by
  unfold blanked at hw
  split at hw
  · obtain ⟨left, hw⟩ := readArgs_ok hw
    iterate 8 obtain ⟨_, _, _, hw⟩ := ArgReader.bind_ok hw
    cases hw
    exact ⟨rfl, rfl⟩
  · cases hw
    exact ⟨rfl, rfl⟩

lemma wp_output (r : Verdict) (c : Core) : wp (output h iface m body r)
    (fun r' c' => Blanked h iface r r' ∧ c' = c) (fun _ c' => c' = c) c := by
  refine wp_ite (fun hi => ?_) fun _ => ⟨.inl rfl, rfl⟩
  simp only [wp_bind, wp_get, wp_liftWire, wp_orRefuse, wp_pure, implies_true, and_true]
  intro w hw msg hm
  obtain ⟨ho, hop⟩ := blanked_ok hw
  exact .inr ⟨hi.1, w, ho, hop, by simp [hm], by rw [hm]⟩

lemma wp_keyboard (w : World) : wp (keyboard iface m)
    (fun _ w' => Focused iface m w.core.view w.clip w'.core.view w'.clip)
    (fun _ w' => Focused iface m w.core.view w.clip w'.core.view w'.clip) w := by
  refine wp_ite (fun he => ?_) fun he => wp_ite (fun hl => ?_) fun hl => ?_
  · simp only [onClip, onCore, wp_bind, wp_get, wp_modify, wp_zoom]
    exact wp_mono (wp_offerSelection _ _ _) (fun _ _ ho => .enter _ he.1 he.2 ho) fun _ _ ho => .enter _ he.1 he.2 ho
  · refine wp_ite (fun hf => .leave hl.1 hl.2 hf) fun hf => .stay (fun hi hn => he ⟨hi, hn⟩) ?_
    exact fun _ _ => hf
  · exact .stay (fun hi hn => he ⟨hi, hn⟩) fun hi hn => absurd ⟨hi, hn⟩ hl

lemma wp_deleteObject (k : Kernel) (id : ℕ) (c : Core) : wp (deleteObject k id)
    (fun _ c' => c'.view = { c.view with objects := c.objects.erase id })
    (fun _ c' => Quiet c.view c'.view) c := by
  have hrest (c1 : Core) (h1 : c1.view = c.view) : wp (do
        modify (fun c => { c with outputs := c.outputs.erase id })
        onShm (Shm.deleteId k id)
        onObjects (Objects.remove id))
      (fun _ c' => c'.view = { c.view with objects := c.objects.erase id })
      (fun _ c' => Quiet c.view c'.view) c1 := by
    have ho : c1.objects = c.objects := congrArg View.objects h1
    simp only [onShm, onObjects, wp_bind, wp_modify, wp_zoom]
    refine wp_of_cases (fun _ t _ => ?_) fun _ _ _ => h1 ▸ ⟨rfl, rfl, rfl, rfl⟩
    refine wp_mono (Objects.wp_remove c1.objects id) (fun _ o he => ?_) fun _ _ _ => h1 ▸ ⟨rfl, rfl, rfl, rfl⟩
    rw [he, ← ho, ← h1]
    rfl
  unfold deleteObject
  simp only [wp_bind, wp_get]
  split
  · refine (wp_bind _ _).mpr (wp_mono (wp_checkedSub_same _ _ c) (fun _ c1 he => ?_) fun _ _ he => ?_)
    · exact hrest _ rfl
    · exact he ▸ ⟨rfl, rfl, rfl, rfl⟩
  · refine (wp_bind _ _).mpr (wp_mono (wp_checkedSub_same _ _ c) (fun _ c1 he => ?_) fun _ _ he => ?_)
    · exact hrest _ rfl
    · exact he ▸ ⟨rfl, rfl, rfl, rfl⟩
  · exact hrest c rfl

lemma wp_deleteId (k : Kernel) (r : Verdict) (c : Core) : wp (deleteId k h body r)
    (fun r' c' => Deleted h body c.view r r' c'.view) (fun _ c' => Quiet c.view c'.view) c := by
  refine wp_ite (fun hd => ?_) fun hd => .other hd
  simp only [wp_bind, wp_liftWire, endPlaceholder, wp_get]
  refine ⟨fun id hid => ?_, fun _ _ => ⟨rfl, rfl, rfl, rfl⟩⟩
  cases hp : c.placeholders.lookup id with
  | none =>
    simp only [wp_pure, Bool.false_eq_true, if_false, wp_bind]
    refine wp_mono (wp_deleteObject k id c) (fun _ c' hc => ?_) fun _ _ he => he
    rw [hc]
    exact .object id hd.1 hd.2 hid hp
  | some n =>
    simp only [wp_bind]
    refine wp_ite (fun _ => ?_) fun _ => ⟨rfl, rfl, rfl, rfl⟩
    exact .placeholder id n hd.1 hd.2 hid hp

end Event

lemma wp_event (k : Kernel) (h : Header) (iface : Interface) (m : Message) (version : ℕ)
    (msg : Bytes) (fds : List Fd) (w : World) :
    wp (handle k .serverToClient h iface m version msg fds) (fun _ w' => ∃ d, decode m (msg.drop headerLen) = .ok d ∧
        Happened h iface m version msg d w.core.view w.clip w'.core.view w'.clip)
      (fun _ w' => w' = w ∨ ∃ d, decode m (msg.drop headerLen) = .ok d ∧
        Unhappened h iface m version msg d w.core.view w.clip w'.core.view w'.clip) w := by
  simp only [handle, policy, Event.policy, onCore, wp_bind, wp_zoom, wp_liftWire]
  refine ⟨fun d hd => ?_, fun _ _ => .inl trivial⟩
  refine wp_mono (Event.wp_global w.core) (fun r1 c1 h1 => ?_) fun _ _ he => .inl (by rw [he])
  have hquiet (v' : View) (hq : Quiet c1.view v') : Unhappened h iface m version msg d w.core.view w.clip v' w.clip :=
    ⟨r1, c1.view, c1.view, v', true, h1, .inl ⟨rfl, rfl⟩, hq, .inl (.refl _)⟩
  refine wp_mono (Event.wp_globalRemove r1 c1) (fun r2 c h2 => ?_) fun _ c he =>
    .inr ⟨d, hd, hquiet _ (he ▸ ⟨rfl, rfl, rfl, rfl⟩)⟩
  obtain ⟨h2, rfl⟩ := h2
  refine wp_mono (Event.wp_output r2 c) (fun r3 c' h3 => ?_) fun _ _ he =>
    .inr ⟨d, hd, hquiet _ (he ▸ ⟨rfl, rfl, rfl, rfl⟩)⟩
  obtain ⟨h3, rfl⟩ := h3
  have hkept (v2 v3 v' : View) (clip' : Clipboard) (forward : Bool)
      (hf : Focused iface m c'.view w.clip v2 clip') (hq : Quiet v2 v3)
      (hu : Uncreated .serverToClient forward d version clip' v3 v') :
      Unhappened h iface m version msg d w.core.view w.clip v' clip' :=
    ⟨r1, c'.view, v2, v3, forward, h1, .inr hf, hq, hu⟩
  refine wp_mono (Event.wp_keyboard ⟨c', w.clip⟩) (fun _ w2 h4 => ?_) fun _ w2 h4 =>
    .inr ⟨d, hd, hkept _ _ _ _ true h4 (.refl _) (.inl (.refl _))⟩
  refine wp_mono (Event.wp_deleteId k r3 w2.core) (fun r4 c3 h5 => ?_) fun _ c3 hq =>
    .inr ⟨d, hd, hkept _ _ _ _ true h4 hq (.inl (.refl _))⟩
  have hq : Quiet w2.core.view c3.view := by
    generalize c3.view = v3 at h5
    cases h5 <;> exact ⟨rfl, rfl, rfl, rfl⟩
  refine wp_mono (wp_registerNew .serverToClient r4.forward d version ⟨c3, w2.clip⟩)
    (fun _ w4 h6 => ?_) fun _ w4 hu => .inr ⟨d, hd, hu.2 ▸ hkept _ _ _ _ _ h4 hq hu.1⟩
  refine wp_ite (fun hf => ?_) fun hf => ⟨d, hd, ?_⟩
  · refine wp_mono (wp_passDown _ fds r4.stamp w4.core) (fun _ c hc => ⟨d, hd, ?_⟩) fun _ c hc => ?_
    · rw [h6.2]
      exact ⟨r1, r2, r3, r4, _, _, _, _, h1, h2, h3, h4, h5, h6.1, by rw [if_pos hf]; exact hc⟩
    · refine .inr ⟨d, hd, ?_⟩
      rw [hc, h6.2]
      exact hkept _ _ _ _ true h4 hq (Creates.uncreated (hf ▸ h6.1))
  · rw [h6.2]
    exact ⟨r1, r2, r3, r4, _, _, _, _, h1, h2, h3, h4, h5, h6.1, by rw [if_neg hf]⟩

end Kryptik.Wlproxy
