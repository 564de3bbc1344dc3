import Kryptik.Wlproxy.Frames
import Kryptik.Wlproxy.Reader
import Kryptik.Wlproxy.Titles

namespace Kryptik.Wlproxy

open Lib Prog Tables Wire Protocol View List Option Function Policy Names

namespace Call

def Is (c : Call) (iface : Interface) (request : String) : Prop := c.iface = iface ∧ c.request = request

def text (c : Call) : Option String :=
  c.args.toOption.bind (fun d => d.strings.head?.map Prod.snd)

end Call

/-- What a stream says of its windows: each new one is stamped at once, every app
id is the zone's, and every title starts with the zone. -/
structure Named (zone : String) (cs : List (Option Call)) : Prop where
  stamped : ∀ (n : ℕ) (c : Call), cs[n]? = some (some c) → c.Is .xdgSurface "get_toplevel" →
    ∃ id next, c.created = some (id, "xdg_toplevel") ∧ cs[n + 1]? = some (some next) ∧
      next.Is .xdgToplevel "set_app_id" ∧ next.object = id ∧
      next.text = some ("kryptik." ++ zone ++ ".app")
  appIds : ∀ c : Call, some c ∈ cs → c.Is .xdgToplevel "set_app_id" →
    ∃ name : List Char, c.text = some ("kryptik." ++ zone ++ "." ++ String.ofList name) ∧
      1 ≤ name.length ∧ name.length ≤ 64 ∧ ∀ x ∈ name, Policy.isIdentChar x = true
  titles : ∀ c : Call, some c ∈ cs → c.Is .xdgToplevel "set_title" →
    ∃ title, c.text = some title ∧ title.utf8ByteSize ≤ Policy.maxTitleBytes ∧
      (∃ shown, title = "[" ++ zone ++ "] " ++ shown) ∧
      ∀ x ∈ title.toList, Policy.isControl x = false ∧ Policy.isBidi x = false

namespace Named

variable {zone : String} {cs cs' : List (Option Call)}

lemma nil (zone : String) : Named zone [] :=
  ⟨fun _ _ h => by simp at h, fun _ h => by simp at h, fun _ h => by simp at h⟩

lemma append (h : Named zone cs) (h' : Named zone cs') : Named zone (cs ++ cs') where
  stamped n c hc his := by
    obtain hn | hn := Nat.lt_or_ge n cs.length
    · rw [getElem?_append_left hn] at hc
      obtain ⟨id, next, hid, hnext, hrest⟩ := h.stamped n c hc his
      have hlt := (List.getElem?_eq_some_iff.mp hnext).1
      exact ⟨id, next, hid, by rw [getElem?_append_left hlt]; exact hnext, hrest⟩
    · rw [getElem?_append_right hn] at hc
      obtain ⟨id, next, hid, hnext, hrest⟩ := h'.stamped _ c hc his
      refine ⟨id, next, hid, ?_, hrest⟩
      rw [getElem?_append_right (by omega), Nat.sub_add_comm hn]
      exact hnext
  appIds c hc := by
    obtain hc | hc := mem_append.mp hc
    · exact h.appIds c hc
    · exact h'.appIds c hc
  titles c hc := by
    obtain hc | hc := mem_append.mp hc
    · exact h.titles c hc
    · exact h'.titles c hc

lemma other {c : Option Call} (h : ∀ x, c = some x → ¬ x.Is .xdgSurface "get_toplevel" ∧
    ¬ x.Is .xdgToplevel "set_app_id" ∧ ¬ x.Is .xdgToplevel "set_title") : Named zone [c] where
  stamped n x hx his := by
    have : some x ∈ [c] := mem_of_getElem? hx
    exact absurd his (h x (mem_singleton.mp this).symm).1
  appIds x hx his := absurd his (h x (mem_singleton.mp hx).symm).2.1
  titles x hx his := absurd his (h x (mem_singleton.mp hx).symm).2.2

end Named

namespace Names

variable {names : Names} {msg : Bytes} {h : Header} {iface : Interface} {m : Message} {id x : ℕ} {zone : String}

lemma call_eq (hp : Header.parse msg = .ok h) (hn : names h.object = some iface)
    (hm : (iface.table .clientToServer)[h.opcode]? = some m) :
    names.call msg = some ⟨h.object, iface, m.name, decode m (msg.drop headerLen)⟩ := by
  simp [call, hp, hn, hm, Except.toOption]

lemma call_some {c : Call} (hp : Header.parse msg = .ok h) (hc : names.call msg = some c) :
    ∃ m, (c.iface.table .clientToServer)[h.opcode]? = some m ∧ c.request = m.name ∧
      c.args = decode m (msg.drop headerLen) := by
  simp only [call, hp, Except.toOption, Option.bind_eq_bind, Option.bind_some, Option.bind_eq_some_iff,
    Option.pure_def, Option.some.injEq] at hc
  obtain ⟨iface, _, m, hm, rfl⟩ := hc
  exact ⟨m, hm, rfl, rfl⟩

lemma read_ne (h : ∀ c y name, names.call msg = some c → c.created = some (y, name) → y = id)
    (hx : x ≠ id) : names.read msg x = names x := by
  unfold read
  cases hc : (names.call msg).bind Call.created with
  | none => rfl
  | some o =>
    obtain ⟨c, hc, ho⟩ := bind_eq_some_iff.mp hc
    exact update_of_ne (h c o.1 o.2 hc ho ▸ hx) _ _

lemma parse_syncOn (hf : (syncOn id).finish = some msg) : ∃ h, Header.parse msg = .ok h ∧ h.opcode = wlDisplaySync ∧
      msg.drop headerLen = Words.bytes id := by
  obtain ⟨h, hp, _, ho, _, hb⟩ := MessageWriter.parse_finish hf (show wlDisplaySync < 2 ^ 16 by decide)
  exact ⟨h, hp, ho, hb⟩

lemma read_syncOn (hf : (syncOn id).finish = some msg) (hid : id < 2 ^ 32) (hx : x ≠ id) :
    names.read msg x = names x := by
  obtain ⟨h, hp, _, hb⟩ := parse_syncOn hf
  refine read_ne (fun c y name hc hy => ?_) hx
  obtain ⟨m, _, _, hargs⟩ := call_some hp hc
  obtain ⟨d, hd, hy⟩ := bind_eq_some_iff.mp hy
  cases ha : c.args with
  | error e => rw [ha] at hd; cases hd
  | ok d' =>
    rw [ha] at hd
    cases hd
    rw [ha, hb] at hargs
    rw [decode_word hargs.symm hy, Nat.mod_eq_of_lt hid]

lemma sync_names : ∀ i : Interface, ∀ m, (i.table .clientToServer)[wlDisplaySync]? = some m →
    i = .xdgSurface ∨ i = .xdgToplevel → m.name = "destroy" := by
  rintro i m hm (rfl | rfl)
  · cases hm
    rfl
  · cases hm
    rfl

lemma named_syncOn (hf : (syncOn id).finish = some msg) : Named zone (names.calls [msg]) := by
  obtain ⟨h, hp, ho, _⟩ := parse_syncOn hf
  refine .other fun c hc => ?_
  obtain ⟨m, hm, hname, _⟩ := call_some hp hc
  rw [ho] at hm
  have hd := sync_names c.iface m hm
  refine ⟨fun his => ?_, fun his => ?_, fun his => ?_⟩
  · have := his.2.symm.trans (hname.trans (hd (.inl his.1)))
    simp at this
  · have := his.2.symm.trans (hname.trans (hd (.inr his.1)))
    simp at this
  · have := his.2.symm.trans (hname.trans (hd (.inr his.1)))
    simp at this

lemma call_text {object opcode : ℕ} {text : String} {out : Bytes}
    (hf : ((MessageWriter.new object opcode).string text).finish = some out) (ho : object < 2 ^ 32)
    (hop : opcode < 2 ^ 16) (hn : names object = some iface)
    (hm : (iface.table .clientToServer)[opcode]? = some m) (ha : m.args = [.string false])
    (ht : NulFree text) :
    names.call out = some ⟨object, iface, m.name, .ok { strings := [(0, text)] }⟩ := by
  obtain ⟨h, hp, hobj, hopc, hs, hb⟩ := MessageWriter.parse_finish hf hop
  have hobj' : h.object = object := hobj.trans (Nat.mod_eq_of_lt ho)
  have hopc' : h.opcode = opcode := hopc
  have hb' : out.drop headerLen = MessageWriter.stringBytes text := hb
  have hlen : (utf8 text).length + 1 < 2 ^ 32 := by
    have h1 := MessageWriter.length_stringBytes text
    have h2 := h.size_le
    rw [← hb', length_drop] at h1
    unfold pad4 at h1
    unfold maxMessageLen at h2
    omega
  rw [call_eq hp (hobj' ▸ hn) (hopc' ▸ hm), hb', decode_string ha ht hlen, hobj']

end Names

section Requests

variable {zone : String} {h : Header} {iface : Interface} {m : Message} {d : Decoded} {v : View}
  {msg out : Bytes} {version : ℕ} {names : Names} {stamp : Option Bytes}

lemma identity_args : ∀ m ∈ Interface.xdgToplevel.table .clientToServer,
    m.name = "set_title" ∨ m.name = "set_app_id" → m.args = [.string false] := by
  decide

lemma call_rewrites (hz : zoneOk zone = true) (ht : Taken v .clientToServer h iface m version msg)
    (hn : names h.object = some iface) (hd : decode m (msg.drop headerLen) = .ok d)
    (hr : Rewrites zone h iface m d msg out) :
    ∃ d', names.call out = some ⟨h.object, iface, m.name, .ok d'⟩ ∧ d'.newObject = d.newObject ∧
      (iface = .xdgToplevel → m.name = "set_title" → ∃ s, d'.strings = [(0, titleFor zone s)]) ∧
      (iface = .xdgToplevel → m.name = "set_app_id" → ∃ s, d'.strings = [(0, appIdFor zone s)]) := by
  unfold Rewrites at hr
  split at hr
  · rename_i hi
    obtain ⟨rfl, hname⟩ := hi
    have ha := identity_args m (mem_of_getElem? ht.entry) hname
    obtain ⟨off, s, hs⟩ := decode_strings ha hd
    rw [hs] at hr
    have hnew : d.newObject = none := by
      cases decode_makes hd with
      | none h => exact h
      | typed _ _ _ hin | named _ _ _ _ hin => simp [ha] at hin
    refine ⟨_, call_text hr h.object_lt h.opcode_lt hn ht.entry ha ?_, hnew.symm,
      fun _ hn => ⟨s, by rw [if_pos hn]⟩, fun _ hn => ⟨s, by rw [if_neg (by rw [hn]; decide)]⟩⟩
    split
    · exact titleFor_nulFree hz s
    · exact appIdFor_nulFree hz s
  · rename_i hi
    subst hr
    refine ⟨d, hd ▸ call_eq ht.parse hn ht.entry, rfl, fun hx hn => ?_, fun hx hn => ?_⟩
    · exact absurd ⟨hx, .inl hn⟩ hi
    · exact absurd ⟨hx, .inr hn⟩ hi

lemma Named.call {c : Call} (hs : ¬ c.Is .xdgSurface "get_toplevel")
    (ht : c.Is .xdgToplevel "set_title" → ∃ s, c.text = some (titleFor zone s))
    (ha : c.Is .xdgToplevel "set_app_id" → ∃ s, c.text = some (appIdFor zone s))
    (hz : zoneOk zone = true) : Named zone [some c] where
  stamped n x hx his := by
    have hin : some x ∈ [some c] := mem_of_getElem? hx
    cases mem_singleton.mp hin
    exact absurd his hs
  appIds x hx his := by
    cases mem_singleton.mp hx
    obtain ⟨s, hs⟩ := ha his
    obtain ⟨name, hn, hname⟩ := appIdFor_spec zone s
    exact ⟨name, hn ▸ hs, hname⟩
  titles x hx his := by
    cases mem_singleton.mp hx
    obtain ⟨s, hs⟩ := ht his
    obtain ⟨shown, hshown, hsize, hplain⟩ := titleFor_spec hz s
    exact ⟨_, hs, hsize, ⟨shown, hshown⟩, hplain⟩

lemma Named.window {c next : Call} {id : ℕ} (hc : c.Is .xdgSurface "get_toplevel")
    (hid : c.created = some (id, "xdg_toplevel")) (hn : next.Is .xdgToplevel "set_app_id")
    (ho : next.object = id) (ht : next.text = some (appIdFor zone "")) :
    Named zone [some c, some next] where
  stamped n x hx his := by
    match n with
    | 0 =>
      obtain rfl : c = x := by simpa using hx
      exact ⟨id, next, hid, rfl, hn, ho, appIdFor_empty zone ▸ ht⟩
    | 1 =>
      obtain rfl : next = x := by simpa using hx
      exact absurd (hn.1.symm.trans his.1) (by decide)
    | n + 2 => simp at hx
  appIds x hx his := by
    obtain hx | hx := mem_cons.mp hx
    · cases hx
      exact absurd (hc.1.symm.trans his.1) (by decide)
    · cases mem_singleton.mp hx
      obtain ⟨name, hn, hname⟩ := appIdFor_spec zone ""
      exact ⟨name, hn ▸ ht, hname⟩
  titles x hx his := by
    obtain hx | hx := mem_cons.mp hx
    · cases hx
      exact absurd (hc.1.symm.trans his.1) (by decide)
    · cases mem_singleton.mp hx
      exact absurd (hn.2.symm.trans his.2) (by decide)

lemma named_passed (hz : zoneOk zone = true)
    (ht : Taken v .clientToServer h iface m version msg) (hn : names h.object = some iface)
    (hd : decode m (msg.drop headerLen) = .ok d) (hr : Rewrites zone h iface m d msg out)
    (hs : Stamps zone iface m d stamp) : Named zone (names.calls (out :: stamp.toList)) ∧
      (out :: stamp.toList).foldl Names.read names = names.after d.newObject := by
  obtain ⟨d', hcall, hnew, htitle, happ⟩ := call_rewrites hz ht hn hd hr
  have hread : names.read out = names.after d.newObject := by
    rw [Names.read, hcall, ← hnew]
    rfl
  unfold Stamps at hs
  split at hs
  · rename_i hi
    obtain ⟨rfl, hname⟩ := hi
    obtain ⟨id, hid, hd1⟩ := made_window (mem_of_getElem? ht.entry) hname hd
    rw [hd1] at hs
    obtain ⟨opcode, hop, hsome, hf⟩ := hs
    obtain ⟨st, rfl⟩ := isSome_iff_exists.mp hsome
    obtain rfl : opcode = 3 := (Option.some.inj (hop.symm.trans (by decide)))
    have hstamp : (names.read out).call st = some ⟨id, .xdgToplevel, "set_app_id",
        .ok { strings := [(0, appIdFor zone "")] }⟩ := by
      refine call_text hf hid (by decide) ?_ (m := ⟨"set_app_id", [.string false], 0, 1⟩) rfl rfl
        (appIdFor_nulFree hz "")
      rw [hread, hd1]
      exact update_self _ _ _
    refine ⟨?_, ?_⟩
    · have hcalls : names.calls (out :: [st]) = [names.call out, (names.read out).call st] := rfl
      rw [toList_some, hcalls, hcall, hstamp]
      exact .window ⟨rfl, hname⟩ (hnew.trans hd1) ⟨rfl, rfl⟩ rfl rfl
    · have hlast : (names.read out).read st = names.read out := by
        rw [Names.read, hstamp]
        rfl
      rw [toList_some, foldl_cons, foldl_cons, foldl_nil, hlast, hread]
  · rename_i hi
    subst hs
    refine ⟨?_, hread⟩
    have hcalls : names.calls (out :: toList none) = [names.call out] := rfl
    rw [hcalls, hcall]
    refine .call hi (fun his => ?_) (fun his => ?_) hz
    · obtain ⟨s, hs⟩ := htitle his.1 his.2
      exact ⟨s, by simp [Call.text, Except.toOption, hs]⟩
    · obtain ⟨s, hs⟩ := happ his.1 his.2
      exact ⟨s, by simp [Call.text, Except.toOption, hs]⟩

end Requests

def View.names (v : View) : Names := (v.sentUp.map Sent.bytes).foldl Names.read Names.start

def View.calls (v : View) : List (Option Call) := Names.start.calls (v.sentUp.map Sent.bytes)

/-- The compositor takes the objects it knows for what the proxy takes them, and
everything it was told of windows is named. -/
structure Identified (zone : String) (v : View) : Prop where
  zone_eq : v.zone = zone
  named : Named zone v.calls
  names : ∀ id i, v.objects.forwarded id = some i → v.names id = some i

variable {zone : String} {v v' : View} {clip clip' : Clipboard} {dir : Dir} {sent : List Sent}
  {h : Header} {iface : Interface} {m : Message} {version id : ℕ} {msg : Bytes} {d : Decoded}

lemma calls_sent (h : v'.sentUp = v.sentUp ++ sent) : v'.calls = v.calls ++ v.names.calls (sent.map Sent.bytes) := by
  rw [View.calls, h, map_append, calls_append]
  rfl

lemma names_sent (h : v'.sentUp = v.sentUp ++ sent) : v'.names = (sent.map Sent.bytes).foldl Names.read v.names := by
  rw [View.names, h, map_append, foldl_append]
  rfl

lemma Named.same (h : Named zone v.calls) (hu : v'.sentUp = v.sentUp) : Named zone v'.calls := by
  rwa [View.calls, hu]

lemma Named.placeholder (h : Named zone v.calls) {objects : Objects} (hf : (syncOn id).finish = some msg)
    (hu : v'.sentUp = v.sentUp ++ [⟨.placeholder, msg, objects⟩]) : Named zone v'.calls := by
  rw [calls_sent hu]
  exact h.append (named_syncOn hf)

lemma Identified.steady (h : Identified zone v) (hs : Steady v v') : Identified zone v' where
  zone_eq := (congrArg Prod.fst hs.settings).trans h.zone_eq
  named := h.named.same hs.sentUp
  names x i hx := by
    rw [View.names, hs.sentUp]
    exact h.names x i (hs.forwarded ▸ hx)

lemma Identified.reserved (h : Identified zone v) (hr : Reserved id v v') : Identified zone v' := by
  obtain ⟨msg, objects, hf, hu⟩ := hr.sentUp
  obtain ⟨i, hi, hfresh⟩ := hr.fresh
  refine ⟨(congrArg Prod.fst hr.settings).trans h.zone_eq, h.named.placeholder hf hu, fun x j hx => ?_⟩
  rw [hfresh.forwarded, if_pos hi] at hx
  by_cases hid : x = id
  · rw [hid, update_self] at hx
    cases hx
  · rw [update_of_ne hid] at hx
    have hlt := hfresh.id_lt
    rw [names_sent hu]
    refine (read_syncOn hf ?_ hid).trans (h.names x j hx)
    unfold serverIdBase at hlt
    omega

lemma Identified.passed (hz : zoneOk zone = true) (h' : Identified zone v)
    (ht : Taken v .clientToServer h iface m version msg) (hd : decode m (msg.drop headerLen) = .ok d)
    (hp : Passed h iface m msg d v v') : Identified zone v' := by
  obtain ⟨out, stamp, hr, hs, hu⟩ := hp.sentUp
  rw [h'.zone_eq] at hr hs
  obtain ⟨hnamed, hnames⟩ := named_passed hz ht (h'.names _ _ hp.known) hd hr hs
  have hbytes (o : Objects) : (⟨.request, out, o⟩ :: stamp.toList.map (fun s => ⟨.stamp, s, o⟩)).map
      Sent.bytes = out :: stamp.toList := by
    cases stamp <;> rfl
  refine ⟨(congrArg Prod.fst hp.settings).trans h'.zone_eq, ?_, fun x i hx => ?_⟩
  · rw [calls_sent hu, hbytes]
    exact h'.named.append hnamed
  · rw [names_sent hu, hbytes, hnames]
    have hshares := hp.shares
    unfold Shares at hshares
    split at hshares
    · rename_i hnew
      rw [hshares] at hx
      rw [hnew]
      exact h'.names x i hx
    · rename_i id name hnew
      obtain ⟨j, rfl, hserved, hfresh⟩ := hshares
      rw [hfresh.forwarded, if_neg (by simp [hserved])] at hx
      rw [hnew, Names.after, find_name]
      by_cases hid : x = id
      · subst hid
        rwa [update_self] at hx ⊢
      · rw [update_of_ne hid] at hx ⊢
        exact h'.names x i hx

lemma Identified.deleted {r r' : Verdict} {body : Bytes} (h' : Identified zone v)
    (hd : Deleted h body v r r' v') : Identified zone v' := by
  cases hd with
  | placeholder => exact ⟨h'.zone_eq, h'.named, h'.names⟩
  | object id =>
    refine ⟨h'.zone_eq, h'.named, fun x i hx => h'.names x i ?_⟩
    rw [Objects.forwarded_erase] at hx
    by_cases hid : x = id
    · rw [hid, update_self] at hx
      cases hx
    · rwa [update_of_ne hid] at hx
  | other => exact h'

lemma Identified.message (hz : zoneOk zone = true) (h' : Identified zone v)
    (hm : Messaged v clip v' clip' dir) : Identified zone v' := by
  cases hm with
  | request ht _ hd hr =>
    obtain hs | ⟨id, hr⟩ | hp := requested_cases ht hd hr
    · exact h'.steady hs
    · exact h'.reserved hr
    · exact h'.passed hz ht hd hp
  | event ht hd hh =>
    obtain ⟨r, r', v1, v2, v3, h1, h2, h3, hv⟩ := happened_cases ht hd hh
    have h4 := ((h'.steady h1).deleted h2).steady h3
    rw [hv]
    split
    · exact ⟨h4.zone_eq, h4.named, h4.names⟩
    · exact h4

lemma Served.sentUp_eq {object : ℕ} {body : Bytes} {fds : List Fd} {request : String}
    (hs : Served object body fds v clip iface request v' clip') : v'.sentUp = v.sentUp := by
  cases hs with
  | sourceDestroy _ ht | cancel _ _ _ _ ht | deviceRelease _ ht => exact (Steady.tells ht).sentUp
  | _ => rfl

lemma Named.uncreated {forward : Bool} (h' : Named zone v.calls)
    (hu : Uncreated dir forward d version clip v v') : Named zone v'.calls := by
  obtain hq | ⟨id, name, v1, v2, _, hr, ha, hv⟩ := hu
  · exact h'.same hq.1
  · have h2 : Named zone v2.calls :=
      (h'.same (Registers.quiet hr).1).same (Steady.advertised ha).sentUp
    obtain rfl | ⟨_, _, v3, ⟨msg, hm, hv3⟩, ho⟩ := hv
    · exact h2
    · exact (h2.placeholder hm (congrArg View.sentUp hv3)).same (Steady.offering ho).sentUp

lemma Named.refused (h' : Named zone v.calls) (hu : Unmessaged v clip v' clip' dir) : Named zone v'.calls := by
  cases hu with
  | same _ hv => exact hv ▸ h'
  | request _ _ hu =>
    cases hu with
    | unserved _ _ hq => exact h'.same hq.1.1
    | passed _ _ _ hu | bound _ _ _ _ _ _ hu => exact h'.uncreated hu
    | answered _ _ _ _ hs hu => exact (h'.same (Served.sentUp_eq hs)).uncreated hu
  | event _ _ hu =>
    obtain ⟨_, v1, v2, v3, _, ha, hv2, hq, hu⟩ := hu
    obtain ⟨globals, hg⟩ := Announced.globals_eq ha
    have h1 : Named zone v1.calls := h'.same (by rw [hg])
    have h2 : Named zone v2.calls := by
      obtain ⟨rfl, _⟩ | hf := hv2
      · exact h1
      · exact h1.same (Steady.focused hf).sentUp
    exact (h2.same hq.1).uncreated hu

lemma stable_identified (hz : zoneOk zone = true) : Stable (Identified zone) (fun v => Named zone v.calls) where
  message h hm := h.message hz hm
  refused h hu := h.named.refused hu
  acted h ha := h.steady (Steady.acted ha)
  unacted h ho := h.named.same (Steady.offering ho).sentUp

lemma identified_opened (zone : String) (holdAwake : Bool) (id : ℕ) :
    Identified zone (Session.opened zone holdAwake id).core.view where
  zone_eq := rfl
  named := .nil zone
  names x i hx := by
    have hx' : (Objects.new (.wlDisplay, 1)).forwarded x = some i := hx
    rw [Objects.forwarded, Objects.get_new] at hx'
    by_cases h1 : x = 1
    · subst h1
      exact hx'
    · simp [h1] at hx'

namespace Session

def upstream (s : Session) : Bytes := (s.core.server.queued.map Prod.fst).flatten

lemma messages_upstream {s : Session} (h : s.core.queues.Recorded) :
    messages s.upstream = s.core.view.sentUp.map Sent.bytes := by
  have hup : s.core.server.queued.map Prod.fst = s.core.sentUp.map Sent.bytes := h.up.symm
  rw [upstream, hup]
  refine messages_flatten fun msg hmsg => ?_
  obtain ⟨sent, hin, rfl⟩ := mem_map.mp hmsg
  exact h.whole sent hin

/-- Whatever a client does and however its session ends, every window it opens, and
every title and app id, reaches the compositor under the zone's name. -/
theorem run_named {zone : String} (hz : zoneOk zone = true) (holdAwake : Bool) (id : ℕ) (inputs : List Input) :
    Named zone (Names.start.calls (messages (final inputs (opened zone holdAwake id)).upstream)) := by
  have h := (stable_identified hz).run inputs _ (identified_opened zone holdAwake id)
  have h' := sound_run inputs (sound_opened zone holdAwake id)
  refine final_of_wp (P := fun s => Named zone (Names.start.calls (messages s.upstream))) ?_
  refine wp_mono (wp_and h h') (fun _ s hs => ?_) fun _ s hs => ?_
  · rw [messages_upstream hs.2.queues.recorded]
    exact hs.1.named
  · rw [messages_upstream hs.2.2]
    exact hs.1

/-- A client that opens a window and claims another zone's title for it. -/
def sampleWindow : List Input :=
  let registry := MessageWriter.new 2
  [.arrive .clientToServer ((MessageWriter.new wlDisplay 1).u32 2).bytes [], .pump .willing .clientToServer {},
    .arrive .serverToClient ((((registry 0).u32 1).string "wl_compositor").u32 6).bytes [],
    .arrive .serverToClient ((((registry 0).u32 2).string "xdg_wm_base").u32 6).bytes [],
    .pump .willing .serverToClient {},
    .arrive .clientToServer (((((registry 0).u32 1).string "wl_compositor").u32 6).u32 3).bytes [],
    .arrive .clientToServer (((((registry 0).u32 2).string "xdg_wm_base").u32 6).u32 4).bytes [],
    .arrive .clientToServer ((MessageWriter.new 3 0).u32 5).bytes [],
    .arrive .clientToServer (((MessageWriter.new 4 2).u32 6).u32 5).bytes [],
    .arrive .clientToServer ((MessageWriter.new 6 1).u32 7).bytes [],
    .arrive .clientToServer ((MessageWriter.new 7 2).string "[vault] notes\n").bytes [],
    .pump .willing .clientToServer {}]

theorem run_named_work : zoneOk "work" = true ∧ Named "work"
    (Names.start.calls (messages (final sampleWindow (opened "work" false 1)).upstream)) :=
  ⟨by decide +kernel, run_named (by decide +kernel) false 1 sampleWindow⟩

-- What the client's window and its title become.
example : (Names.start.calls (messages (final sampleWindow (opened "work" false 1)).upstream)).filterMap
      (fun c => c.bind (fun c => c.text.map (fun text => (c.request, text)))) =
    [("set_app_id", "kryptik.work.app"), ("set_title", "[work] [vault] notes ")] := by
  decide +kernel

end Session

end Kryptik.Wlproxy
