import Kryptik.Wlproxy.SessionRun

namespace Kryptik.Wlproxy

open Lib Prog Tables Wire Protocol

namespace View

/-- A message taken from the input: whole, and of a live object. -/
structure Taken (v : View) (dir : Dir) (h : Header) (iface : Interface) (m : Message)
    (version : ℕ) (msg : Bytes) : Prop where
  live : v.objects.get h.object = some (iface, version)
  entry : (iface.table dir)[h.opcode]? = some m
  since : m.since ≤ version
  unplaced : dir = .serverToClient → h.object ∉ v.placeholders
  parse : Header.parse msg = .ok h
  size : msg.length = h.size

inductive Messaged (v : View) (clip : Clipboard) (v' : View) (clip' : Clipboard) : Dir → Prop
  | request {h : Header} {iface : Interface} {m : Message} {version : ℕ} {msg : Bytes}
      {fds : List Fd} {d : Decoded} : Taken v .clientToServer h iface m version msg →
      fds.length = m.fds → decode m (msg.drop headerLen) = .ok d →
      Requested h iface m version msg fds d v clip v' clip' → Messaged v clip v' clip' .clientToServer
  | event {h : Header} {iface : Interface} {m : Message} {version : ℕ} {msg : Bytes} {d : Decoded} :
      Taken v .serverToClient h iface m version msg → decode m (msg.drop headerLen) = .ok d →
      Happened h iface m version msg d v clip v' clip' → Messaged v clip v' clip' .serverToClient

inductive Unmessaged (v : View) (clip : Clipboard) (v' : View) (clip' : Clipboard) : Dir → Prop
  | same (dir : Dir) : v' = v → clip' = clip → Unmessaged v clip v' clip' dir
  | request {h : Header} {iface : Interface} {m : Message} {version : ℕ} {msg : Bytes}
      {fds : List Fd} {d : Decoded} : Taken v .clientToServer h iface m version msg →
      decode m (msg.drop headerLen) = .ok d →
      Unrequested h iface m version msg fds d v clip v' clip' →
      Unmessaged v clip v' clip' .clientToServer
  | event {h : Header} {iface : Interface} {m : Message} {version : ℕ} {msg : Bytes} {d : Decoded} :
      Taken v .serverToClient h iface m version msg → decode m (msg.drop headerLen) = .ok d →
      Unhappened h iface m version msg d v clip v' clip' → Unmessaged v clip v' clip' .serverToClient

inductive Acted (clip : Clipboard) (v : View) : Action → View → Prop
  | offer (s : ℕ) (v' : View) : clip.focus = some v.id → Offering clip v.devices v v' →
      Acted clip v (.offer s) v'
  | cancel (s source : ℕ) (v' : View) : source ∈ v.sources →
      Tells (MessageWriter.new source wlDataSourceCancelled) v v' →
      Acted clip v (.cancel s source) v'
  | send (s source : ℕ) (mime : String) (fd : Fd) (asked : Option ℕ) (src : Source) (v1 : View) :
      v.sources.lookup source = some src →
      Tells ((MessageWriter.new source wlDataSourceSend).string mime) v v1 →
      Acted clip v (.send s source mime fd asked)
        { v1 with handed := v1.handed ++ [⟨source, src.birth, mime, fd, asked⟩] }
  | nothing (a : Action) : Acted clip v a v

end View

open View

namespace Session

variable {k : Kernel} {dir : Dir}

lemma taken {s : Session} {h : Header} {iface : Interface} {m : Message} {version : ℕ}
    (hn : next s.core dir (s.inbound dir) = .take h iface m version) :
    Taken s.core.view dir h iface m version (s.msg dir h) := by
  obtain ⟨hp, hs, hu, hl, _⟩ := next_take hn
  obtain ⟨hg, hm, hv⟩ := Core.lookup_ok hl
  obtain ⟨hp', hs'⟩ := parse_msg hp hs
  exact ⟨hg, hm, hv, fun hd hin => hu ⟨hd, hin⟩, hp', hs'⟩

lemma messaged_pumpOnce (k : Kernel) (dir : Dir) (s : Session) (clip : Clipboard) : wp (pumpOnce k dir)
      (fun _ x => x.1.core.view = s.core.view ∧ x.2 = clip ∨ Messaged s.core.view clip x.1.core.view x.2 dir)
      (fun _ x => Unmessaged s.core.view clip x.1.core.view x.2 dir) (s, clip) := by
  refine wp_pumpOnce (fun _ => .inl ⟨rfl, rfl⟩) (fun e _ => .same dir rfl rfl) (fun n _ => .inl ?_)
    fun h iface m version hn => ?_
  · exact ⟨congrArg Core.view (core_setInbound _ _ _), rfl⟩
  have ht := taken hn
  have hf := length_fds (h := h) (next_take hn).2.2.2.2
  cases dir with
  | clientToServer =>
    refine wp_mono (wp_request k h iface m version _ _ ⟨s.core, clip⟩) (fun _ w hw => ?_) fun _ w hw => ?_
    · obtain ⟨d, hd, hr⟩ := hw
      exact .inr (.request ht hf hd hr)
    · obtain rfl | ⟨d, hd, hr⟩ := hw
      · exact .same _ rfl rfl
      · exact .request ht hd hr
  | serverToClient =>
    refine wp_mono (wp_event k h iface m version _ _ ⟨s.core, clip⟩) (fun _ w hw => ?_) fun _ w hw => ?_
    · obtain ⟨d, hd, hr⟩ := hw
      exact .inr (.event ht hd hr)
    · obtain rfl | ⟨d, hd, hr⟩ := hw
      · exact .same _ rfl rfl
      · exact .event ht hd hr

end Session

lemma Core.wp_act (clip : Clipboard) (a : Action) (c : Core) :
    wp (act clip a) (fun _ c' => Acted clip c.view a c'.view)
      (fun _ c' => Offering clip c.view.devices c.view c'.view) c := by
  unfold act
  simp only [wp_bind, wp_get]
  cases a with
  | offer s =>
    refine wp_ite (fun hf => ?_) fun _ => .nothing _
    exact wp_mono (wp_offerSelection clip c.devices c) (fun _ _ ho => .offer s _ hf ho) fun _ _ ho => ho
  | cancel s source =>
    refine wp_ite (fun hs => ?_) fun _ => .nothing _
    exact wp_mono (wp_emit _ _ c) (fun _ _ ht => .cancel s source _ hs ht) fun _ _ he => he ▸ .done _
  | send s source mime fd asked =>
    dsimp only
    cases hs : c.sources.lookup source with
    | none => exact .nothing _
    | some src =>
      refine (wp_bind _ _).mpr (wp_mono (wp_emit _ _ c) (fun _ c' ht => ?_) fun _ _ he => he ▸ .done _)
      exact .send s source mime fd asked src c'.view hs ht

/-- What every message and every action of another session keeps, and what is
left of it when one is refused. -/
structure Stable (J S : View → Prop) : Prop where
  message : ∀ {v v' clip clip' dir}, J v → Messaged v clip v' clip' dir → J v'
  refused : ∀ {v v' clip clip' dir}, J v → Unmessaged v clip v' clip' dir → S v'
  acted : ∀ {v v' clip a}, J v → Acted clip v a v' → J v'
  unacted : ∀ {v v' clip}, J v → Offering clip v.devices v v' → S v'

namespace Stable

variable {J S : View → Prop}

lemma pumpOnce (h : Stable J S) (k : Kernel) (dir : Dir) :
    Ensures (fun x => J x.1.core.view) (fun _ x => S x.1.core.view) (Session.pumpOnce k dir) := by
  intro x hx
  refine wp_mono (Session.messaged_pumpOnce k dir x.1 x.2) (fun _ y hy => ?_) fun _ y hy => h.refused hx hy
  obtain ⟨hv, _⟩ | hm := hy
  · exact hv.symm ▸ hx
  · exact h.message hx hm

lemma input (h : Stable J S) (input : Session.Input) :
    Ensures (fun s => J s.core.view) (fun _ s => S s.core.view) input.run := by
  intro s hs
  cases input with
  | arrive dir bytes fds =>
    have hc : (s.arrive dir bytes fds).core = s.core := Session.core_setInbound _ _ _
    exact (congrArg (fun c => J c.view) hc).mpr hs
  | pump k dir clip =>
    simp only [Session.Input.run, wp_zoom]
    exact Session.ensures_pump (h.pumpOnce k dir) (s, clip) hs
  | act clip a =>
    simp only [Session.Input.run, wp_zoom]
    exact wp_mono (Core.wp_act clip a s.core) (fun _ _ ha => h.acted hs ha) fun _ _ he => h.unacted hs he
  | flushClient results | flushServer results =>
    simp only [Session.Input.run, wp_bind, wp_zoom]
    have hdone : Offering {} s.core.view.devices s.core.view s.core.view := .done _
    exact wp_of_cases (fun _ _ _ => hs) fun _ _ _ => h.unacted hs hdone

lemma run (h : Stable J S) (inputs : List Session.Input) :
    Ensures (fun s => J s.core.view) (fun _ s => S s.core.view) (Session.run inputs) :=
  .forM inputs fun input _ => h.input input

end Stable

end Kryptik.Wlproxy
