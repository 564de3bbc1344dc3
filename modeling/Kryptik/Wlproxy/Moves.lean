import Kryptik.Wlproxy.Frames
import Kryptik.Wlproxy.Main

namespace Kryptik.Wlproxy

open Lib Prog Tables Wire Protocol View List Wlproxy.Core Session Relation

/-- A change that leaves the copies of a session alone; its objects only become more. -/
structure Apart (v v' : View) : Prop where
  id : v'.id = v.id
  sources : v'.sources = v.sources
  handed : v'.handed = v.handed
  grows : ∀ x obj, v.objects.get x = some obj → v'.objects.get x = some obj

namespace Apart

variable {v v' v'' : View} {clip clip' : Clipboard} {devs : List ℕ} {id version : ℕ} {name : String} {dir : Dir}

lemma refl (v : View) : Apart v v := ⟨rfl, rfl, rfl, fun _ _ h => h⟩

lemma trans (h : Apart v v') (h' : Apart v' v'') : Apart v v'' :=
  ⟨h'.id.trans h.id, h'.sources.trans h.sources, h'.handed.trans h.handed,
    fun x obj hx => h'.grows x obj (h.grows x obj hx)⟩

lemma tells {w : MessageWriter} (h : Tells w v v') : Apart v v' := by
  obtain ⟨msg, -, rfl⟩ := h
  exact ⟨rfl, rfl, rfl, fun _ _ h => h⟩

lemma offering (h : Offering clip devs v v') : Apart v v' := by
  induction h with
  | done v => exact refl v
  | tell w msg _ _ _ _ ih =>
    refine .trans ?_ ih
    exact ⟨rfl, rfl, rfl, fun _ _ h => h⟩
  | make dev offer version iface objects _ _ _ hi _ ih =>
    refine .trans ?_ ih
    exact ⟨rfl, rfl, rfl, fun _ _ => (Objects.inserted hi).kept⟩

lemma registers (h : Registers id name version dir v v') : Apart v v' := by
  obtain ⟨-, -, iface, objects, -, hi, rfl⟩ := h
  exact ⟨rfl, rfl, rfl, fun _ _ => (Objects.inserted hi).kept⟩

lemma advertised (h : Advertised id name v v') : Apart v v' := by
  unfold Advertised at h
  split at h
  · refine .trans ?_ (tells h)
    exact ⟨rfl, rfl, rfl, fun _ _ h => h⟩
  · exact h ▸ refl v

lemma places (h : Places id v v') : Apart v v' := by
  obtain ⟨msg, -, rfl⟩ := h
  exact ⟨rfl, rfl, rfl, fun _ _ h => h⟩

lemma creates {forward : Bool} {d : Decoded} (h : Creates dir forward d version clip v v') : Apart v v' := by
  unfold Creates at h
  split at h
  · exact h ▸ refl v
  obtain ⟨v1, v2, hr, ha, hv⟩ := h
  refine .trans (.trans (registers hr) (advertised ha)) ?_
  split at hv
  · obtain ⟨v3, hp, hv⟩ := hv
    refine .trans (places hp) ?_
    split at hv
    · exact offering hv
    · exact hv ▸ refl v3
  · exact hv ▸ refl v2

lemma announced {h : Header} {iface : Interface} {body : Bytes} {r : Verdict}
    (ha : Announced h iface body v r v') : Apart v v' := by
  obtain ⟨globals, rfl⟩ := Announced.globals_eq ha
  exact ⟨rfl, rfl, rfl, fun _ _ h => h⟩

lemma focused {iface : Interface} {m : Message} (h : Focused iface m v clip v' clip') : Apart v v' := by
  cases h with
  | enter _ _ _ ho => exact offering ho
  | leave | stay => exact refl v

end Apart

section Frame

variable {v v' : View} {clip clip' : Clipboard} {dir : Dir}

def Framed (v v' : View) : Prop := v'.id = v.id ∧ v'.handed = v.handed

lemma Apart.framed (h : Apart v v') : Framed v v' := ⟨h.id, h.handed⟩

lemma View.Quiet.framed (h : Quiet v v') : Framed v v' := ⟨h.id, h.handed⟩

lemma Framed.trans {v'' : View} (h : Framed v v') (h' : Framed v' v'') : Framed v v'' :=
  ⟨h'.1.trans h.1, h'.2.trans h.2⟩

lemma framed_served {object : ℕ} {body : Bytes} {fds : List Fd} {iface : Interface} {request : String}
    (h : Served object body fds v clip iface request v' clip') : Framed v v' := by
  cases h with
  | sourceDestroy _ ht | deviceRelease _ ht | cancel _ _ _ _ ht =>
    obtain ⟨_, _, rfl⟩ := ht
    exact ⟨rfl, rfl⟩
  | _ => exact ⟨rfl, rfl⟩

lemma framed_uncreated {forward : Bool} {d : Decoded} {version : ℕ}
    (h : Uncreated dir forward d version clip v v') : Framed v v' := by
  obtain hq | ⟨id, name, v1, v2, -, hr, ha, hv⟩ := h
  · exact hq.framed
  have h2 : Apart v v2 := .trans (.registers hr) (.advertised ha)
  obtain rfl | ⟨-, -, v3, hp, ho⟩ := hv
  · exact h2.framed
  · exact (h2.trans (.trans (.places hp) (.offering ho))).framed

lemma framed_messaged (h : Messaged v clip v' clip' dir) : Framed v v' := by
  cases h with
  | request _ _ _ hr =>
    cases hr with
    | passed out stamp v1 _ _ _ _ hc =>
      cases stamp <;> exact (Apart.creates hc).framed
    | bound _ v1 _ _ _ _ _ hc => exact (Apart.creates hc).framed
    | answered v1 v2 clip1 _ hs hc => exact (framed_served hs).trans (Apart.creates hc).framed
  | event _ _ hh =>
    obtain ⟨r1, r2, r3, r4, v1, v2, v3, v4, ha, -, -, hf, hdel, hc, hv⟩ := hh
    have h2 : Framed v v2 := (Apart.trans (.announced ha) (.focused hf)).framed
    have h3 : Framed v2 v3 := by cases hdel <;> exact ⟨rfl, rfl⟩
    have h4 : Framed v v4 := .trans (.trans h2 h3) (Apart.creates hc).framed
    rw [hv]
    split <;> exact h4

lemma framed_unmessaged (h : Unmessaged v clip v' clip' dir) : Framed v v' := by
  cases h with
  | same _ hv _ => exact hv ▸ ⟨rfl, rfl⟩
  | request _ _ hr =>
    cases hr with
    | unserved _ _ hu => exact hu.1.framed
    | passed _ _ _ hu | bound _ _ _ _ _ _ hu => exact framed_uncreated hu
    | answered v1 _ _ _ hs hu => exact (framed_served hs).trans (framed_uncreated hu)
  | event _ _ hh =>
    obtain ⟨r, v1, v2, v3, forward, ha, hf, hq, hu⟩ := hh
    have h2 : Framed v v2 := by
      obtain ⟨rfl, -⟩ | hf := hf
      · exact (Apart.announced ha).framed
      · exact (Apart.trans (.announced ha) (.focused hf)).framed
    exact (h2.trans hq.framed).trans (framed_uncreated hu)

lemma Session.framed_pumpOnce (k : Kernel) (dir : Dir) (s : Session) (clip : Clipboard) :
    wp (pumpOnce k dir) (fun _ x => Framed s.core.view x.1.core.view)
      (fun _ x => Framed s.core.view x.1.core.view) (s, clip) := by
  refine wp_mono (messaged_pumpOnce k dir s clip) (fun _ x hx => ?_) (fun _ x hx => framed_unmessaged hx)
  obtain ⟨hv, -⟩ | hm := hx
  · exact hv ▸ ⟨rfl, rfl⟩
  · exact framed_messaged hm

end Frame

namespace Session

/-- What is in the client's buffer was there, or is read in this turn. -/
def Hears (io : SessionIo) (s s' : Session) : Prop :=
  s'.clientIn = s.clientIn ∨ ∃ r, io.client = some r ∧ s'.clientIn = (s.clientIn.read r).2

/-- What a session does in its turn, one after another: its sockets, or a message. -/
inductive Works (io : SessionIo) : Session × Clipboard → Session × Clipboard → Prop
  | sockets {s s' : Session} (clip : Clipboard) : s'.core.view = s.core.view → s.Hears io s' →
      Works io (s, clip) (s', clip)
  | message {k : Kernel} {dir : Dir} {more : Bool} {x y : Session × Clipboard} :
      pumpOnce k dir x = .ok more y → Works io x y

inductive Falters : Session × Clipboard → Session × Clipboard → Prop
  | sockets {s s' : Session} (clip : Clipboard) : s'.core.view = s.core.view → Falters (s, clip) (s', clip)
  | message {k : Kernel} {dir : Dir} {e : SessionError} {x y : Session × Clipboard} :
      pumpOnce k dir x = .error (.refused e) y → Falters x y

def Stopped (io : SessionIo) (x : Session × Clipboard) (e : Halt) (y : Session × Clipboard) : Prop :=
  ∀ why, e = .ended why → ∃ z, ReflTransGen (Works io) x z ∧ Falters z y

variable {io : SessionIo}
variable {x y : Session × Clipboard}

lemma stopped_here {e : Halt} (h : ReflTransGen (Works io) x y) : Stopped io x e y :=
  fun _ _ => ⟨y, h, .sockets y.2 rfl⟩

lemma worked_readSide (dir : Dir) (gone failed : Why) {r : Option Recv} (hr : dir = .clientToServer → r = io.client) :
    Ensures (ReflTransGen (Works io) x) (Stopped io x) (readSide dir gone failed r) := by
  intro y hy
  have hread (a : Recv) (ha : r = some a) : Works io y (y.1.setInbound ((y.1.inbound dir).read a).2 dir, y.2) := by
    refine .sockets y.2 (congrArg view (core_setInbound _ _ _)) ?_
    cases dir with
    | clientToServer => exact .inr ⟨a, (hr rfl).symm.trans ha, rfl⟩
    | serverToClient => exact .inl rfl
  exact wp_readSide (fun _ => hy) (fun a ha => hy.tail (hread a ha)) fun a _ ha _ => stopped_here (hy.tail (hread a ha))

lemma worked_pump (k : Kernel) (dir : Dir) :
    Ensures (ReflTransGen (Works io) x) (Stopped io x) (orEnd .session (pump k dir)) := by
  intro y hy
  refine (wp_orEnd _ _).mpr (ensures_pump (fun z hz => ?_) y hy)
  refine wp_of_cases (fun more z' hok => hz.tail (.message hok)) (fun f z' herr why hwhy => ?_)
  cases f with
  | refused e => exact ⟨z, hz, .message herr⟩
  | panic | diverged => cases hwhy

lemma worked_step (io : SessionIo) (zone old : Charge) (x : Session × Clipboard) :
    wp (step io zone old) (fun _ y => ReflTransGen (Works io) x y) (Stopped io x) x := by
  refine wp_ite (fun _ => stopped_here .refl) (fun _ => ?_)
  refine Ensures.bind (worked_readSide _ _ _ fun _ => rfl) (fun _ => ?_) x .refl
  refine .bind (worked_readSide _ _ _ nofun) (fun _ => .bind (worked_pump _ _) (fun _ => ?_))
  refine .bind (worked_pump _ _) (fun _ => .get_bind (fun y hy => ?_))
  refine wp_ite (fun _ => stopped_here hy) (fun _ => ?_)
  simp only [wp_bind, wp_orEnd, flushServer, flushClient, wp_zoom]
  refine wp_of_cases (fun _ o _ => ?_) (fun f o _ _ _ => ⟨y, hy, .sockets y.2 rfl⟩)
  refine wp_of_cases (fun _ o' _ => ?_) (fun f o' _ _ _ => ⟨y, hy, .sockets y.2 rfl⟩)
  exact hy.tail (.sockets y.2 rfl (.inl rfl))

end Session

namespace Proxy

inductive Move
  | sockets (i : ℕ)
  | message (i : ℕ) (k : Kernel) (dir : Dir)
  | hangUp (i : ℕ)
  | answer (r : Control.Request) (newPipe : Option Fd) (now : ℕ)
  | deliver (now : ℕ)
  | drop (now : ℕ)
  | write (io : TurnIo)
  | accept
  | other

/-- The moves of a zone's proxy, in any order: a session's sockets are read and written, it
handles a message or hangs up, the move gesture's request is answered, an action is delivered,
the connections that ended are let go of, and pastes are written. -/
inductive Step (p : Proxy) : Move → Proxy → Prop
  | sockets {i : ℕ} {s s' : Session} : p.sessions[i]? = some s → s.core.id ∉ p.closed →
      s'.core.view = s.core.view → Step p (.sockets i) { p with sessions := p.sessions.set i s' }
  | message {i : ℕ} {s s' : Session} {k : Kernel} {dir : Dir} {more : Bool} {clip : Clipboard} :
      p.sessions[i]? = some s → s.core.id ∉ p.closed →
      Session.pumpOnce k dir (s, p.clip) = .ok more (s', clip) →
      Step p (.message i k dir) { p with sessions := p.sessions.set i s', clip := clip }
  | refused {i : ℕ} {s s' : Session} {k : Kernel} {dir : Dir} {e : SessionError} {clip : Clipboard}
      (ended : Ended) : p.sessions[i]? = some s → s.core.id ∉ p.closed →
      Session.pumpOnce k dir (s, p.clip) = .error (.refused e) (s', clip) →
      Step p (.message i k dir) ({ p with clip := clip }.close i s' ended)
  | hangUp {i : ℕ} {s s' : Session} (ended : Ended) : p.sessions[i]? = some s →
      s.core.id ∉ p.closed → s'.core.view = s.core.view → Step p (.hangUp i) (p.close i s' ended)
  | answer (r : Control.Request) (newPipe : Option Fd) (now : ℕ) :
      Step p (.answer r newPipe now) { p with clip := (Control.answer r newPipe now p.clip).2 }
  | deliver {now : ℕ} {a : Action} {rest : List Action} {p' : Proxy} : p.clip.actions = a :: rest →
      Proxy.deliver now a { p with clip.actions := rest } = .ok () p' → Step p (.deliver now) p'
  | drop (now : ℕ) : Step p (.drop now) (p.dropClosed now)
  | write (io : TurnIo) : Step p (.write io) (p.stepWriters io)
  | accept : Step p .accept { p with
      sessions := p.sessions ++ [.opened p.zone p.holdAwake p.nextId], nextId := p.nextId + 1 }
  | other (moving : Option Control) (gone : List Gone) :
      Step p .other { p with moving := moving, gone := gone }

abbrev Reaches : Proxy → Proxy → Prop := ReflTransGen (fun p p' => ∃ m, Step p m p')

/-- How a move comes from the inputs of a turn. -/
def Move.From (io : TurnIo) (p p' : Proxy) : Move → Prop
  | .sockets i => ∃ s s', p.sessions[i]? = some s ∧ p'.sessions[i]? = some s' ∧ s.Hears (io.sessions s.core.id) s'
  | .message .. => True
  | .hangUp i => ∃ s s' x zone why, p.sessions[i]? = some s ∧ p'.sessions[i]? = some (Session.refuse s') ∧
      ReflTransGen (Session.Works (io.sessions s.core.id)) x (s, p.clip) ∧
      Session.step (io.sessions s.core.id) zone x.1.charge x = .error (.ended why) (s', p'.clip)
  | .answer r newPipe now => newPipe = io.control.newPipe ∧ now = io.now ∧
      ∃ m, p.moving = some m ∧ m.Asks io.control r
  | .deliver now | .drop now => now = io.now
  | .write io' => io' = io
  | .accept => io.connects = true
  | .other => p' = acceptMove io p ∨ p' = punchGone io p ∨
      ∃ m clip, p.moving = some m ∧ m.step io.control io.now clip = .ok (p'.moving, p'.clip)

abbrev Turned (io : TurnIo) : Proxy → Proxy → Prop :=
  ReflTransGen (fun p p' => ∃ m, Step p m p' ∧ m.From io p p')

lemma Turned.reaches {io : TurnIo} {p p' : Proxy} (h : Turned io p p') : Reaches p p' :=
  ReflTransGen.mono (fun _ _ ⟨m, hstep, _⟩ => ⟨m, hstep⟩) _ _ h

/-- Every session has an id of its own, none of them `own`. -/
structure Distinct (p : Proxy) : Prop where
  ids : (p.sessions.map (fun s => s.core.id)).Nodup
  given : ∀ s ∈ p.sessions, s.core.id < p.nextId
  proper : own < p.nextId ∧ ∀ s ∈ p.sessions, own < s.core.id

section Ids

variable {p p' : Proxy} {i : ℕ} {s s' t : Session} {m : Move} {now : ℕ} {a : Action}

lemma ids_set (hs : p.sessions[i]? = some s) (hid : s'.core.id = s.core.id) :
    (p.sessions.set i s').map (fun s => s.core.id) = p.sessions.map (fun s => s.core.id) := by
  rw [map_set, hid]
  refine ext_getElem? (fun j => ?_)
  by_cases hj : i = j
  · subst hj
    rw [getElem?_set_self', getElem?_map, hs]
    rfl
  · rw [getElem?_set_ne hj]

lemma Distinct.of_ids (h : p.Distinct)
    (hids : p'.sessions.map (fun s => s.core.id) = p.sessions.map (fun s => s.core.id))
    (hnext : p'.nextId = p.nextId) : p'.Distinct := by
  have hmem : ∀ t ∈ p'.sessions, ∃ s ∈ p.sessions, s.core.id = t.core.id := by
    intro t ht
    have hid := mem_map_of_mem (f := fun s : Session => s.core.id) ht
    rw [hids] at hid
    exact mem_map.mp hid
  refine ⟨hids ▸ h.ids, fun t ht => ?_, hnext ▸ h.proper.1, fun t ht => ?_⟩
  · obtain ⟨s, hs, hid⟩ := hmem t ht
    rw [← hid, hnext]
    exact h.given s hs
  · obtain ⟨s, hs, hid⟩ := hmem t ht
    rw [← hid]
    exact h.proper.2 s hs

lemma Distinct.place {j : ℕ} (h : p.Distinct) (hs : p.sessions[i]? = some s) (ht : p.sessions[j]? = some t)
    (hid : t.core.id = s.core.id) : i = j := by
  have hi : (p.sessions.map (fun s => s.core.id))[i]? = some s.core.id := by rw [getElem?_map, hs]; rfl
  have hj : (p.sessions.map (fun s => s.core.id))[j]? = some s.core.id := by rw [getElem?_map, ht, ← hid]; rfl
  exact (List.getElem?_inj (List.getElem?_eq_some_iff.mp hi).1 h.ids).mp (hi.trans hj.symm)

lemma Distinct.mem_set (h : p.Distinct) (hs : p.sessions[i]? = some s) (ht : t ∈ p.sessions.set i s') :
    t = s' ∨ t ∈ p.sessions ∧ t.core.id ≠ s.core.id := by
  obtain ⟨j, hj⟩ := mem_iff_getElem?.mp ht
  by_cases hij : i = j
  · subst hij
    rw [List.getElem?_set_self (List.getElem?_eq_some_iff.mp hs).1] at hj
    exact .inl (Option.some.inj hj).symm
  · rw [getElem?_set_ne hij] at hj
    exact .inr ⟨mem_of_getElem? hj, fun hid => hij (h.place hs hj hid)⟩

inductive Delivered (now : ℕ) (a : Action) (p : Proxy) : Proxy → Prop
  | paste : a.session = own → Delivered now a p (p.paste now a)
  | nothing : Delivered now a p p
  | act {i : ℕ} {s : Session} {core : Core} : p.sessions[i]? = some s → s.core.id = a.session →
      a.session ∉ p.closed → Core.act p.clip a s.core = .ok () core →
      Delivered now a p { p with sessions := p.sessions.set i { s with core := core } }
  | close {i : ℕ} {s : Session} {core : Core} {e : SessionError} (ended : Ended) :
      p.sessions[i]? = some s → s.core.id = a.session → a.session ∉ p.closed →
      Core.act p.clip a s.core = .error (.refused e) core →
      Delivered now a p (p.close i { s with core := core } ended)

lemma delivered (h : deliver now a p = .ok () p') : Delivered now a p p' := by
  have hcases : wp (deliver now a) (fun _ => Delivered now a p) (fun _ _ => True) p :=
    wp_deliver .paste .nothing (fun _ _ _ hs hid hopen hact => .act hs hid hopen hact)
      (fun _ _ _ _ hs hid hopen hact => .close _ hs hid hopen hact) (fun _ _ _ _ _ _ _ => trivial)
  have hok := wp_ok hcases h
  exact hok

lemma Core.framed_act {c c' : Core} {clip : Clipboard} {e : Fault} (h : Core.act clip a c = .error e c') :
    Framed c.view c'.view := by
  have hoffering := wp_error (wp_act clip a c) h
  exact (Apart.offering hoffering).framed

lemma Core.id_act {c c' : Core} {clip : Clipboard} {u : Unit} (h : Core.act clip a c = .ok u c') : c'.id = c.id := by
  have hacted := wp_ok (wp_act clip a c) h
  exact congrArg (fun x => x.2.2) (Steady.acted hacted).settings

lemma Delivered.ids (h : Delivered now a p p') :
    p'.sessions.map (fun s => s.core.id) = p.sessions.map (fun s => s.core.id) ∧ p'.nextId = p.nextId ∧
      p'.clip = p.clip := by
  cases h with
  | paste => rcases paste_cases now a p with hp | ⟨_, _, _, _, _, _, _, _, _, _, hp⟩ <;> rw [hp] <;> exact ⟨rfl, rfl, rfl⟩
  | nothing => exact ⟨rfl, rfl, rfl⟩
  | act hs _ _ hact => exact ⟨ids_set hs (Core.id_act hact), rfl, rfl⟩
  | close ended hs _ _ hact => exact ⟨ids_set hs (Core.framed_act hact).1, rfl, rfl⟩

lemma foldl_drop (now : ℕ) (l : List Session) (p : Proxy) :
    (l.foldl (Proxy.drop now) p).nextId = p.nextId ∧ (l.foldl (Proxy.drop now) p).writers = p.writers ∧
      (l.foldl (Proxy.drop now) p).written = p.written ∧
      (l.foldl (Proxy.drop now) p).dropped = p.dropped ++ l ∧
      (l.foldl (Proxy.drop now) p).clip = l.foldl (fun c s => c.sessionGone s.core.id) p.clip := by
  induction l generalizing p with
  | nil => exact ⟨rfl, rfl, rfl, (append_nil _).symm, rfl⟩
  | cons s l ih =>
    obtain ⟨hnext, hwriters, hwritten, hdropped, hclip⟩ := ih (p.drop now s)
    refine ⟨hnext, hwriters, hwritten, hdropped.trans ?_, hclip⟩
    exact append_assoc _ _ _

lemma Step.distinct (h : Step p m p') (hp : p.Distinct) : p'.Distinct := by
  cases h with
  | sockets hs _ hv => exact hp.of_ids (ids_set hs (congrArg View.id hv)) rfl
  | message hs _ hpump =>
    have hframe := wp_ok (framed_pumpOnce _ _ _ _) hpump
    exact hp.of_ids (ids_set hs hframe.1) rfl
  | refused ended hs _ hpump =>
    have hframe := wp_error (framed_pumpOnce _ _ _ _) hpump
    exact hp.of_ids (ids_set hs hframe.1) rfl
  | hangUp ended hs _ hv => exact hp.of_ids (ids_set hs (congrArg View.id hv)) rfl
  | answer | write | other => exact hp.of_ids rfl rfl
  | deliver _ hd =>
    obtain ⟨hids, hnext, -⟩ := (delivered hd).ids
    exact hp.of_ids hids hnext
  | drop now =>
    have hnext : (p.dropClosed now).nextId = p.nextId := (foldl_drop now _ p).1
    refine ⟨hp.ids.sublist (filter_sublist.map _), fun s hs => ?_, hnext ▸ hp.proper.1, fun s hs => ?_⟩
    · exact hnext ▸ hp.given s (mem_of_mem_filter hs)
    · exact hp.proper.2 s (mem_of_mem_filter hs)
  | accept =>
    have hids : ∀ s ∈ p.sessions ++ [Session.opened p.zone p.holdAwake p.nextId],
        s ∈ p.sessions ∨ s.core.id = p.nextId := by
      intro s hs
      obtain hs | hs := mem_append.mp hs
      · exact .inl hs
      · exact .inr (mem_singleton.mp hs ▸ rfl)
    refine ⟨?_, fun s hs => ?_, Nat.lt_succ_of_lt hp.proper.1, fun s hs => ?_⟩
    · rw [map_append, nodup_append]
      refine ⟨hp.ids, by simp, fun n hn n' hn' => ?_⟩
      obtain ⟨s, hs, rfl⟩ := mem_map.mp hn
      have hnew : n' = p.nextId := mem_singleton.mp hn'
      have hold := hp.given s hs
      omega
    · obtain hs | hs := hids s hs
      · exact Nat.lt_succ_of_lt (hp.given s hs)
      · exact hs ▸ Nat.lt_succ_self _
    · obtain hs | hs := hids s hs
      · exact hp.proper.2 s hs
      · exact hs ▸ hp.proper.1

lemma start_distinct (zone : String) (holdAwake : Bool) (maxClients : ℕ) :
    (start zone holdAwake maxClients).Distinct :=
  ⟨nodup_nil, by simp [start], Nat.zero_lt_one, by simp [start]⟩

lemma Reaches.distinct (h : Reaches p p') (hp : p.Distinct) : p'.Distinct := by
  induction h with
  | refl => exact hp
  | tail _ hstep ih =>
    obtain ⟨m, hstep⟩ := hstep
    exact hstep.distinct ih

end Ids

section Turns

variable {io : TurnIo} {p q : Proxy} {i now : ℕ} {s : Session}

lemma reaches_works {y : Session × Clipboard} (hs : p.sessions[i]? = some s) (hopen : s.core.id ∉ p.closed)
    (h : ReflTransGen (Session.Works (io.sessions s.core.id)) (s, p.clip) y) : y.1.core.id = s.core.id ∧
      Turned io p { p with sessions := p.sessions.set i y.1, clip := y.2 } := by
  have hlt := (List.getElem?_eq_some_iff.mp hs).1
  induction h with
  | refl =>
    refine ⟨rfl, ?_⟩
    have hset : p.sessions.set i s = p.sessions := by
      rw [← (List.getElem?_eq_some_iff.mp hs).2, List.set_getElem_self]
    rw [hset]
  | @tail y z _ hwork ih =>
    obtain ⟨hid, hreach⟩ := ih
    have hat : (p.sessions.set i y.1)[i]? = some y.1 := List.getElem?_set_self hlt
    have hset (t : Session) : (p.sessions.set i y.1).set i t = p.sessions.set i t := List.set_set _
    cases hwork with
    | @sockets t t' clip hv hhears =>
      have hstep := Step.sockets (p := { p with sessions := p.sessions.set i t, clip := clip }) hat
        (hid ▸ hopen) hv
      rw [hset] at hstep
      refine ⟨(congrArg View.id hv).trans hid, hreach.tail ⟨_, hstep, t, t', hat, List.getElem?_set_self hlt, ?_⟩⟩
      exact hid.symm ▸ hhears
    | message hpump =>
      have hframe := wp_ok (framed_pumpOnce _ _ y.1 y.2) hpump
      have hstep := Step.message (p := { p with sessions := p.sessions.set i y.1, clip := y.2 }) hat
        (hid ▸ hopen) hpump
      rw [hset] at hstep
      exact ⟨hframe.1.trans hid, hreach.tail ⟨_, hstep, trivial⟩⟩

/-- No session from `i` on has ended in this turn. -/
def Waiting (i : ℕ) (p : Proxy) : Prop := ∀ j s, i ≤ j → p.sessions[j]? = some s → s.core.id ∉ p.closed

lemma Waiting.pass {s' : Session} {clip : Clipboard} (h : q.Waiting i) :
    Waiting (i + 1) { q with sessions := q.sessions.set i s', clip := clip } := by
  intro j t hj ht
  rw [getElem?_set_ne (by omega)] at ht
  exact h j t (by omega) ht

lemma Waiting.close {s' : Session} {clip : Clipboard} {e : Ended} (h : q.Waiting i) (hq : q.Distinct)
    (hs : q.sessions[i]? = some s) (hid : s'.core.id = s.core.id) :
    Waiting (i + 1) ({ q with clip := clip }.close i s' e) := by
  intro j t hj ht hclosed
  have hat : (q.sessions.set i s'.refuse)[j]? = some t := ht
  rw [getElem?_set_ne (by omega)] at hat
  obtain hin | hin := mem_append.mp hclosed
  · exact h j t (by omega) hat hin
  · have hsame : t.core.id = s.core.id := (mem_singleton.mp hin).trans hid
    have hi : (q.sessions.map (fun s => s.core.id))[i]? = some s.core.id := by rw [getElem?_map, hs]; rfl
    have hj' : (q.sessions.map (fun s => s.core.id))[j]? = some s.core.id := by
      rw [getElem?_map, hat, ← hsame]; rfl
    have := (List.getElem?_inj (List.getElem?_eq_some_iff.mp hi).1 hq.ids).mp (hi.trans hj'.symm)
    omega

lemma stepSession_reaches (zone : Charge) (hp : p.Distinct) (hreach : Turned io p q) (hwait : q.Waiting i) :
    wp (stepSession io.sessions i zone) (fun _ q' => Turned io p q' ∧ q'.Waiting (i + 1)) (fun _ _ => True) q := by
  cases hs : q.sessions[i]? with
  | none =>
    unfold wp stepSession
    simp only [hs]
    exact ⟨hreach, fun j s hj => hwait j s (by omega)⟩
  | some s =>
    have hopen := hwait i s (Nat.le_refl i) hs
    refine wp_stepSession hs (fun s' clip hok => ?_) (fun why s' clip herr => ?_) (fun _ _ _ => trivial)
    · have hworks := wp_ok (worked_step _ _ _ _) hok
      exact ⟨hreach.trans (reaches_works hs hopen hworks).2, hwait.pass⟩
    · obtain ⟨z, hworks, hfalters⟩ := wp_error (worked_step _ _ _ _) herr why rfl
      obtain ⟨hid, hz⟩ := reaches_works hs hopen hworks
      have hat : (q.sessions.set i z.1)[i]? = some z.1 :=
        List.getElem?_set_self (List.getElem?_eq_some_iff.mp hs).1
      have hset (t : Session) : (q.sessions.set i z.1).set i t = q.sessions.set i t := set_set _
      let last := { q with clip := clip }.close i s' ⟨s.core.id, why, zone, s.charge, s'.charge⟩
      have hclose : s'.core.id = z.1.core.id ∧ ∃ m, Step { q with sessions := q.sessions.set i z.1, clip := z.2 } m last ∧
          m.From io { q with sessions := q.sessions.set i z.1, clip := z.2 } last := by
        cases hfalters with
        | @sockets t _ _ hv =>
          have hstep := Step.hangUp (p := { q with sessions := q.sessions.set i t, clip := clip })
            ⟨s.core.id, why, zone, s.charge, s'.charge⟩ hat (hid ▸ hopen) hv
          simp only [Proxy.close, hset] at hstep
          refine ⟨congrArg View.id hv, _, hstep, t, s', _, zone, why, hat, ?_, hid.symm ▸ hworks, hid.symm ▸ herr⟩
          exact List.getElem?_set_self (List.getElem?_eq_some_iff.mp hs).1
        | message hpump =>
          have hframe := wp_error (framed_pumpOnce _ _ z.1 z.2) hpump
          have hstep := Step.refused (p := { q with sessions := q.sessions.set i z.1, clip := z.2 })
            ⟨s.core.id, why, zone, s.charge, s'.charge⟩ hat (hid ▸ hopen) hpump
          simp only [Proxy.close, hset] at hstep
          exact ⟨hframe.1, _, hstep, trivial⟩
      refine ⟨(hreach.trans hz).tail hclose.2, ?_⟩
      exact hwait.close (hreach.reaches.distinct hp) hs (hclose.1.trans hid)

lemma stepSessions_reaches (zone : Charge) (n : ℕ) (hp : p.Distinct) (hreach : Turned io p q) (hwait : q.Waiting i) :
    wp (stepSessions io.sessions (range' i n) zone) (fun _ => Turned io p) (fun _ _ => True) q := by
  induction n generalizing i zone q with
  | zero => exact hreach
  | succ n ih =>
    refine (wp_bind _ _).mpr ?_
    refine wp_mono (stepSession_reaches zone hp hreach hwait) (fun zone' q' hq => ?_) (fun _ _ he => he)
    exact ih zone' hq.1 hq.2

lemma act_actions (clip : Clipboard) (a : Action) (rest : List Action) :
    Core.act { clip with actions := rest } a = Core.act clip a := by
  cases a <;> rfl

lemma paste_actions (now : ℕ) (a : Action) (rest : List Action) (q : Proxy) :
    paste now a { q with clip.actions := rest } = { q.paste now a with clip.actions := rest } := by
  unfold paste
  dsimp only
  split
  · split <;> rfl
  · rfl

lemma deliver_actions {a : Action} {q' : Proxy} (rest : List Action) (h : deliver now a q = .ok () q') :
    deliver now a { q with clip.actions := rest } = .ok () { q' with clip.actions := rest } := by
  unfold deliver at h ⊢
  by_cases hown : a.session = own
  · simp only [if_pos hown] at h ⊢
    cases h
    rw [paste_actions]
  simp only [if_neg hown, act_actions] at h ⊢
  cases hi : q.sessions.findIdx? (fun s => s.core.id = a.session) with
  | none =>
    simp only [hi] at h ⊢
    cases h
    rfl
  | some i =>
    simp only [hi] at h ⊢
    by_cases hclosed : a.session ∈ q.closed
    · simp only [if_pos hclosed] at h ⊢
      cases h
      rfl
    simp only [if_neg hclosed] at h ⊢
    cases hs : q.sessions[i]? with
    | none =>
      simp only [hs] at h ⊢
      cases h
      rfl
    | some s =>
      simp only [hs] at h ⊢
      cases hact : Core.act q.clip a s.core with
      | ok u core =>
        simp only [hact] at h ⊢
        cases h
        rfl
      | error f core =>
        simp only [hact] at h ⊢
        cases f with
        | refused e =>
          cases h
          rfl
        | panic | diverged => cases h

lemma deliver_reaches (l : List Action) (hreach : Turned io p { q with clip.actions := l })
    (hnone : q.clip.actions = []) :
    wp (l.forM (deliver io.now)) (fun _ q' => Turned io p q') (fun _ _ => True) q := by
  induction l generalizing q with
  | nil =>
    have hsame : { q with clip.actions := [] } = q := by rw [← hnone]
    exact hsame ▸ hreach
  | cons a l ih =>
    refine (wp_bind _ _).mpr (wp_of_cases (fun _ q1 hok => ?_) (fun _ _ _ => trivial))
    have hclip : q1.clip = q.clip := (delivered hok).ids.2.2
    have hnext := deliver_actions l hok
    refine ih (hreach.tail ⟨.deliver io.now, ?_, rfl⟩) (hclip ▸ hnone)
    exact .deliver rfl hnext

lemma settle_reaches (n : ℕ) (hreach : Turned io p q) :
    wp (settle io.now n) (fun _ q' => Turned io p q' ∧ q'.closed = []) (fun _ _ => True) q := by
  induction n generalizing q with
  | zero => trivial
  | succ n ih =>
    unfold settle
    simp only [wp_bind, wp_get, wp_set]
    have hall := deliver_reaches (q := { q with clip.actions := [] }) q.clip.actions hreach rfl
    refine wp_mono hall (fun _ q1 h1 => ?_) (fun _ _ he => he)
    refine wp_ite (fun hclosed => ⟨h1, hclosed⟩) (fun _ => ?_)
    exact ih (h1.tail ⟨_, .drop io.now, rfl⟩)

lemma stepMove_reaches (hreach : Turned io p q) :
    wp (stepMove io) (fun _ => Turned io p) (fun _ _ => True) q := by
  unfold wp stepMove
  cases hm : q.moving with
  | none => exact hreach
  | some m =>
    dsimp only
    cases hstep : m.step io.control io.now q.clip with
    | error f => trivial
    | ok r =>
      obtain ⟨moving, clip⟩ := r
      have hother : Move.From io { q with clip := clip } { q with moving := moving, clip := clip } .other :=
        .inr (.inr ⟨m, q.clip, hm, hstep⟩)
      obtain rfl | ⟨req, hasks, rfl⟩ := Control.stepLoop_clip hstep
      · exact hreach.tail ⟨_, .other moving q.gone, hother⟩
      · have hanswer := hreach.tail ⟨_, .answer req _ _, rfl, rfl, m, hm, hasks⟩
        exact hanswer.tail ⟨_, .other moving q.gone, hother⟩

lemma turn_reaches (io : TurnIo) (hp : p.Distinct) (hclosed : p.closed = []) :
    wp (turn io) (fun _ p' => Turned io p p' ∧ p'.closed = []) (fun _ _ => True) p := by
  unfold turn
  simp only [wp_bind, wp_get, wp_modify]
  rw [range_eq_range']
  have hwait : p.Waiting 0 := fun j s _ _ => by simp [hclosed]
  refine wp_mono (stepSessions_reaches _ _ hp .refl hwait) (fun _ q1 h1 => ?_) (fun _ _ he => he)
  have h2 : Turned io p (acceptMove io q1) := by
    refine h1.tail ⟨.other, ?_, .inl rfl⟩
    unfold acceptMove
    split
    · exact .other _ q1.gone
    · exact .other q1.moving q1.gone
  refine wp_mono (stepMove_reaches h2) (fun _ q3 h3 => ?_) (fun _ _ he => he)
  refine wp_mono (settle_reaches _ h3) (fun _ q4 h4 => ?_) (fun _ _ he => he)
  have h5 : Turned io p (punchGone io (stepWriters io q4)) :=
    (h4.1.tail ⟨_, .write io, rfl⟩).tail ⟨_, .other q4.moving _, .inr (.inl rfl)⟩
  unfold accept
  split
  next hconnects => exact ⟨h5.tail ⟨_, .accept, hconnects.1⟩, h4.2⟩
  · exact ⟨h5, h4.2⟩

lemma turns_reach (zone : String) (holdAwake : Bool) (maxClients : ℕ) (turns : List TurnIo)
    (h : turns.forM turn (start zone holdAwake maxClients) = .ok () p) :
    Reaches (start zone holdAwake maxClients) p ∧ p.closed = [] := by
  have hturn (io : TurnIo) (q : Proxy) (hq : Reaches (start zone holdAwake maxClients) q ∧ q.closed = []) :
      wp (turn io) (fun _ q' => Reaches (start zone holdAwake maxClients) q' ∧ q'.closed = []) (fun _ _ => True) q :=
    wp_mono (turn_reaches io (hq.1.distinct (start_distinct _ _ _)) hq.2)
      (fun _ _ h => ⟨hq.1.trans h.1.reaches, h.2⟩) fun _ _ _ => trivial
  have hreach := wp_ok (wp_forM turns (fun io _ q hq => hturn io q hq) ⟨.refl, rfl⟩) h
  exact hreach

end Turns

inductive Act
  | hear (i : ℕ) (dir : Dir) (bytes : Bytes) (fds : List Fd)
  | message (i : ℕ) (dir : Dir)
  | answer (r : Control.Request)
  | deliver
  | write (io : TurnIo)
  | accept

namespace Act

def move : Act → Move
  | .hear i _ _ _ => .sockets i
  | .message i dir => .message i .willing dir
  | .answer r => .answer r none 0
  | .deliver => .deliver 0
  | .write io => .write io
  | .accept => .accept

def run (p : Proxy) : Act → Option Proxy
  | .hear i dir bytes fds => match p.sessions[i]? with
    | none => none
    | some s =>
      if s.core.id ∈ p.closed then none
      else some { p with sessions := p.sessions.set i (s.arrive dir bytes fds) }
  | .message i dir => match p.sessions[i]? with
    | none => none
    | some s =>
      if s.core.id ∈ p.closed then none
      else match Session.pumpOnce .willing dir (s, p.clip) with
        | .ok _ (s', clip) => some { p with sessions := p.sessions.set i s', clip := clip }
        | .error _ _ => none
  | .answer r => some { p with clip := (Control.answer r none 0 p.clip).2 }
  | .deliver => match p.clip.actions with
    | [] => none
    | a :: rest => match Proxy.deliver 0 a { p with clip.actions := rest } with
      | .ok _ p' => some p'
      | .error _ _ => none
  | .write io => some (p.stepWriters io)
  | .accept => some { p with
      sessions := p.sessions ++ [.opened p.zone p.holdAwake p.nextId], nextId := p.nextId + 1 }

lemma step {p p' : Proxy} {a : Act} (h : a.run p = some p') : Step p a.move p' := by
  cases a with
  | hear i dir bytes fds =>
    simp only [run] at h
    split at h
    · cases h
    · rename_i s hs
      split at h
      · cases h
      · cases h
        exact .sockets hs ‹_› (congrArg view (core_setInbound _ _ _))
  | message i dir =>
    simp only [run] at h
    split at h
    · cases h
    · rename_i s hs
      split at h
      · cases h
      · split at h
        · rename_i hpump
          cases h
          exact .message hs ‹_› hpump
        · cases h
  | answer r =>
    cases h
    exact .answer r none 0
  | deliver =>
    simp only [run] at h
    split at h
    · cases h
    · rename_i hact
      split at h
      · rename_i hd
        cases h
        exact .deliver hact hd
      · cases h
  | write io =>
    cases h
    exact .write io
  | accept =>
    cases h
    exact .accept

def runs (check : Proxy → Act → Bool) : List Act → Proxy → Option Proxy
  | [], p => some p
  | a :: acts, p => if check p a then (a.run p).bind (runs check acts) else none

lemma runs_reach {fair : Proxy → Move → Prop} {check : Proxy → Act → Bool}
    (hcheck : ∀ p a, check p a = true → fair p a.move) {acts : List Act} {p p' : Proxy}
    (h : runs check acts p = some p') :
    ReflTransGen (fun p p' => ∃ m, fair p m ∧ Step p m p') p p' := by
  induction acts generalizing p with
  | nil =>
    cases h
    exact .refl
  | cons a acts ih =>
    unfold runs at h
    split at h
    · rename_i hc
      obtain ⟨q, hq, hrest⟩ := Option.bind_eq_some_iff.mp h
      exact .head ⟨a.move, hcheck p a hc, a.step hq⟩ (ih hrest)
    · cases h

end Act

end Proxy

end Kryptik.Wlproxy
