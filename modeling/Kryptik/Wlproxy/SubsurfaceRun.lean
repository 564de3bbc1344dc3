import Kryptik.Wlproxy.Accounts
import Kryptik.Wlproxy.Subsurfaces

namespace Kryptik.Wlproxy

open Lib Prog Tables Wire Protocol View Relation

lemma Scene.subs_perform (sc : Scene) (deed : Deed) : (sc.perform deed).subs =
    match deed with
    | .adopt object s _ => sc.subs.insert object s
    | .destroy object => sc.subs.erase object
    | _ => sc.subs := by
  have hhold (sc : Scene) (s : ℕ) : (sc.hold s).subs = sc.subs := by
    unfold hold
    split
    · rfl
    · split <;> rfl
  have hcache (sc : Scene) (s : ℕ) : (sc.cache s).subs = sc.subs := by
    unfold cache
    split <;> rfl
  have horphan (sc : Scene) (s : ℕ) (p : Option ℕ) : (sc.orphan s p).subs = sc.subs := by
    unfold orphan
    split
    · rfl
    · split <;> rfl
  have hdetach (sc : Scene) (s : ℕ) : (sc.detach s).subs = sc.subs := by
    unfold detach endRole
    split
    · split <;> rfl
    · rw [horphan]
      split <;> rfl
  cases deed with
  | nothing | attach s pool => rfl
  | commit s =>
    simp only [perform, commit]
    split
    · rw [hcache, hhold]
    · exact hhold sc s
  | adopt id s p => rfl
  | setSync object =>
    simp only [perform, setSync]
    split <;> rfl
  | setDesync object =>
    simp only [perform, setDesync]
    split
    · rfl
    · split <;> rfl
  | destroy object =>
    simp only [perform, destroy]
    split
    · rfl
    · rw [hdetach]
  | delete id =>
    simp only [perform, delete]
    split
    · rfl
    · have hfold (cs : List ℕ) (sc : Scene) : (cs.foldl Scene.detach sc).subs = sc.subs := by
        induction cs generalizing sc with
        | nil => rfl
        | cons c cs ih => rw [List.foldl_cons, ih, hdetach]
      rw [horphan, hfold]
      rfl

variable {t : Shm}

lemma mem_of_perform {t' : Shm} {deed : Deed} {x : ℕ} (ht : t'.scene = t.scene.perform deed)
    (hx : x ∈ t'.subsurfaces) : (x ∈ t.subsurfaces ∨ ∃ s p, deed = .adopt x s p) ∧ deed ≠ .destroy x := by
  rw [show t'.subsurfaces = (t.scene.perform deed).subs from congrArg Scene.subs ht, Scene.subs_perform] at hx
  cases deed with
  | adopt object s p =>
    refine ⟨?_, nofun⟩
    obtain rfl | hx := (AList.mem_insert _).mp hx
    · exact .inr ⟨s, p, rfl⟩
    · exact .inl hx
  | destroy object =>
    obtain ⟨hne, hx⟩ := AList.mem_erase.mp hx
    refine ⟨.inl hx, fun he => hne ?_⟩
    cases he
    rfl
  | nothing | attach s pool | commit s | setSync object | setDesync object | delete id => exact ⟨Or.inl hx, nofun⟩

namespace Shm

variable (k : Kernel)

lemma apply_unrefused (s : ℕ) (t : Shm) : wp (apply k s) (fun _ _ => True) (fun e _ => ¬ e.IsRefusal) t := by
  have hsub (a b : ℕ) (t : Shm) : wp (checkedSub a b : ShmM ℕ) (fun _ _ => True) (fun e _ => ¬ e.IsRefusal) t :=
    wp_ite (fun _ => trivial) fun _ h => by cases h.choose_spec
  have hrelease (g : ℕ) (t : Shm) : wp (releasePoolIfUnused k g) (fun _ _ => True) (fun e _ => ¬ e.IsRefusal) t := by
    unfold releasePoolIfUnused
    simp only [wp_bind, wp_get]
    split
    · trivial
    · refine wp_ite (fun _ => ?_) fun _ => trivial
      simp only [wp_bind]
      refine wp_mono (hsub _ _ _) (fun _ _ _ => wp_mono (hsub _ _ _) (fun _ _ _ => ?_) fun _ _ h => h) fun _ _ h => h
      split
      · exact wp_ite (fun _ => trivial) fun _ => trivial
      · trivial
  have hunhold (g : ℕ) (t : Shm) : wp (unhold k g) (fun _ _ => True) (fun e _ => ¬ e.IsRefusal) t := by
    unfold unhold
    simp only [wp_bind, wp_get]
    split
    · exact (wp_bind _ _).mpr (wp_mono (hsub _ _ _) (fun _ _ _ => hrelease _ _) fun _ _ h => h)
    · exact hrelease _ _
  have hloop (n : ℕ) (todo freed : List ℕ) (t : Shm) :
      wp (applyLoop n todo freed) (fun _ _ => True) (fun e _ => ¬ e.IsRefusal) t := by
    induction n generalizing todo freed t with
    | zero =>
      cases todo with
      | nil => trivial
      | cons s todo =>
        rintro ⟨_, h⟩
        cases h
    | succ n ih =>
      cases todo with
      | nil => trivial
      | cons s todo => exact ih _ _ _
  simp only [apply, wp_bind, wp_get]
  refine wp_mono (hloop _ _ _ t) (fun freed t' _ => ?_) fun _ _ h => h
  exact wp_forM (I := fun _ => True) freed (fun g _ t _ => hunhold g t) trivial

lemma apply_returns {live : Interface → ℕ → Prop} {t : Shm} (h : t.Sound live [] [] none) (s : ℕ) :
    ∃ t', apply k s t = .ok () t' := by
  have hboth := wp_and (apply_sound k s h) (apply_unrefused k s t)
  cases hr : apply k s t with
  | ok _ t' => exact ⟨t', rfl⟩
  | error e t' =>
    have he := wp_error hboth hr
    exact absurd he.1.1 he.2

end Shm

def Event.deed (placeholders : Table ℕ ℕ) (h : Header) (body : Bytes) : Deed :=
  (Event.deleted placeholders h body).elim .nothing .delete

variable {h : Header} {body : Bytes}

lemma Event.scene_settles {k : Kernel} {placeholders : Table ℕ ℕ} {t' : Shm}
    (hs : Event.Settles k h body placeholders t t') :
    t'.scene = t.scene.perform (Event.deed placeholders h body) := by
  unfold Event.Settles at hs
  unfold Event.deed
  cases hd : Event.deleted placeholders h body with
  | none =>
    rw [hd] at hs
    rw [show t' = t from hs]
    rfl
  | some id =>
    rw [hd] at hs
    have hshow := wp_ok (Shm.shows_deleteId k id t) hs
    exact hshow

/-- The wl_subsurfaces whose destruction was taken and whose ids are not other objects' since, after one more
request. -/
def Request.ended (h : Header) (iface : Interface) (m : Message) (d : Decoded) (ended : List ℕ) : List ℕ :=
  (if iface = .wlSubsurface ∧ m.name = "destroy" then h.object :: ended else ended).filter
    (fun x => d.newObject.map Prod.fst ≠ some x)

namespace Session

/-- What the message taken next in a direction does to the surfaces. -/
def deed (s : Session) (dir : Dir) : Deed :=
  match next s.core dir (s.inbound dir), dir with
  | .take h iface m _, .clientToServer => Request.deed s.core.shm h iface m ((s.msg dir h).drop headerLen)
  | .take h _ _ _, .serverToClient => Event.deed s.core.placeholders h ((s.msg dir h).drop headerLen)
  | _, _ => .nothing

def endedBy (s : Session) (ended : List ℕ) : Dir → List ℕ
  | .serverToClient => ended
  | .clientToServer => match next s.core .clientToServer (s.inbound .clientToServer) with
    | .take h iface m _ => match decode m ((s.msg .clientToServer h).drop headerLen) with
      | .ok d => Request.ended h iface m d ended
      | .error _ => ended
    | _ => ended

/-- The compositor deletes the id of a wl_subsurface only once the client has destroyed it. -/
def honest (s : Session) (ended : List ℕ) (dir : Dir) : Bool :=
  match s.deed dir with
  | .delete object => (s.core.objects.get object).map Prod.fst ≠ some .wlSubsurface ∨ object ∈ ended
  | _ => true

lemma mem_of_honest {s : Session} {ended : List ℕ} {dir : Dir} {object version : ℕ} (h : s.honest ended dir = true)
    (hd : s.deed dir = .delete object) (hg : s.core.objects.get object = some (.wlSubsurface, version)) :
    object ∈ ended := by
  simpa [honest, hd, hg] using h

end Session

/-- A session, and the wl_subsurfaces its client has destroyed. -/
structure Tracked where
  session : Session
  ended : List ℕ

namespace Tracked

/-- A step of a session with such a compositor, and what it does to the surfaces: one turn of `pump`, or
anything else that befalls it. -/
inductive Step : Tracked → Deed → Tracked → Prop
  | turn {s s' : Session} {ended : List ℕ} {more : Bool} {clip' : Clipboard} (k : Kernel) (dir : Dir) (clip : Clipboard) :
      s.honest ended dir = true → Session.pumpOnce k dir (s, clip) = .ok more (s', clip') →
      Step ⟨s, ended⟩ (s.deed dir) ⟨s', s.endedBy ended dir⟩
  | input {s s' : Session} {ended : List ℕ} (i : Session.Input) : (∀ k dir clip, i ≠ .pump k dir clip) →
      i.run s = .ok () s' → Step ⟨s, ended⟩ .nothing ⟨s', ended⟩

end Tracked

section Objects

variable {v v' : View} {clip clip' : Clipboard} {h : Header} {iface : Interface} {m : Message} {version : ℕ}
  {msg : Bytes} {fds : List Fd} {d : Decoded} {x : ℕ} {i : Interface}

lemma forwarded_requested (ht : Taken v .clientToServer h iface m version msg)
    (hd : decode m (msg.drop headerLen) = .ok d) (hr : Requested h iface m version msg fds d v clip v' clip')
    (hx : v.objects.forwarded x = some i) : v'.objects.forwarded x = some i := by
  obtain hs | ⟨_, hs⟩ | hs := requested_cases ht hd hr
  · rw [hs.forwarded, hx]
  · obtain ⟨_, _, hf⟩ := hs.fresh
    exact hf.keeps hx
  · exact hs.shares.forwarded hx

lemma forwarded_subsurface (ht : Taken v .clientToServer h .wlSubcompositor m version msg)
    (hd : decode m (msg.drop headerLen) = .ok d)
    (hr : Requested h .wlSubcompositor m version msg fds d v clip v' clip')
    (hn : d.newObject = some (x, Interface.wlSubsurface.name)) :
    v.objects.forwarded x = none ∧ v'.objects.forwarded x = some .wlSubsurface := by
  cases hr with
  | passed out stamp v1 hs hc hrw hst hv =>
    have hshares := shares_of_creates ht.entry hd hs hc hv
    simp only [Shares, hn] at hshares
    obtain ⟨i, hname, hi, hf⟩ := hshares
    obtain rfl := Interface.name_inj hname
    refine ⟨hf.free, ?_⟩
    have ho : (v1.passUp out stamp).objects = v1.objects := by cases stamp <;> rfl
    rw [ho, hf.forwarded, Function.update_self, if_neg (by simp [hi])]
  | bound name v1 hs hi => cases hi
  | answered v1 v2 clip1 hs => cases hs

lemma forwarded_happened (ht : Taken v .serverToClient h iface m version msg)
    (hd : decode m (msg.drop headerLen) = .ok d) (hh : Happened h iface m version msg d v clip v' clip')
    (hne : Event.deleted v.placeholders h (msg.drop headerLen) ≠ some x)
    (hx : v.objects.forwarded x = some i) : v'.objects.forwarded x = some i := by
  obtain ⟨r, r', v1, v2, v3, h1, hdel, h3, hv⟩ := happened_cases ht hd hh
  have h2 : v2.objects.forwarded x = some i := by
    have hx1 : v1.objects.forwarded x = some i := by rw [h1.forwarded, hx]
    cases hdel with
    | placeholder id n ho hop hid hp => exact hx1
    | object id ho hop hid hp =>
      have hid' : x ≠ id := by
        intro he
        rw [h1.placeholders] at hp
        exact hne (by simp [Event.deleted, ho, hop, hid, AList.lookup_eq_none.mp hp, he])
      rw [Objects.forwarded_erase, Function.update_of_ne hid', hx1]
    | other hno => exact hx1
  have h4 : v3.objects.forwarded x = some i := by rw [h3.forwarded, h2]
  rw [hv]
  split <;> exact h4

end Objects

lemma Objects.get_of_forwarded {o : Objects} {id : ℕ} {i : Interface} (h : o.forwarded id = some i) :
    ∃ version, o.get id = some (i, version) := by
  unfold forwarded at h
  split at h
  · rename_i j version hget
    split at h
    · cases h
    · cases h
      exact ⟨version, hget⟩
  · cases h

/-- The surfaces make a forest, the wl_subsurfaces are among the live objects, and those destroyed are forgotten. -/
structure Core.Rooted (ended : List ℕ) (c : Core) : Prop where
  forest : c.shm.scene.Forest
  keyed : ∀ id ∈ c.shm.subsurfaces, c.objects.forwarded id = some .wlSubsurface
  ended : ∀ id ∈ ended, id ∉ c.shm.subsurfaces

lemma getSubsurface_args : ∀ m ∈ Interface.wlSubcompositor.table .clientToServer, m.name = "get_subsurface" →
    m.args = [.newId (some .wlSubsurface), .object false, .object false] := by decide

lemma deed_adopt {iface : Interface} {m : Message} {d : Decoded}
    {id s p : ℕ} (hm : m ∈ iface.table .clientToServer) (hd : decode m body = .ok d)
    (ha : Request.deed t h iface m body = .adopt id s p) :
    iface = .wlSubcompositor ∧ d.newObject = some (id, Interface.wlSubsurface.name) := by
  unfold Request.deed at ha
  split at ha
  · split at ha <;> cases ha
  split at ha
  · cases ha
  split at ha
  · rename_i hc
    obtain ⟨rfl, hname⟩ := hc
    split at ha
    · rename_i args hread
      cases ha
      obtain ⟨left, hread⟩ := readArgs_ok hread
      obtain ⟨id', mid, hid, hread⟩ := ArgReader.bind_ok hread
      obtain ⟨s', _, _, hread⟩ := ArgReader.bind_ok hread
      obtain ⟨p', _, _, hread⟩ := ArgReader.bind_ok hread
      cases (Prod.mk.inj (Except.ok.inj hread)).1
      exact ⟨rfl, decode_first (getSubsurface_args m hm hname) hd hid⟩
    · cases ha
  split at ha
  · cases ha
  split at ha
  · cases ha
  split at ha <;> cases ha

lemma deed_destroy {iface : Interface} {m : Message}
    (hi : iface = .wlSubsurface) (hm : m.name = "destroy") :
    Request.deed t h iface m body = .destroy h.object := by
  simp [Request.deed, hi, hm]

namespace Core.Rooted

variable {c c' : Core} {ended : List ℕ} {clip clip' : Clipboard} {h : Header} {iface : Interface} {m : Message}
  {version : ℕ} {msg : Bytes} {k : Kernel}

lemma request {fds : List Fd} {d : Decoded} (hc : c.Rooted ended)
    (ht : Taken c.view .clientToServer h iface m version msg) (hd : decode m (msg.drop headerLen) = .ok d)
    (hr : Requested h iface m version msg fds d c.view clip c'.view clip')
    (ha : Request.account k h iface m (msg.drop headerLen) fds d c.shm = .ok () c'.shm) :
    c'.shm.scene = c.shm.scene.perform (Request.deed c.shm h iface m (msg.drop headerLen)) ∧
      c'.Rooted (Request.ended h iface m d ended) := by
  obtain ⟨hscene, hadopt⟩ := wp_ok (Request.wp_account k h iface m (msg.drop headerLen) fds d hc.forest) ha
  have hm := List.mem_of_getElem? ht.entry
  have hfresh (id s p : ℕ) (he : Request.deed c.shm h iface m (msg.drop headerLen) = .adopt id s p) :
      c.objects.forwarded id = none ∧ c'.objects.forwarded id = some .wlSubsurface := by
    obtain ⟨rfl, hn⟩ := deed_adopt hm hd he
    exact forwarded_subsurface ht hd hr hn
  have hmem {x : ℕ} (hx : x ∈ c'.shm.subsurfaces) := mem_of_perform hscene hx
  refine ⟨hscene, ?_, fun x hx => ?_, fun x hx hin => ?_⟩
  · rw [hscene]
    refine hc.forest.perform _ fun id s p he => ?_
    obtain ⟨hrole, hup⟩ := hadopt id s p he
    refine ⟨hrole, fun hpath => hup ((Shm.chain_up hc.forest p).mem_iff.mpr hpath), fun hin => ?_⟩
    have hfree := (hfresh id s p he).1
    rw [hc.keyed id hin] at hfree
    cases hfree
  · obtain hold | ⟨s, p, he⟩ := (hmem hx).1
    · exact forwarded_requested ht hd hr (hc.keyed x hold)
    · exact (hfresh x s p he).2
  · obtain ⟨hx, hnew⟩ := List.mem_filter.mp hx
    obtain hold | ⟨s, p, he⟩ := (hmem hin).1
    · split at hx
      · rename_i hdestroy
        obtain rfl | hx := List.mem_cons.mp hx
        · exact (hmem hin).2 (deed_destroy hdestroy.1 hdestroy.2)
        · exact hc.ended x hx hold
      · exact hc.ended x hx hold
    · simp [(deed_adopt hm hd he).2] at hnew

lemma event {d : Decoded} (hc : c.Rooted ended) (ht : Taken c.view .serverToClient h iface m version msg)
    (hd : decode m (msg.drop headerLen) = .ok d)
    (hh : Happened h iface m version msg d c.view clip c'.view clip')
    (hs : Event.Settles k h (msg.drop headerLen) c.placeholders c.shm c'.shm)
    (honest : ∀ id version, Event.deed c.placeholders h (msg.drop headerLen) = .delete id →
      c.objects.get id = some (.wlSubsurface, version) → id ∈ ended) :
    c'.shm.scene = c.shm.scene.perform (Event.deed c.placeholders h (msg.drop headerLen)) ∧ c'.Rooted ended := by
  have hscene := Event.scene_settles hs
  have hdeed (id s p : ℕ) : Event.deed c.placeholders h (msg.drop headerLen) ≠ .adopt id s p := by
    unfold Event.deed
    cases Event.deleted c.placeholders h (msg.drop headerLen) <;> exact nofun
  have hold {x : ℕ} (hx : x ∈ c'.shm.subsurfaces) : x ∈ c.shm.subsurfaces := by
    obtain hx | ⟨s, p, he⟩ := (mem_of_perform hscene hx).1
    · exact hx
    · exact absurd he (hdeed x s p)
  refine ⟨hscene, ?_, fun x hx => ?_, fun x hx hin => hc.ended x hx (hold hin)⟩
  · rw [hscene]
    exact hc.forest.perform _ fun id s p he => absurd he (hdeed id s p)
  · have hlive := hc.keyed x (hold hx)
    refine forwarded_happened ht hd hh (fun hdel => ?_) hlive
    obtain ⟨version, hget⟩ := Objects.get_of_forwarded hlive
    have hdelete : Event.deed c.placeholders h (msg.drop headerLen) = .delete x := congrArg (Option.elim · _ _) hdel
    exact hc.ended x (honest x version hdelete hget) (hold hx)

lemma same {c' : Core} (hc : c.Rooted ended) (hs : c'.shm = c.shm) (ho : c'.objects.forwarded = c.objects.forwarded) :
    c'.Rooted ended :=
  ⟨hs ▸ hc.forest, fun id hid => ho ▸ hc.keyed id (hs ▸ hid), fun id hid => hs ▸ hc.ended id hid⟩

end Core.Rooted

namespace Session

variable {s : Session} {ended : List ℕ}

lemma rooted_turn (k : Kernel) (dir : Dir) (clip : Clipboard) (hs : s.core.Rooted ended)
    (honest : s.honest ended dir = true) : wp (pumpOnce k dir)
      (fun _ x => x.1.core.shm.scene = s.core.shm.scene.perform (s.deed dir) ∧ x.1.core.Rooted (s.endedBy ended dir))
      (fun _ _ => True) (s, clip) := by
  refine wp_pumpOnce (fun hn => ?_) (fun _ _ => trivial) (fun n hn => ?_) fun h iface m version hn => ?_
  · have hd : s.deed dir = .nothing := by simp [deed, hn]
    have he : s.endedBy ended dir = ended := by cases dir <;> simp [endedBy, hn]
    rw [hd, he]
    exact ⟨rfl, hs⟩
  · have hd : s.deed dir = .nothing := by simp [deed, hn]
    have he : s.endedBy ended dir = ended := by cases dir <;> simp [endedBy, hn]
    rw [hd, he, show (s.setInbound ((s.inbound dir).take n).2 dir).core = s.core from core_setInbound _ _ _]
    exact ⟨rfl, hs⟩
  have ht := taken hn
  cases dir with
  | clientToServer =>
    refine wp_mono (wp_and (wp_request k h iface m version _ _ ⟨s.core, clip⟩) (shm_request k version _))
      (fun _ w hw => ?_) fun _ _ _ => trivial
    obtain ⟨⟨d, hd, hr⟩, d', hd', ha⟩ := hw
    cases hd.symm.trans hd'
    have hdeed : s.deed .clientToServer =
        Request.deed s.core.shm h iface m ((s.msg .clientToServer h).drop headerLen) := by simp [deed, hn]
    have hended : s.endedBy ended .clientToServer = Request.ended h iface m d ended := by
      simp [endedBy, hn, hd]
    rw [hdeed, hended]
    exact hs.request ht hd hr ha
  | serverToClient =>
    refine wp_mono (wp_and (wp_event k h iface m version _ _ ⟨s.core, clip⟩) (shm_event k version _))
      (fun _ w hw => ?_) fun _ _ _ => trivial
    obtain ⟨⟨d, hd, hh⟩, hsettles⟩ := hw
    have hdeed : s.deed .serverToClient =
        Event.deed s.core.placeholders h ((s.msg .serverToClient h).drop headerLen) := by simp [deed, hn]
    rw [hdeed]
    exact hs.event ht hd hh hsettles fun id version hid hg => mem_of_honest honest (hdeed.trans hid) hg

lemma Input.still (i : Input) (hi : ∀ k dir clip, i ≠ .pump k dir clip) (s : Session) : wp i.run
    (fun _ s' => s'.core.shm = s.core.shm ∧ s'.core.objects.forwarded = s.core.objects.forwarded)
    (fun _ _ => True) s := by
  cases i with
  | arrive dir bytes fds =>
    have hc : (s.arrive dir bytes fds).core = s.core := core_setInbound _ _ _
    simp [Input.run, hc]
  | pump k dir clip => exact absurd rfl (hi k dir clip)
  | act clip a =>
    simp only [Input.run, wp_zoom]
    refine wp_mono (wp_and (Core.steered_still.act clip a s.core rfl) (Core.wp_act clip a s.core)) (fun _ c hc => ?_)
      fun _ _ _ => trivial
    exact ⟨hc.1, (Steady.acted hc.2).forwarded⟩
  | flushClient results | flushServer results =>
    simp only [Input.run, wp_bind, wp_zoom]
    exact wp_of_cases (fun _ _ _ => ⟨rfl, rfl⟩) fun _ _ _ => trivial

end Session

namespace Tracked

/-- The books of a session are in order, and its surfaces make a forest. -/
structure Rooted (w : Tracked) : Prop where
  sound : w.session.Sound
  core : w.session.core.Rooted w.ended

lemma rooted_opened (zone : String) (holdAwake : Bool) (id : ℕ) : Rooted ⟨Session.opened zone holdAwake id, []⟩ where
  sound := Session.sound_opened zone holdAwake id
  core := {
    forest := {
      acyclic := fun _ h => by
        obtain ⟨_, h, -⟩ := TransGen.head'_iff.mp h
        cases h
      linked := fun _ _ => rfl
      roled := fun _ h => by cases h
      made := fun _ _ h => by cases h }
    keyed := fun _ h => by cases h
    ended := fun _ h => by cases h }

lemma Step.rooted {w w' : Tracked} {deed : Deed} (h : Step w deed w') (hw : w.Rooted) :
    w'.session.core.shm.scene = w.session.core.shm.scene.perform deed ∧ w'.Rooted := by
  cases h with
  | turn k dir clip honest hrun =>
    have hturn := wp_ok (Session.rooted_turn k dir clip hw.core honest) hrun
    have hsound := wp_ok (Session.sound_pumpOnce k dir clip hw.sound) hrun
    exact ⟨hturn.1, hsound, hturn.2⟩
  | input i hi hrun =>
    have hstill := wp_ok (i.still hi _) hrun
    have hsound := wp_ok (i.safe _ hw.sound) hrun
    exact ⟨congrArg Shm.scene hstill.1, hsound, hw.core.same hstill.1 hstill.2⟩

def Reaches : Tracked → Tracked → Prop := ReflTransGen (fun w w' => ∃ deed, Step w deed w')

lemma Reaches.rooted {w w' : Tracked} (h : Reaches w w') (hw : w.Rooted) : w'.Rooted := by
  induction h with
  | refl => exact hw
  | tail _ hstep ih =>
    obtain ⟨deed, hstep⟩ := hstep
    exact (hstep.rooted ih).2

end Tracked

/-- The subsurfaces of a session make a forest that `up` climbs to its roots, and `apply` comes to its end on it. -/
structure Shm.Forested (t : Shm) : Prop where
  acyclic : Forest.Acyclic t.scene.parent
  children : ∀ s p, (t.scene.children p).count s = if t.scene.parent s = some p then 1 else 0
  role : ∀ s p, t.scene.parent s = some p →
    ∃ object, t.scene.role s = some object ∧ t.subsurfaces.lookup object = some s
  up : ∀ s, Forest.Chain t.scene.parent s (t.up s)
  synced : ∀ s, t.synced s = true ↔
    ∃ a, ReflTransGen (Forest.Up t.scene.parent) s a ∧ (t.surfaces.lookup a).any Surface.sync = true
  apply : ∀ k s, ∃ t', Shm.apply k s t = .ok () t'

lemma Tracked.Rooted.forested {w : Tracked} (h : w.Rooted) : w.session.core.shm.Forested where
  acyclic := h.core.forest.acyclic
  children := h.core.forest.linked
  role s p hp := by
    obtain ⟨object, ho⟩ := Option.isSome_iff_exists.mp (h.core.forest.roled s (by rw [hp]; rfl))
    exact ⟨object, ho, h.core.forest.made s object ho⟩
  up := Shm.chain_up h.core.forest
  synced := Shm.synced_iff h.core.forest
  apply k s := Shm.apply_returns k h.sound.core.shm s

namespace Tracked

/-- With a compositor that deletes no wl_subsurface before its client does, the subsurfaces make a forest in every
state a session reaches. -/
theorem reaches_forested (zone : String) (holdAwake : Bool) (id : ℕ) (w : Tracked)
    (h : Reaches ⟨Session.opened zone holdAwake id, []⟩ w) : w.session.core.shm.Forested :=
  (h.rooted (rooted_opened zone holdAwake id)).forested

structure Sending where
  dir : Dir
  msg : MessageWriter
  fds : List Fd := []

/-- A message arrives and is taken, if the compositor may send it. -/
def hear (k : Kernel) (w : Tracked) (x : Sending) : Option Tracked :=
  let s := w.session.arrive x.dir (x.msg.finish.getD []) x.fds
  if s.honest w.ended x.dir then
    match Session.pumpOnce k x.dir (s, {}) with
    | .ok _ (s', _) => some ⟨s', s.endedBy w.ended x.dir⟩
    | .error _ _ => none
  else none

lemma reaches_hear {k : Kernel} {w w' : Tracked} {x : Sending} (h : w.hear k x = some w') : Reaches w w' := by
  unfold hear at h
  dsimp only at h
  split at h
  · rename_i honest
    split at h
    · rename_i more s' clip' hrun
      cases h
      have harrive : Step w .nothing ⟨w.session.arrive x.dir (x.msg.finish.getD []) x.fds, w.ended⟩ :=
        .input (.arrive x.dir (x.msg.finish.getD []) x.fds) nofun rfl
      exact .trans (.single ⟨_, harrive⟩) (.single ⟨_, .turn k x.dir {} honest hrun⟩)
    · cases h
  · cases h

lemma reaches_foldlM {k : Kernel} {w w' : Tracked} (xs : List Sending) (h : xs.foldlM (hear k) w = some w') :
    Reaches w w' := by
  induction xs generalizing w with
  | nil =>
    cases h
    exact .refl
  | cons x xs ih =>
    obtain ⟨w1, h1, h⟩ := Option.bind_eq_some_iff.mp h
    exact .trans (reaches_hear h1) (ih h)

def binding (gname : ℕ) (name : String) (object : ℕ) : List Sending :=
  [⟨.serverToClient, (((MessageWriter.new 2 0).u32 gname).string name).u32 1, []⟩,
    ⟨.clientToServer, ((((MessageWriter.new 2 0).u32 gname).string name).u32 1).u32 object, []⟩]

def getRegistry : Sending := ⟨.clientToServer, (MessageWriter.new 1 1).u32 2, []⟩

def deletion (object : ℕ) : Sending := ⟨.serverToClient, (MessageWriter.new 1 1).u32 object, []⟩

def nesting : List Sending :=
  let request (msg : MessageWriter) : Sending := ⟨.clientToServer, msg, []⟩
  getRegistry :: binding 1 "wl_compositor" 3 ++ binding 2 "wl_subcompositor" 4 ++
    [request ((MessageWriter.new 3 0).u32 5), request ((MessageWriter.new 3 0).u32 6),
      request ((MessageWriter.new 3 0).u32 7), request ((((MessageWriter.new 4 1).u32 8).u32 5).u32 6),
      request ((((MessageWriter.new 4 1).u32 9).u32 6).u32 7), request (MessageWriter.new 8 0), deletion 8]

/-- A client makes a subsurface of a subsurface, ends the role of the lower one, and that one's id is deleted. -/
theorem reaches_forested_nested : ∃ w, Reaches ⟨Session.opened "work" false 0, []⟩ w ∧
    w.session.core.shm.scene.parent 6 = some 7 ∧ w.ended = [8] ∧ w.session.core.shm.Forested := by
  have hrun : (nesting.foldlM (hear .willing) ⟨Session.opened "work" false 0, []⟩).any
      (fun w => decide ((w.session.core.shm.surfaces.lookup 6).bind Surface.parent = some 7 ∧ w.ended = [8])) = true := by
    decide +kernel
  obtain ⟨w, hw, hp⟩ := Option.any_eq_true _ _ |>.mp hrun
  obtain ⟨hparent, hended⟩ := of_decide_eq_true hp
  have hreach := reaches_foldlM nesting hw
  exact ⟨w, hreach, hparent, hended, reaches_forested "work" false 0 w hreach⟩

end Tracked

end Kryptik.Wlproxy
