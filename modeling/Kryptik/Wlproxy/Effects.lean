import Kryptik.Wlproxy.Pump

namespace Kryptik.Wlproxy

open Lib Prog Tables Wire Protocol

/-- What of a session its object map, its copies and pastes and its history
show; the accounts of shared memory and the queues are left out. -/
structure View where
  zone : String
  holdAwake : Bool
  id : ℕ
  objects : Objects
  globals : Table ℕ (String × ℕ)
  sources : Table ℕ Source
  devices : List ℕ
  offers : Table ℕ ℕ
  placeholders : Table ℕ ℕ
  sentUp : List Sent
  sentDown : List Sent
  births : ℕ
  handed : List Handed

def Core.view (c : Core) : View :=
  ⟨c.zone, c.holdAwake, c.id, c.objects, c.globals, c.sources, c.devices, c.offers, c.placeholders,
    c.sentUp, c.sentDown, c.births, c.handed⟩

namespace View

variable {v v' v'' : View} {clip : Clipboard} {devs : List ℕ}

def sendUp (v : View) (origin : Origin) (msg : Bytes) : View :=
  { v with sentUp := v.sentUp ++ [⟨origin, msg, v.objects⟩] }

def sendDown (v : View) (origin : Origin) (msg : Bytes) : View :=
  { v with sentDown := v.sentDown ++ [⟨origin, msg, v.objects⟩] }

def Registers (id : ℕ) (name : String) (version : ℕ) (dir : Dir) (v v' : View) : Prop :=
  id ≠ 0 ∧ Core.inRange id dir = true ∧ ∃ iface objects, find name = some iface ∧
    v.objects.insert id (iface, version) = .ok objects ∧ v' = { v with objects := objects }

def Tells (w : MessageWriter) (v v' : View) : Prop :=
  ∃ msg, w.finish = some msg ∧ v' = v.sendDown .own msg

/-- The request that holds a served object's place at the compositor. -/
def syncOn (id : ℕ) : MessageWriter := (MessageWriter.new wlDisplay wlDisplaySync).u32 id

def Places (id : ℕ) (v v' : View) : Prop :=
  ∃ msg, (syncOn id).finish = some msg ∧ v' = { v.sendUp .placeholder msg with
    placeholders := v.placeholders.insert id ((v.placeholders.lookup id).getD 0 + 1) }

/-- Some of the steps that offer the selection to the data devices `devs`. -/
inductive Offering (clip : Clipboard) (devs : List ℕ) : View → View → Prop
  | done (v : View) : Offering clip devs v v
  | tell {v v' : View} (w : MessageWriter) (msg : Bytes) : w.finish = some msg →
      w.opcode < 2 ^ 16 → (w.object ∈ devs ∨ ∃ version, v.objects.get w.object = some (.wlDataOffer, version)) →
      Offering clip devs (v.sendDown .own msg) v' → Offering clip devs v v'
  | make {v v' : View} (dev offer version : ℕ) (iface : Interface) (objects : Objects) : dev ∈ devs →
      v.objects.get dev = some (iface, version) → v.objects.freeServerId = some offer →
      v.objects.insert offer (.wlDataOffer, version) = .ok objects →
      Offering clip devs
        { v with objects := objects, offers := v.offers.insert offer clip.generation } v' →
      Offering clip devs v v'

lemma Offering.trans (h : Offering clip devs v v') (h' : Offering clip devs v' v'') : Offering clip devs v v'' := by
  induction h with
  | done => exact h'
  | tell w msg hm ho hw _ ih => exact .tell w msg hm ho hw (ih h')
  | make dev offer version iface objects hd hg hf hi _ ih =>
    exact .make dev offer version iface objects hd hg hf hi (ih h')

structure Quiet (v v' : View) : Prop where
  sentUp : v'.sentUp = v.sentUp
  sentDown : v'.sentDown = v.sentDown
  id : v'.id = v.id
  handed : v'.handed = v.handed

lemma Quiet.refl (v : View) : Quiet v v := ⟨rfl, rfl, rfl, rfl⟩

lemma Quiet.trans (h : Quiet v v') (h' : Quiet v' v'') : Quiet v v'' :=
  ⟨h'.sentUp.trans h.sentUp, h'.sentDown.trans h.sentDown, h'.id.trans h.id, h'.handed.trans h.handed⟩

end View

namespace Core

open View

variable {c : Core} {clip : Clipboard} {devs : List ℕ}

lemma wp_register (id : ℕ) (name : String) (version : ℕ) (dir : Dir) (c : Core) :
    wp (register id name version dir) (fun _ c' => Registers id name version dir c.view c'.view)
      (fun _ c' => c' = c) c := by
  refine wp_ite (fun _ => rfl) fun hid => ?_
  simp only [wp_bind, wp_orRefuse, wp_get]
  refine ⟨fun iface hf => ?_, fun _ => trivial⟩
  refine wp_ite (fun _ => rfl) fun _ => wp_ite (fun _ => rfl) fun _ => ?_
  simp only [wp_bind, wp_liftSession, wp_set]
  refine ⟨fun objects ho => ?_, fun _ _ => trivial⟩
  obtain ⟨hr, h0⟩ : inRange id dir = true ∧ id ≠ 0 := by simpa using hid
  exact ⟨h0, hr, iface, objects, hf, ho, rfl⟩

lemma wp_emit (w : MessageWriter) (fds : List Fd) (c : Core) :
    wp (emit w.finish fds) (fun _ c' => Tells w c.view c'.view) (fun _ c' => c' = c) c := by
  unfold emit
  simp only [wp_bind, wp_orRefuse, wp_get]
  refine ⟨fun msg hm => ?_, fun _ => trivial⟩
  exact wp_ite (fun _ => rfl) fun _ => wp_ite (fun _ => rfl) fun _ => ⟨msg, hm, rfl⟩

lemma wp_placeholder (id : ℕ) (c : Core) : wp (placeholder id)
    (fun _ c' => Places id c.view c'.view) (fun _ c' => c' = c) c := by
  unfold placeholder
  simp only [wp_bind, wp_orRefuse, wp_get]
  exact ⟨fun msg hm => wp_ite (fun _ => rfl) fun _ => ⟨msg, hm, rfl⟩, fun _ => trivial⟩

lemma Offering.wp_emit {v : View} (h : Offering clip devs v c.view) {w : MessageWriter}
    (hop : w.opcode < 2 ^ 16) (hw : w.object ∈ devs ∨ ∃ version, c.objects.get w.object = some (.wlDataOffer, version)) :
    wp (emit w.finish []) (fun _ c' => Offering clip devs v c'.view ∧ c'.objects = c.objects)
      (fun _ c' => Offering clip devs v c'.view) c := by
  refine wp_mono (Core.wp_emit w [] c) (fun _ c' ht => ?_) fun _ c' he => he ▸ h
  obtain ⟨msg, hm, hv⟩ := ht
  refine ⟨h.trans (.tell w msg hm hop hw (hv ▸ .done _)), ?_⟩
  exact congrArg View.objects hv

lemma find_wlDataOffer : find "wl_data_offer" = some .wlDataOffer := by decide

lemma wp_offerTo {v : View} {dev : ℕ} (hd : dev ∈ devs) (h : Offering clip devs v c.view) :
    wp (offerTo clip dev) (fun _ c' => Offering clip devs v c'.view) (fun _ c' => Offering clip devs v c'.view) c := by
  have hselection : wlDataDeviceSelection < 2 ^ 16 := by decide
  have hoffer : wlDataDeviceDataOffer < 2 ^ 16 := by decide
  unfold offerTo
  simp only [wp_bind, wp_get]
  cases hg : c.objects.get dev with
  | none => exact h
  | some x =>
    obtain ⟨iface, version⟩ := x
    cases clip.selection with
    | none =>
      exact wp_mono (Offering.wp_emit h hselection (Or.inl hd)) (fun _ _ h' => h'.1) fun _ _ h' => h'
    | some sel =>
      simp only [wp_bind, wp_orRefuse]
      refine ⟨fun offer hf => ?_, fun _ => h⟩
      refine wp_mono (wp_register _ _ _ _ c) (fun _ c1 hr => ?_) fun _ _ he => he ▸ h
      obtain ⟨_, _, iface', objects, hfind, hi, hv⟩ := hr
      obtain rfl : Interface.wlDataOffer = iface' := Option.some.inj (find_wlDataOffer.symm.trans hfind)
      rw [wp_modify]
      set c2 : Core := { c1 with offers := c1.offers.insert offer clip.generation } with hc2
      have ho2 : c2.objects.get offer = some (.wlDataOffer, version) := by
        have ho : c1.objects = objects := congrArg View.objects hv
        rw [ho, (Objects.inserted hi).get, if_pos rfl]
      have h2 : Offering clip devs v c2.view := by
        refine h.trans (.make dev offer version iface objects hd hg hf hi ?_)
        have he : c2.view = { c1.view with offers := c1.view.offers.insert offer clip.generation } :=
          rfl
        rw [he, hv]
        exact .done _
      refine wp_mono (Offering.wp_emit h2 hoffer (.inl hd)) (fun _ c3 h3 => ?_) fun _ _ he => he
      have hloop : wp (sel.mimes.forM fun t =>
            emit ((MessageWriter.new offer wlDataOfferOffer).string t).finish [])
          (fun _ c' => Offering clip devs v c'.view ∧ c'.objects = c2.objects)
          (fun _ c' => Offering clip devs v c'.view) c3 := by
        refine wp_forM sel.mimes (fun t _ c' h' => ?_) h3
        have hw : c'.objects.get offer = some (.wlDataOffer, version) := by rw [h'.2, ho2]
        refine wp_mono (Offering.wp_emit h'.1 hoffer (.inr ⟨version, hw⟩)) (fun _ c'' h'' => ?_) fun _ _ he => he
        exact ⟨h''.1, h''.2.trans h'.2⟩
      refine wp_mono hloop (fun _ c4 h4 => ?_) fun _ _ he => he
      exact wp_mono (Offering.wp_emit h4.1 hselection (Or.inl hd)) (fun _ _ h' => h'.1) fun _ _ h' => h'

lemma wp_offerSelection (clip : Clipboard) (devices : List ℕ) (c : Core) :
    wp (offerSelection clip devices) (fun _ c' => Offering clip devices c.view c'.view)
      (fun _ c' => Offering clip devices c.view c'.view) c :=
  wp_forM devices (fun _ hd _ h => wp_offerTo hd h) (.done _)

lemma wp_servedGone (id : ℕ) (c : Core) : wp (servedGone id)
    (fun _ c' => Tells ((MessageWriter.new wlDisplay wlDisplayDeleteId).u32 id)
      { c.view with objects := c.objects.erase id } c'.view)
    (fun _ c' => Quiet c.view c'.view) c := by
  simp only [servedGone, onObjects, wp_bind, wp_zoom]
  refine wp_mono (Objects.wp_remove c.objects id) (fun _ o ho => ?_) fun _ _ _ => ⟨rfl, rfl, rfl, rfl⟩
  refine wp_mono (wp_emit _ _ _) (fun _ c' ht => ?_) fun _ _ he => he ▸ ⟨rfl, rfl, rfl, rfl⟩
  rwa [ho] at ht

end Core

namespace View


inductive Served (object : ℕ) (body : Bytes) (fds : List Fd) (v : View) (clip : Clipboard) :
    Interface → String → View → Clipboard → Prop
  | createDataSource (id : ℕ) : readArgs ArgReader.u32 body = .ok id →
      Served object body fds v clip .wlDataDeviceManager "create_data_source"
        { v with sources := v.sources.insert id ⟨[], v.births⟩, births := v.births + 1 } clip
  | getDataDevice (id : ℕ) : readArgs ArgReader.u32 body = .ok id →
      Served object body fds v clip .wlDataDeviceManager "get_data_device"
        { v with devices := v.devices ++ [id] } clip
  | sourceOffer (src : Source) (mime : String) : v.sources.lookup object = some src →
      Served object body fds v clip .wlDataSource "offer"
        { v with sources := v.sources.insert object { src with types := src.types ++ [mime] } } clip
  | sourceDestroy (v' : View) :
      Tells ((MessageWriter.new wlDisplay wlDisplayDeleteId).u32 object)
        { v with sources := v.sources.erase object, objects := v.objects.erase object } v' →
      Served object body fds v clip .wlDataSource "destroy" v' (clip.sourceGone v.id object)
  | clear : clip.focus = some v.id →
      Served object body fds v clip .wlDataDevice "set_selection" v (clip.setSelection none)
  | copy (source : ℕ) (src : Source) : clip.focus = some v.id → source ≠ 0 →
      readArgs ArgReader.u32 body = .ok source → v.sources.lookup source = some src →
      Served object body fds v clip .wlDataDevice "set_selection" v
        (clip.setSelection (some ⟨v.id, source, src.types, none, src.birth⟩))
  | cancel (source : ℕ) (request : String) (v' : View) : source ∈ v.sources →
      Tells (MessageWriter.new source wlDataSourceCancelled) v v' →
      Served object body fds v clip .wlDataDevice request v' clip
  | deviceRelease (v' : View) :
      Tells ((MessageWriter.new wlDisplay wlDisplayDeleteId).u32 object)
        { v with devices := v.devices.filter (· ≠ object), objects := v.objects.erase object } v' →
      Served object body fds v clip .wlDataDevice "release" v' clip
  | receive (sel : Selection) (fd : Fd) (mime : Option String) : clip.selection = some sel →
      fds.getLast? = some fd → readArgs ArgReader.string body = .ok mime →
      v.offers.lookup object = some clip.generation → mime.getD "" ∈ sel.mimes →
      Served object body fds v clip .wlDataOffer "receive" v
        { clip with
          actions := clip.actions ++ [.send sel.owner sel.source (mime.getD "") fd (v.offers.lookup object)] }
  | offerDestroy : Served object body fds v clip .wlDataOffer "destroy"
      { v with offers := v.offers.erase object, objects := v.objects.erase object } clip
  | nothing (iface : Interface) (request : String) : Served object body fds v clip iface request v clip

def Unserved (object : ℕ) (iface : Interface) (request : String) (v : View) (clip : Clipboard) (v' : View)
    (clip' : Clipboard) : Prop :=
  Quiet v v' ∧ (clip' = clip ∨ iface = .wlDataSource ∧ request = "destroy" ∧ clip' = clip.sourceGone v.id object)

end View

open View

section Serve

variable (object : ℕ) (body : Bytes) (fds : List Fd) (w : World)

def Answers (iface : Interface) (request : String) (x : M Unit) : Prop :=
  wp x (fun _ w' => Served object body fds w.core.view w.clip iface request w'.core.view w'.clip)
    (fun _ w' => Unserved object iface request w.core.view w.clip w'.core.view w'.clip) w

variable {object body fds w}

lemma unserved_same {iface : Interface} {request : String} :
    Unserved object iface request w.core.view w.clip w.core.view w.clip :=
  ⟨.refl _, Or.inl rfl⟩

lemma answers_createDataSource : Answers object body fds w .wlDataDeviceManager
    "create_data_source" (Serve.createDataSource body) := by
  simp only [Answers, Serve.createDataSource, onCore, wp_zoom, wp_bind, wp_get]
  refine wp_ite (fun _ => unserved_same) fun _ => ?_
  simp only [wp_bind, wp_liftWire, wp_set]
  exact ⟨fun id hid => .createDataSource id hid, fun _ _ => unserved_same⟩

lemma answers_getDataDevice : Answers object body fds w .wlDataDeviceManager
    "get_data_device" (Serve.getDataDevice body) := by
  simp only [Answers, Serve.getDataDevice, onCore, wp_zoom, wp_bind, wp_liftWire, wp_modify]
  exact ⟨fun id hid => .getDataDevice id hid, fun _ _ => unserved_same⟩

lemma answers_sourceOffer : Answers object body fds w .wlDataSource "offer"
    (Serve.sourceOffer object body) := by
  simp only [Answers, Serve.sourceOffer, onCore, wp_zoom, wp_bind, wp_liftWire, wp_get, wp_orRefuse]
  refine ⟨fun mime _ => ⟨fun src hs => ?_, fun _ => unserved_same⟩, fun _ _ => unserved_same⟩
  refine wp_ite (fun _ => unserved_same) fun _ => wp_ite (fun _ => .nothing _ _) fun _ => ?_
  exact .sourceOffer src _ hs

lemma answers_sourceDestroy : Answers object body fds w .wlDataSource "destroy"
    (Serve.sourceDestroy object) := by
  simp only [Answers, Serve.sourceDestroy, onCore, onClip, wp_zoom, wp_bind, wp_get, wp_modify]
  exact wp_mono (Core.wp_servedGone object _) (fun _ _ ht => .sourceDestroy _ ht)
    fun _ _ he => ⟨⟨he.sentUp, he.sentDown, he.id, he.handed⟩, .inr ⟨rfl, rfl, rfl⟩⟩

lemma answers_cancel {request : String} {source : ℕ} (hs : source ∈ w.core.sources) :
    Answers object body fds w .wlDataDevice request (onCore (Core.cancel source)) := by
  simp only [Answers, onCore, wp_zoom, Core.cancel]
  exact wp_mono (Core.wp_emit _ _ _) (fun _ _ ht => .cancel source request _ hs ht) fun _ _ he => he.symm ▸ unserved_same

lemma answers_setSelection : Answers object body fds w .wlDataDevice "set_selection"
    (Serve.setSelection body) := by
  simp only [Answers, Serve.setSelection, wp_bind, wp_liftWire, wp_get]
  refine ⟨fun source hsource => wp_ite (fun _ => unserved_same) fun hin => ?_, fun _ _ => unserved_same⟩
  have hmem (h0 : source ≠ 0) : source ∈ w.core.sources := Classical.not_not.mp fun h => hin ⟨h0, h⟩
  refine wp_ite (fun hfocus => wp_ite (fun _ => .clear hfocus) fun h0 => ?_) fun _ =>
    wp_ite (fun hc => answers_cancel (hmem hc.1)) fun _ => .nothing _ _
  obtain ⟨src, hsrc⟩ := mem_iff_lookup.mp (hmem h0)
  rw [wp_bind, wp_unwrap hsrc]
  exact .copy source src hfocus h0 hsource hsrc

lemma answers_startDrag : Answers object body fds w .wlDataDevice "start_drag"
    (Serve.startDrag body) := by
  simp only [Answers, Serve.startDrag, onCore, wp_zoom, wp_bind, wp_liftWire, wp_get]
  refine ⟨fun source _ => wp_ite (fun hs => ?_) fun _ => .nothing _ _, fun _ _ => unserved_same⟩
  have hc : Answers object body fds w .wlDataDevice "start_drag" (onCore (Core.cancel source)) :=
    answers_cancel hs
  simpa only [Answers, onCore, wp_zoom] using hc

lemma answers_deviceRelease : Answers object body fds w .wlDataDevice "release"
    (Serve.deviceRelease object) := by
  simp only [Answers, Serve.deviceRelease, onCore, wp_zoom, wp_bind, wp_modify]
  exact wp_mono (Core.wp_servedGone object _) (fun _ _ ht => .deviceRelease _ ht)
    fun _ _ he => ⟨⟨he.sentUp, he.sentDown, he.id, he.handed⟩, .inl rfl⟩

lemma answers_receive : Answers object body fds w .wlDataOffer "receive"
    (Serve.receive object body fds) := by
  simp only [Answers, Serve.receive, wp_bind, wp_liftWire, wp_get]
  refine ⟨fun mime hmime => ?_, fun _ _ => unserved_same⟩
  split
  · rename_i sel fd hsel hfd
    exact wp_ite (fun h => .receive sel fd mime hsel hfd hmime h.1 h.2) fun _ => .nothing _ _
  · exact .nothing _ _

lemma answers_offerDestroy : Answers object body fds w .wlDataOffer "destroy"
    (Serve.offerDestroy object) := by
  simp only [Answers, Serve.offerDestroy, onCore, onObjects, wp_zoom, wp_bind, wp_modify]
  refine wp_mono (Objects.wp_remove w.core.objects object) (fun _ o ho => ?_)
    fun _ _ _ => ⟨⟨rfl, rfl, rfl, rfl⟩, .inl rfl⟩
  subst ho
  exact .offerDestroy

lemma answers_serve (iface : Interface) (request : String) :
    Answers object body fds w iface request (serve iface request object body fds) := by
  refine wp_ite ?_ fun _ => wp_ite ?_ fun _ => wp_ite ?_ fun _ => wp_ite ?_ fun _ => wp_ite ?_ fun _ =>
    wp_ite ?_ fun _ => wp_ite ?_ fun _ => wp_ite ?_ fun _ => wp_ite ?_ fun _ => .nothing _ _
  all_goals rintro ⟨rfl, rfl⟩
  · exact answers_createDataSource
  · exact answers_getDataDevice
  · exact answers_sourceOffer
  · exact answers_sourceDestroy
  · exact answers_setSelection
  · exact answers_startDrag
  · exact answers_deviceRelease
  · exact answers_receive
  · exact answers_offerDestroy

end Serve

end Kryptik.Wlproxy
