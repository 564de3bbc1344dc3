import Kryptik.Wlproxy.Frames
import Kryptik.Wlproxy.Reader

namespace Kryptik.Wlproxy

open Lib Prog Tables Wire Protocol View List Policy Interface

/-- Messages on the one interface create objects of the other. -/
def Protocol.Interface.Begets (i j : Interface) : Prop :=
  ∃ dir, ∃ m ∈ i.table dir, Arg.newId (some j) ∈ m.args

instance (i j : Interface) : Decidable (i.Begets j) :=
  decidable_of_iff ((∃ m ∈ i.table .clientToServer, Arg.newId (some j) ∈ m.args) ∨
    ∃ m ∈ i.table .serverToClient, Arg.newId (some j) ∈ m.args) <| by
      refine ⟨fun h => h.elim (fun h => ⟨_, h⟩) fun h => ⟨_, h⟩, ?_⟩
      rintro ⟨_ | _, h⟩
      · exact .inl h
      · exact .inr h

def Protocol.Interface.Reaches : Interface → Interface → Prop :=
  Relation.ReflTransGen Interface.Begets

structure Global where
  name : ℕ
  iface : String
  version : ℕ

def Global.own : Global := ⟨Policy.ownGlobalBase, "wl_data_device_manager", 3⟩

def Policy.cap (hold : Bool) (iface : String) : Option ℕ :=
  Policy.allowedVersion iface hold <|> Policy.ownVersion iface

/-- The global an object descends from, none under wl_display itself. -/
abbrev Lineage := ℕ → Option Global

namespace Sent

def OnRegistry (sent : Sent) (h : Header) : Prop :=
  Header.parse sent.bytes = .ok h ∧ ∃ version, sent.objects.get h.object = some (.wlRegistry, version)

def Announces (sent : Sent) (g : Global) : Prop :=
  ∃ h, sent.OnRegistry h ∧ h.opcode = wlRegistryGlobal ∧
    readArgs globalArgs (sent.bytes.drop headerLen) = .ok (g.name, g.iface, g.version)

structure Discreet (sent : Sent) (hold : Bool) (known : ℕ → Prop) : Prop where
  global : ∀ h, sent.OnRegistry h → h.opcode = wlRegistryGlobal →
    ∃ g : Global, sent.Announces g ∧ (g = .own ∨ (Policy.allowedVersion g.iface hold).isSome)
  remove : ∀ h, sent.OnRegistry h → h.opcode = wlRegistryGlobalRemove →
    ∃ name, readArgs ArgReader.u32 (sent.bytes.drop headerLen) = .ok name ∧ known name

/-- A request that the policy lets through: on an object the proxy does not serve,
of a version that has it, and a bind only of what may be bound. -/
def Lawful (sent : Sent) (hold : Bool) : Prop :=
  ∃ h iface version m, Header.parse sent.bytes = .ok h ∧ sent.objects.get h.object = some (iface, version) ∧
    (iface.table .clientToServer)[h.opcode]? = some m ∧ Policy.served iface.name = false ∧
    m.since ≤ version ∧ (iface = .wlRegistry → h.opcode = wlRegistryBind →
      ∃ d id name, decode m (sent.bytes.drop headerLen) = .ok d ∧ d.newObject = some (id, name) ∧
        (Policy.allowedVersion name hold).isSome)

end Sent

def Told (down : List Sent) (g : Global) : Prop := ∃ sent ∈ down, sent.Announces g

/-- Where a live object can come from, and so what versions it can have. -/
inductive Legit (hold : Bool) (down : List Sent) (line : Lineage) (id : ℕ) : Interface → ℕ → Prop
  | display : id = wlDisplay → Legit hold down line id .wlDisplay 1
  | plain (i : Interface) : i = .wlRegistry ∨ i = .wlCallback → id < serverIdBase → line id = none →
      Legit hold down line id i 1
  | bound (root i : Interface) (version max : ℕ) (g : Global) : line id = some g → id < serverIdBase →
      Policy.served i.name = false → g.iface = root.name → root.Reaches i →
      Policy.allowedVersion g.iface hold = some max → 1 ≤ version → version ≤ max →
      version ≤ g.version → Told down g → Legit hold down line id i version
  | served (i : Interface) (version : ℕ) : Policy.served i.name = true → id < 2 ^ 32 → 1 ≤ version →
      version ≤ Global.own.version → Told down .own →
      (i ≠ .wlDataOffer → id < serverIdBase ∧ line id = some .own) → Legit hold down line id i version

/-- The allowlist as an invariant, of the parts of a session it speaks of. -/
structure Allows (line : Lineage) (hidden : List ℕ) (hold : Bool) (objects : Objects)
    (globals : Table ℕ (String × ℕ)) (devices : List ℕ) (sources : Table ℕ Source)
    (up down : List Sent) : Prop where
  display : objects.get wlDisplay = some (.wlDisplay, 1)
  unrooted : line wlDisplay = none
  legit : ∀ id i version, objects.get id = some (i, version) → Legit hold down line id i version
  shown : ∀ name iface version, globals.lookup name = some (iface, version) →
    Told down ⟨name, iface, version⟩ ∧ ((⟨name, iface, version⟩ : Global) = .own ∨
      ∃ max, Policy.allowedVersion iface hold = some max ∧ version ≤ max)
  unshown : ∀ name ∈ hidden, name ∉ globals ∧ name < Policy.ownGlobalBase
  devices : ∀ id ∈ devices, ∃ version, objects.get id = some (.wlDataDevice, version)
  sources : ∀ id ∈ sources, ∃ version, objects.get id = some (.wlDataSource, version)
  lawful : ∀ sent ∈ up, sent.Lawful hold
  discreet : ∀ sent ∈ down, sent.Discreet hold (· ∈ globals)

structure View.Obeys (hold : Bool) (hidden : List ℕ) (v : View) : Prop where
  lawful : ∀ sent ∈ v.sentUp, sent.Lawful hold
  discreet : ∀ sent ∈ v.sentDown, sent.Discreet hold (· ∉ hidden)

def View.Allowed (line : Lineage) (hidden : List ℕ) (v : View) : Prop :=
  Allows line hidden v.holdAwake v.objects v.globals v.devices v.sources v.sentUp v.sentDown

section

variable {name : String} {hold : Bool} {down : List Sent} {line line' : Lineage} {id : ℕ} {i : Interface}
  {version : ℕ} {g : Global} {hidden : List ℕ} {v v' : View} {clip clip' : Clipboard} {devs : List ℕ}

lemma Told.more (h : Told down g) (more : List Sent) : Told (down ++ more) g := by
  obtain ⟨sent, hs, ha⟩ := h
  exact ⟨sent, mem_append_left more hs, ha⟩

lemma Legit.more (h : Legit hold down line id i version) (more : List Sent) :
    Legit hold (down ++ more) line id i version := by
  cases h with
  | display hid => exact .display hid
  | plain _ hi hid hl => exact .plain _ hi hid hl
  | bound root _ _ max g hl hid hs hr hre hm h1 hv hg ht =>
    exact .bound root _ _ max g hl hid hs hr hre hm h1 hv hg (ht.more more)
  | served _ _ hs hid h1 hv ht hl => exact .served _ _ hs hid h1 hv (ht.more more) hl

lemma Legit.relined (h : Legit hold down line id i version) (hl : line' id = line id) :
    Legit hold down line' id i version := by
  cases h with
  | display hid => exact .display hid
  | plain _ hi hid hn => exact .plain _ hi hid (hl.trans hn)
  | bound root _ _ max g hs hid =>
    exact .bound root _ _ max g (hl.trans hs) hid ‹_› ‹_› ‹_› ‹_› ‹_› ‹_› ‹_› ‹_›
  | served _ _ hs _ _ _ _ hown =>
    exact .served _ _ hs ‹_› ‹_› ‹_› ‹_› fun hi => ⟨(hown hi).1, hl.trans (hown hi).2⟩

lemma Legit.id_lt (h : Legit hold down line id i version) : id < 2 ^ 32 := by
  have hb : serverIdBase < 2 ^ 32 := by decide
  cases h with
  | display hid => rw [hid]; decide
  | plain _ _ hid | bound _ _ _ _ _ _ hid => omega
  | served _ _ _ hid => exact hid

lemma Legit.one_le (h : Legit hold down line id i version) : 1 ≤ version := by
  cases h <;> first | assumption | exact le_rfl

lemma Legit.of_served (h : Legit hold down line id i version) (hs : Policy.served i.name = true) :
    1 ≤ version ∧ version ≤ Global.own.version ∧ Told down .own ∧
      (i ≠ .wlDataOffer → id < serverIdBase ∧ line id = some .own) := by
  cases h with
  | display => cases hs
  | plain _ hi => rcases hi with rfl | rfl <;> cases hs
  | bound _ _ _ _ _ _ _ hn => rw [hn] at hs; cases hs
  | served _ _ _ _ h1 hv ht hl => exact ⟨h1, hv, ht, hl⟩

namespace View.Allowed

lemma queued (h : v.Allowed line hidden) {sent : Sent} (hs : sent.Discreet v.holdAwake (· ∈ v.globals)) :
    View.Allowed line hidden { v with sentDown := v.sentDown ++ [sent] } where
  display := h.display
  unrooted := h.unrooted
  legit id i version hg := (h.legit id i version hg).more [sent]
  shown name iface version hg := ⟨(h.shown name iface version hg).1.more [sent], (h.shown _ _ _ hg).2⟩
  unshown := h.unshown
  devices := h.devices
  sources := h.sources
  lawful := h.lawful
  discreet s hin := by
    obtain hin | hin := mem_append.mp hin
    · exact h.discreet s hin
    · exact mem_singleton.mp hin ▸ hs

lemma announced (h : v.Allowed line hidden) {sent : Sent} (hs : sent.Announces g)
    (hg : g = .own ∨ ∃ max, allowedVersion g.iface v.holdAwake = some max ∧ g.version ≤ max)
    (hn : ∀ name ∈ hidden, name ≠ g.name) :
    View.Allowed line hidden { v with
      globals := v.globals.insert g.name (g.iface, g.version), sentDown := v.sentDown ++ [sent] } := by
  have htold : Told (v.sentDown ++ [sent]) g := ⟨sent, by simp, hs⟩
  have hcap : g = .own ∨ (allowedVersion g.iface v.holdAwake).isSome = true := by
    refine hg.imp_right ?_
    rintro ⟨max, hmax, _⟩
    rw [hmax]
    rfl
  refine ⟨h.display, h.unrooted, fun id i version hg => (h.legit id i version hg).more [sent],
    fun name iface version hl => ?_, fun name hin => ⟨fun hmem => ?_, (h.unshown name hin).2⟩, h.devices,
    h.sources, h.lawful, fun s hin => ?_⟩
  · by_cases hname : name = g.name
    · subst hname
      rw [AList.lookup_insert] at hl
      cases hl
      exact ⟨htold, hg⟩
    · rw [AList.lookup_insert_ne hname] at hl
      exact ⟨(h.shown name iface version hl).1.more [sent], (h.shown name iface version hl).2⟩
  · obtain rfl | hmem := (AList.mem_insert _).mp hmem
    · exact hn _ hin rfl
    · exact (h.unshown name hin).1 hmem
  · obtain hin | hin := mem_append.mp hin
    · refine ⟨(h.discreet s hin).global, fun hd hr hop => ?_⟩
      obtain ⟨name, hread, hknown⟩ := (h.discreet s hin).remove hd hr hop
      exact ⟨name, hread, (AList.mem_insert _).mpr (Or.inr hknown)⟩
    · obtain rfl := mem_singleton.mp hin
      refine ⟨fun hd hr hop => ⟨g, hs, hcap⟩, fun hd hr hop => ?_⟩
      obtain ⟨hd', hr', hop', _⟩ := hs
      cases hr.1.symm.trans hr'.1
      exact absurd (hop.symm.trans hop') (by decide)

lemma discreet_finish {w : MessageWriter} {msg : Bytes} {origin : Origin} (hf : w.finish = some msg)
    (hop : w.opcode < 2 ^ 16) (hid : w.object < 2 ^ 32)
    (hne : ∀ version, v.objects.get w.object ≠ some (.wlRegistry, version)) (known : ℕ → Prop) :
    Sent.Discreet ⟨origin, msg, v.objects⟩ hold known := by
  obtain ⟨hd, hp, ho, _⟩ := MessageWriter.parse_finish hf hop
  have hno (h : Header) (hr : Sent.OnRegistry ⟨origin, msg, v.objects⟩ h) : False := by
    obtain ⟨hp', version, hg⟩ := hr
    cases hp.symm.trans hp'
    rw [ho, Nat.mod_eq_of_lt hid] at hg
    exact hne version hg
  exact ⟨fun h hr => (hno h hr).elim, fun h hr => (hno h hr).elim⟩

lemma tells (h : v.Allowed line hidden) {w : MessageWriter} (ht : Tells w v v')
    (hop : w.opcode < 2 ^ 16) (hg : v.objects.get w.object = some (i, version)) (hi : i ≠ .wlRegistry) :
    v'.Allowed line hidden := by
  obtain ⟨msg, hf, rfl⟩ := ht
  refine h.queued (discreet_finish hf hop (h.legit _ _ _ hg).id_lt (fun version' hr => ?_) _)
  rw [hg] at hr
  exact hi (Prod.mk.inj (Option.some.inj hr)).1

lemma inserted (h : v.Allowed line hidden) {objects : Objects} (hi : v.objects.insert id (i, version) = .ok objects)
    (hl : Legit v.holdAwake v.sentDown line' id i version) (hline : ∀ x, x ≠ id → line' x = line x) :
    View.Allowed line' hidden { v with objects := objects } := by
  have hins := Objects.inserted hi
  have h1 : id ≠ wlDisplay := by
    rintro rfl
    cases hins.free.symm.trans h.display
  refine ⟨hins.kept h.display, (hline _ h1.symm).trans h.unrooted, fun x j ver hx => ?_, h.shown,
    h.unshown, fun x hx => ?_, fun x hx => ?_, h.lawful, h.discreet⟩
  · rw [hins.get] at hx
    split at hx
    · rename_i hid
      cases hx
      exact hid ▸ hl
    · rename_i hid
      exact (h.legit x j ver hx).relined (hline x hid)
  · obtain ⟨ver, hver⟩ := h.devices x hx
    exact ⟨ver, hins.kept hver⟩
  · obtain ⟨ver, hver⟩ := h.sources x hx
    exact ⟨ver, hins.kept hver⟩

lemma erased (h : v.Allowed line hidden) (h1 : id ≠ wlDisplay) (hd : id ∉ v.devices)
    (hs : id ∉ v.sources) : View.Allowed line hidden { v with objects := v.objects.erase id } := by
  have hkeep (x : ℕ) (hx : x ≠ id) : (v.objects.erase id).get x = v.objects.get x := by
    rw [Objects.get_erase, if_neg hx]
  refine ⟨(hkeep _ h1.symm).trans h.display, h.unrooted, fun x j ver hx => ?_, h.shown, h.unshown,
    fun x hx => ?_, fun x hx => ?_, h.lawful, h.discreet⟩
  · rw [Objects.get_erase] at hx
    split at hx
    · cases hx
    · exact h.legit x j ver hx
  · rw [hkeep x (ne_of_mem_of_not_mem hx hd)]
    exact h.devices x hx
  · rw [hkeep x (fun hid => hs (hid ▸ hx))]
    exact h.sources x hx

lemma offering (h : v.Allowed line hidden)
    (hdevs : ∀ dev ∈ devs, ∃ version, v.objects.get dev = some (.wlDataDevice, version))
    (ho : Offering clip devs v v') : v'.Allowed line hidden := by
  induction ho with
  | done => exact h
  | @tell v v' w msg hf hop hw _ ih =>
    refine ih ?_ hdevs
    obtain ⟨i, version, hg, hi⟩ : ∃ i version, v.objects.get w.object = some (i, version) ∧ i ≠ .wlRegistry := by
      obtain hw | ⟨version, hw⟩ := hw
      · obtain ⟨version, hg⟩ := hdevs _ hw
        exact ⟨_, version, hg, by decide⟩
      · exact ⟨_, version, hw, by decide⟩
    exact h.tells ⟨msg, hf, rfl⟩ hop hg hi
  | @make v v' dev offer version iface objects hd hg hfree hi _ ih =>
    obtain ⟨version', hg'⟩ := hdevs dev hd
    cases hg.symm.trans hg'
    have hlt : offer < 2 ^ 32 := by
      unfold Objects.freeServerId at hfree
      simp only [Option.ite_none_right_eq_some, Option.some.injEq] at hfree
      have hslots : serverIdBase + maxIdSlots < 2 ^ 32 := by decide
      omega
    obtain ⟨h1, hv, ht, _⟩ := (h.legit _ _ _ hg).of_served (by decide)
    have hlegit : Legit v.holdAwake v.sentDown line offer .wlDataOffer version :=
      .served _ _ (by decide) hlt h1 hv ht fun hi => absurd rfl hi
    have hstep := h.inserted hi hlegit fun _ _ => rfl
    refine ih hstep fun x hx => ?_
    obtain ⟨ver, hver⟩ := hdevs x hx
    have hins := Objects.inserted hi
    exact ⟨ver, hins.kept hver⟩

lemma sent (h : v.Allowed line hidden) {s : Sent} (hs : s.Lawful v.holdAwake) :
    View.Allowed line hidden { v with sentUp := v.sentUp ++ [s] } := by
  refine ⟨h.display, h.unrooted, h.legit, h.shown, h.unshown, h.devices, h.sources, fun s' hin => ?_, h.discreet⟩
  obtain hin | hin := mem_append.mp hin
  · exact h.lawful s' hin
  · exact mem_singleton.mp hin ▸ hs

lemma places (h : v.Allowed line hidden) (hp : Places id v v') : v'.Allowed line hidden := by
  obtain ⟨msg, hf, rfl⟩ := hp
  have hlaw : Sent.Lawful ⟨.placeholder, msg, v.objects⟩ v.holdAwake := by
    obtain ⟨hd, hp, ho, hop, _⟩ := MessageWriter.parse_finish hf (show wlDisplaySync < 2 ^ 16 by decide)
    have ho' : hd.object = wlDisplay := ho
    have hop' := hop
    refine ⟨hd, .wlDisplay, 1, ⟨"sync", [.newId (some .wlCallback)], 0, 1⟩, hp, ?_, ?_, by decide,
      by decide, fun hi => by cases hi⟩
    · rw [ho']
      exact h.display
    · rw [hop']
      rfl
  exact h.sent hlaw

lemma servesNew (h : v.Allowed line hidden)
    (hg : name = "wl_data_device" → ∃ version, v.objects.get id = some (.wlDataDevice, version))
    (hs : ServesNew clip id name v v') : v'.Allowed line hidden := by
  obtain ⟨v1, hp, hv⟩ := hs
  have h1 := h.places hp
  have ho : v1.objects = v.objects := by
    obtain ⟨_, _, rfl⟩ := hp
    rfl
  split at hv
  · rename_i hc
    refine h1.offering (fun dev hdev => ?_) hv
    rw [mem_singleton.mp hdev, ho]
    exact hg hc.1
  · exact hv ▸ h1

lemma addSource (h : v.Allowed line hidden) (hg : v.objects.get id = some (.wlDataSource, version))
    (src : Source) : View.Allowed line hidden { v with sources := v.sources.insert id src } := by
  refine ⟨h.display, h.unrooted, h.legit, h.shown, h.unshown, h.devices, fun x hx => ?_, h.lawful, h.discreet⟩
  obtain rfl | hx := AList.mem_insert _ |>.mp hx
  · exact ⟨version, hg⟩
  · exact h.sources x hx

lemma addDevice (h : v.Allowed line hidden) (hg : v.objects.get id = some (.wlDataDevice, version)) :
    View.Allowed line hidden { v with devices := v.devices ++ [id] } := by
  refine ⟨h.display, h.unrooted, h.legit, h.shown, h.unshown, fun x hx => ?_, h.sources, h.lawful, h.discreet⟩
  obtain hx | hx := mem_append.mp hx
  · exact h.devices x hx
  · rw [mem_singleton.mp hx]
    exact ⟨version, hg⟩

lemma dropSource (h : v.Allowed line hidden) (id : ℕ) :
    View.Allowed line hidden { v with sources := v.sources.erase id } :=
  ⟨h.display, h.unrooted, h.legit, h.shown, h.unshown, h.devices,
    fun x hx => h.sources x (AList.mem_erase.mp hx).2, h.lawful, h.discreet⟩

lemma dropDevice (h : v.Allowed line hidden) (id : ℕ) :
    View.Allowed line hidden { v with devices := v.devices.filter (· ≠ id) } :=
  ⟨h.display, h.unrooted, h.legit, h.shown, h.unshown,
    fun x hx => h.devices x (mem_filter.mp hx).1, h.sources, h.lawful, h.discreet⟩

lemma not_mem_devices (h : v.Allowed line hidden) (hg : v.objects.get id = some (i, version))
    (hi : i ≠ .wlDataDevice) : id ∉ v.devices := fun hin => by
  obtain ⟨ver, hver⟩ := h.devices id hin
  exact hi (Prod.mk.inj (Option.some.inj (hg.symm.trans hver))).1

lemma not_mem_sources (h : v.Allowed line hidden) (hg : v.objects.get id = some (i, version))
    (hi : i ≠ .wlDataSource) : id ∉ v.sources := fun hin => by
  obtain ⟨ver, hver⟩ := h.sources id hin
  exact hi (Prod.mk.inj (Option.some.inj (hg.symm.trans hver))).1

lemma ne_display (h : v.Allowed line hidden) (hg : v.objects.get id = some (i, version))
    (hi : i ≠ .wlDisplay) : id ≠ wlDisplay := by
  rintro rfl
  exact hi (Prod.mk.inj (Option.some.inj (hg.symm.trans h.display))).1

variable {d : Decoded} {w : View}

lemma registered {name : String} {w' : View}
    (hw : ∀ objects i, find name = some i → id < serverIdBase →
      v.objects.insert id (i, d.bindVersion.getD version) = .ok objects →
      View.Allowed line hidden { v with objects := objects })
    (hname : name ≠ "wl_registry")
    (hr : Registers id name (d.bindVersion.getD version) .clientToServer v w)
    (ha : Advertised id name w w') : w'.Allowed line hidden ∧ w'.holdAwake = v.holdAwake ∧
      (name = "wl_data_device" → ∃ version, w'.objects.get id = some (.wlDataDevice, version)) := by
  obtain ⟨_, hr, i, objects, hf, hi, rfl⟩ := hr
  rw [Advertised, if_neg hname] at ha
  subst ha
  refine ⟨hw objects i hf (by simpa [Core.inRange] using hr) hi, rfl, fun hd => ?_⟩
  subst hd
  obtain rfl : wlDataDevice = i := Option.some.inj ((show find "wl_data_device" =
    some wlDataDevice by decide).symm.trans hf)
  exact ⟨_, by rw [(Objects.inserted hi).get, if_pos rfl]⟩

lemma creates_served {name : String} (hn : d.newObject = some (id, name))
    (hw : ∀ objects i, find name = some i → id < serverIdBase →
      v.objects.insert id (i, d.bindVersion.getD version) = .ok objects →
      View.Allowed line hidden { v with objects := objects })
    (hname : name ≠ "wl_registry")
    (hv : Creates .clientToServer false d version clip v w) : w.Allowed line hidden := by
  unfold Creates at hv
  rw [hn] at hv
  obtain ⟨v1, v2, hr, ha, hv⟩ := hv
  obtain ⟨h2, _, hdev⟩ := registered hw hname hr ha
  exact h2.servesNew hdev hv

lemma uncreated_served
    (hw : ∀ id name, d.newObject = some (id, name) → name ≠ "wl_registry" ∧
      ∀ objects i, find name = some i → id < serverIdBase →
        v.objects.insert id (i, d.bindVersion.getD version) = .ok objects →
        View.Allowed line hidden { v with objects := objects })
    (hu : Uncreated .clientToServer false d version clip v w) :
    Quiet v w ∨ w.Allowed line hidden ∧ w.holdAwake = v.holdAwake := by
  obtain hq | ⟨id, name, v1, v2, hn, hr, ha, hv⟩ := hu
  · exact .inl hq
  obtain ⟨hname, hw⟩ := hw id name hn
  obtain ⟨h2, hhold, hdev⟩ := registered hw hname hr ha
  obtain rfl | ⟨_, hd, v3, hp, ho⟩ := hv
  · exact .inr ⟨h2, hhold⟩
  · have h3 := h2.places hp
    obtain ⟨_, _, rfl⟩ := hp
    obtain ⟨ver, hg⟩ := hdev hd
    refine .inr ⟨h3.offering (fun dev hin => ⟨ver, mem_singleton.mp hin ▸ hg⟩) ho, ?_⟩
    exact (congrArg (fun x => x.2.1) (Steady.offering ho).settings).trans hhold

end View.Allowed

/-- The lineages after a message: only an object it creates gets a new one. -/
def Lineage.Agrees (line line' : Lineage) (d : Decoded) : Prop :=
  ∀ x, (∀ id name, d.newObject = some (id, name) → x ≠ id) → line' x = line x

variable {d : Decoded}

lemma Lineage.Agrees.eq (h : line.Agrees line' d) (hn : d.newObject = none) : line' = line := by
  funext x
  refine h x fun id name hs => ?_
  rw [hn] at hs
  cases hs

lemma Lineage.Agrees.ne (h : line.Agrees line' d) (hn : d.newObject = some (id, name)) (x : ℕ)
    (hx : x ≠ id) : line' x = line x := by
  refine h x fun id' name' hs => ?_
  cases hn.symm.trans hs
  exact hx

def globalOf (v : View) (body : Bytes) : Option Global :=
  match readArgs ArgReader.u32 body with
  | .error _ => none
  | .ok name => (v.globals.lookup name).map (fun g => ⟨name, g.1, g.2⟩)

/-- The lineages after a request: what it binds comes from the global, what it
creates otherwise from where its own object does. -/
structure Lineage.Inherits (line line' : Lineage) (v : View) (h : Header) (iface : Interface)
    (body : Bytes) (d : Decoded) : Prop where
  agrees : line.Agrees line' d
  heir : ∀ id name, d.newObject = some (id, name) → line' id =
    if iface = .wlRegistry ∧ h.opcode = wlRegistryBind then globalOf v body else line h.object

namespace View.Allowed

variable {h : Header} {iface : Interface} {m : Message} {msg : Bytes} {fds : List Fd} {d : Decoded}

lemma manager_args : ∀ m ∈ wlDataDeviceManager.table .clientToServer,
    (m.name = "create_data_source" → m.args = [.newId (some .wlDataSource)]) ∧
    (m.name = "get_data_device" → m.args = [.newId (some .wlDataDevice), .object false]) := by
  decide

lemma served (ha : v.Allowed line hidden) (ht : Taken v .clientToServer h iface m version msg)
    (hd : decode m (msg.drop headerLen) = .ok d)
    (hs : Served h.object (msg.drop headerLen) fds v clip iface m.name v' clip') :
    v'.Allowed line hidden ∨
    (∃ id src births, d.newObject = some (id, "wl_data_source") ∧
      v' = { v with sources := v.sources.insert id src, births := births }) ∨
    ∃ id, d.newObject = some (id, "wl_data_device") ∧ v' = { v with devices := v.devices ++ [id] } := by
  have hm := mem_of_getElem? ht.entry
  have hdel : wlDisplayDeleteId < 2 ^ 16 := by decide
  generalize hname : m.name = request at hs
  cases hs with
  | createDataSource id hid =>
    obtain ⟨left, hid⟩ := readArgs_ok hid
    exact .inr (Or.inl ⟨id, _, _, decode_first ((manager_args m hm).1 hname) hd hid, rfl⟩)
  | getDataDevice id hid =>
    obtain ⟨left, hid⟩ := readArgs_ok hid
    exact .inr (Or.inr ⟨id, decode_first ((manager_args m hm).2 hname) hd hid, rfl⟩)
  | sourceOffer src mime hsrc => exact .inl (ha.addSource ht.live _)
  | sourceDestroy v' htell =>
    have he := (ha.dropSource h.object).erased (ha.ne_display ht.live (by decide))
      (ha.not_mem_devices ht.live (by decide)) (by simp)
    exact .inl (he.tells htell hdel he.display (by decide))
  | deviceRelease v' htell =>
    have he := (ha.dropDevice h.object).erased (ha.ne_display ht.live (by decide)) (by simp)
      (ha.not_mem_sources ht.live (by decide))
    exact .inl (he.tells htell hdel he.display (by decide))
  | offerDestroy =>
    exact .inl (ha.erased (ha.ne_display ht.live (by decide))
      (ha.not_mem_devices ht.live (by decide)) (ha.not_mem_sources ht.live (by decide)))
  | cancel source _ v' hin htell =>
    obtain ⟨ver, hver⟩ := ha.sources source hin
    exact .inl (ha.tells htell (show wlDataSourceCancelled < 2 ^ 16 by decide) hver (by decide))
  | _ => exact .inl ha

lemma offer_args : ∀ m ∈ wlDataOffer.table .clientToServer, ∀ a ∈ m.args, a.isNewId = false := by
  decide

lemma insert_served (ha : v.Allowed line hidden) {objects : Objects} (hid : id < 2 ^ 32)
    (h1 : 1 ≤ version) (hv : version ≤ Global.own.version) (ht : Told v.sentDown .own)
    (hserved : Policy.served i.name = true) (hline : ∀ x, x ≠ id → line' x = line x)
    (hown : i ≠ .wlDataOffer → id < serverIdBase ∧ line' id = some .own)
    (hi : v.objects.insert id (i, version) = .ok objects) :
    View.Allowed line' hidden { v with objects := objects } :=
  ha.inserted hi (.served i version hserved hid h1 hv ht hown) hline

lemma answered_insert {v1 : View} {clip1 : Clipboard} {name : String} {objects : Objects}
    (ha : v.Allowed line hidden) (ht : Taken v .clientToServer h iface m version msg)
    (hserved : Policy.served iface.name = true) (hd : decode m (msg.drop headerLen) = .ok d)
    (hs : Served h.object (msg.drop headerLen) fds v clip iface m.name v1 clip1)
    (hline : line.Inherits line' v h iface (msg.drop headerLen) d) (hn : d.newObject = some (id, name))
    (hf : find name = some i) (hlt : id < serverIdBase)
    (hi : v1.objects.insert id (i, d.bindVersion.getD version) = .ok objects) :
    View.Allowed line' hidden { v1 with objects := objects } := by
  obtain ⟨h1, hver, htold, hown⟩ := (ha.legit _ _ _ ht.live).of_served hserved
  have hl := hline.agrees.ne hn
  obtain ⟨hid, hmade⟩ := made_request ht.entry hd hn
  obtain rfl := name_of_find hf
  obtain ⟨hj, hbv, hin⟩ : Policy.served i.name = true ∧ d.bindVersion = none ∧ Arg.newId (some i) ∈ m.args := by
    obtain ⟨j, hj, hserved', hin, hb⟩ | ⟨rfl, _⟩ := hmade
    · obtain rfl := name_inj hj
      exact ⟨hserved'.trans hserved, hb, hin⟩
    · cases hserved
  have hnew : id < serverIdBase ∧ line' id = some .own := by
    refine ⟨hlt, ?_⟩
    have hheir := hline.heir id _ hn
    rw [if_neg (by rintro ⟨rfl, _⟩; cases hserved)] at hheir
    refine hheir.trans (hown ?_).2
    rintro rfl
    exact absurd (offer_args m (mem_of_getElem? ht.entry) _ hin) (by simp [Arg.isNewId])
  rw [hbv] at hi
  obtain hsame | ⟨id', src, births, hn', rfl⟩ | ⟨id', hn', rfl⟩ := ha.served ht hd hs
  · obtain ⟨own, ho, _⟩ := (Steady.served hs (by
      rw [Objects.forwarded_of_get ht.live, if_pos hserved])).told
    exact hsame.insert_served hid h1 hver (ho ▸ htold.more own) hj hl (fun _ => hnew) hi
  · obtain ⟨rfl, hname⟩ := Prod.mk.inj (Option.some.inj (hn.symm.trans hn'))
    obtain rfl : i = .wlDataSource := name_inj hname
    have hins : View.Allowed line' hidden { v with objects := objects } :=
      ha.insert_served hid h1 hver htold hj hl (fun _ => hnew) hi
    exact hins.addSource (by rw [(Objects.inserted hi).get, if_pos rfl]) src
  · obtain ⟨rfl, hname⟩ := Prod.mk.inj (Option.some.inj (hn.symm.trans hn'))
    obtain rfl : i = .wlDataDevice := name_inj hname
    have hins : View.Allowed line' hidden { v with objects := objects } :=
      ha.insert_served hid h1 hver htold hj hl (fun _ => hnew) hi
    exact hins.addDevice (by rw [(Objects.inserted hi).get, if_pos rfl])

lemma answered_name {name : String} (he : (iface.table .clientToServer)[h.opcode]? = some m)
    (hserved : Policy.served iface.name = true) (hd : decode m (msg.drop headerLen) = .ok d)
    (hn : d.newObject = some (id, name)) : name ≠ "wl_registry" := by
  rintro rfl
  obtain ⟨j, hj, hserved', _⟩ | ⟨rfl, _⟩ := (made_request he hd hn).2
  · rw [hserved, ← hj] at hserved'
    cases hserved'
  · cases hserved

lemma answered {v1 : View} {clip1 : Clipboard} (ha : v.Allowed line hidden)
    (ht : Taken v .clientToServer h iface m version msg) (hserved : Policy.served iface.name = true)
    (hd : decode m (msg.drop headerLen) = .ok d)
    (hs : Served h.object (msg.drop headerLen) fds v clip iface m.name v1 clip1)
    (hv : Creates .clientToServer false d version clip1 v1 v')
    (hline : line.Inherits line' v h iface (msg.drop headerLen) d) : v'.Allowed line' hidden := by
  cases hn : d.newObject with
  | none =>
    rw [Creates, hn] at hv
    rw [hline.agrees.eq hn, hv]
    obtain h | ⟨id, _, _, h, _⟩ | ⟨id, h, _⟩ := ha.served ht hd hs
    · exact h
    · rw [hn] at h; cases h
    · rw [hn] at h; cases h
  | some x =>
    refine creates_served hn (fun objects i hf hlt hi => ?_) (answered_name ht.entry hserved hd hn) hv
    exact ha.answered_insert ht hserved hd hs hline hn hf hlt hi

end View.Allowed

lemma allowedVersion_served (hs : Policy.served name = true) (hold : Bool) : allowedVersion name hold = none := by
  have hin : name ∈ servedNames := by simpa [Policy.served] using hs
  have hall : ∀ name ∈ servedNames, ∀ hold, allowedVersion name hold = none := by decide
  exact hall name hin hold

lemma ownVersion_some {max : ℕ} (h : ownVersion name = some max) :
    name = "wl_data_device_manager" ∧ max = Global.own.version := by
  unfold ownVersion ownGlobals at h
  by_cases hn : "wl_data_device_manager" = name
  · subst hn
    exact ⟨rfl, (Option.some.inj h).symm⟩
  · have hne := beq_eq_false_iff_ne.mpr hn
    simp [List.find?, hne] at h

namespace View.Allowed

variable {h : Header} {iface : Interface} {m : Message} {msg : Bytes} {fds : List Fd} {d : Decoded}

lemma binds (ha : v.Allowed line hidden) {body : Bytes} (hb : Binds v body d name) :
    ∃ g : Global, globalOf v body = some g ∧ g.iface = name ∧ Told v.sentDown g ∧
      ∃ id version max, d.newObject = some (id, name) ∧ d.bindVersion = some version ∧ 1 ≤ version ∧
        version ≤ max ∧ version ≤ g.version ∧ (Policy.served name = true → max = Global.own.version ∧
          g = .own) ∧ (Policy.served name = false → allowedVersion name v.holdAwake = some max) := by
  obtain ⟨id, version, max, gname, cap, hn, hv, hmax, hr, hg, h0, hle⟩ := hb
  obtain ⟨htold, hown⟩ := ha.shown _ _ _ hg
  refine ⟨⟨gname, name, cap⟩, by simp [globalOf, hr, hg], rfl, htold, id, version, max, hn, hv, by omega,
    by omega, ?_, fun hs => ⟨?_, ?_⟩, fun hs => ?_⟩
  · dsimp only
    omega
  · rw [allowedVersion_served hs] at hmax
    exact (ownVersion_some hmax).2
  · obtain hown | ⟨_, hsome, _⟩ := hown
    · exact hown
    · rw [allowedVersion_served hs] at hsome
      cases hsome
  · cases hallow : allowedVersion name v.holdAwake with
    | some max' =>
      rw [hallow] at hmax
      exact hmax
    | none =>
      rw [hallow] at hmax
      obtain ⟨rfl, _⟩ := ownVersion_some hmax
      cases hs

lemma bound_insert {objects : Objects} (ha : v.Allowed line hidden)
    (ht : Taken v .clientToServer h iface m version msg) (hd : decode m (msg.drop headerLen) = .ok d)
    (hb : Binds v (msg.drop headerLen) d name) (hi : iface = .wlRegistry ∧ h.opcode = wlRegistryBind)
    (hserved : Policy.served name = true) (hline : line.Inherits line' v h iface (msg.drop headerLen) d)
    (hn : d.newObject = some (id, name)) (hf : find name = some i) (hlt : id < serverIdBase)
    (hins : v.objects.insert id (i, d.bindVersion.getD version) = .ok objects) :
    View.Allowed line' hidden { v with objects := objects } := by
  obtain ⟨g, hg, _, htold, id', bv, max, hn', hbv, h1, hmax, _, hown, _⟩ := ha.binds hb
  obtain ⟨rfl, rfl⟩ := hown hserved
  have hheir := hline.heir id name hn
  rw [if_pos hi, hg] at hheir
  rw [hbv] at hins
  exact ha.insert_served (made_request ht.entry hd hn).1 h1 hmax htold (name_of_find hf ▸ hserved)
    (hline.agrees.ne hn) (fun _ => ⟨hlt, hheir⟩) hins

lemma ne_registry (hs : Policy.served name = true) : name ≠ "wl_registry" := by
  rintro rfl
  cases hs

lemma display_args : ∀ m ∈ Interface.wlDisplay.table .clientToServer, ∀ a ∈ m.args,
    a.isNewId = true → a = .newId (some .wlRegistry) ∨ a = .newId (some .wlCallback) := by
  decide

lemma registry_args : ∀ m ∈ wlRegistry.table .clientToServer, ∀ a ∈ m.args, a.isNewId = true → a = .newId none := by
  decide

lemma legit_created {v1 : View} (ha : v.Allowed line hidden) (ht : Taken v .clientToServer h iface m version msg)
    (hserved : Policy.served iface.name = false) (hd : decode m (msg.drop headerLen) = .ok d)
    (hc : Checked h iface (msg.drop headerLen) d v true) (hn : d.newObject = some (id, name))
    (hr : Registers id name (d.bindVersion.getD version) .clientToServer v v1)
    (hline : line.Inherits line' v h iface (msg.drop headerLen) d) (hf : find name = some i) :
    Legit v.holdAwake v.sentDown line' id i (d.bindVersion.getD version) := by
  have hid : id < serverIdBase := by simpa [Core.inRange] using hr.2.1
  have hheir := hline.heir id name hn
  have hm := mem_of_getElem? ht.entry
  obtain rfl := name_of_find hf
  obtain ⟨j, hj, hjs, hin, hb⟩ | ⟨rfl, hop⟩ := (made_request ht.entry hd hn).2
  · obtain rfl := Interface.name_inj hj
    have hnb : ¬ (iface = .wlRegistry ∧ h.opcode = wlRegistryBind) := by
      rintro ⟨rfl, _⟩
      have := registry_args m hm _ hin rfl
      cases this
    rw [if_neg hnb] at hheir
    rw [hb]
    cases ha.legit _ _ _ ht.live with
    | display h1 =>
      rw [h1, ha.unrooted] at hheir
      refine .plain i ?_ hid hheir
      simpa using display_args m hm _ hin rfl
    | plain _ hi =>
      obtain rfl | rfl := hi
      · have := registry_args m hm _ hin rfl
        cases this
      · cases hm
    | bound root _ _ max g hl _ _ hroot hre hmax h1 hv hg htold =>
      refine .bound root i version max g (hheir.trans hl) hid (hjs.trans hserved) hroot
        (hre.tail ⟨.clientToServer, m, hm, hin⟩) hmax h1 hv hg htold
    | served _ _ hs => rw [hserved] at hs; cases hs
  · obtain ⟨name', hbinds, hns⟩ := checked_bind hc ⟨rfl, hop⟩
    obtain ⟨g, hg, hgi, htold, id', bv, max, hn', hbv, h1, hmax, hver, _, hallow⟩ := ha.binds hbinds
    cases hn.symm.trans hn'
    rw [if_pos ⟨rfl, hop⟩, hg] at hheir
    rw [hbv]
    exact .bound i i bv max g hheir hid hns hgi .refl (hgi ▸ hallow hns) h1 hmax hver htold

end View.Allowed

lemma announces_written {registry : ℕ} {msg : Bytes} {origin : Origin} {objects : Objects}
    (hf : ((((MessageWriter.new registry wlRegistryGlobal).u32 g.name).string g.iface).u32
      g.version).finish = some msg)
    (hr : objects.get registry = some (.wlRegistry, version)) (hid : registry < 2 ^ 32)
    (hname : g.name < 2 ^ 32) (hver : g.version < 2 ^ 32) (hnul : NulFree g.iface)
    (hlen : (utf8 g.iface).length + 1 < 2 ^ 32) : Sent.Announces ⟨origin, msg, objects⟩ g := by
  obtain ⟨hd, hp, ho, hop, _, hb⟩ :=
    MessageWriter.parse_finish hf (show wlRegistryGlobal < 2 ^ 16 by decide)
  have ho' : hd.object = registry := ho.trans (Nat.mod_eq_of_lt hid)
  refine ⟨hd, ⟨hp, version, ho' ▸ hr⟩, hop, ?_⟩
  have hb' : msg.drop headerLen =
      Words.bytes g.name ++ (MessageWriter.stringBytes g.iface ++ (Words.bytes g.version ++ [])) := by
    rw [hb]
    simp [MessageWriter.new, MessageWriter.u32, MessageWriter.string]
  rw [hb', readArgs]
  simp only [globalArgs, bind, StateT.bind, Except.bind, u32_bytes, string_stringBytes hnul hlen,
    Nat.mod_eq_of_lt hname, Nat.mod_eq_of_lt hver]
  rfl

lemma parse_rewrites {zone : String} {h : Header} {iface : Interface} {m : Message}
    {msg out : Bytes} (hp : Header.parse msg = .ok h) (hr : Rewrites zone h iface m d msg out) :
    ∃ h', Header.parse out = .ok h' ∧ h'.object = h.object ∧ h'.opcode = h.opcode ∧
      (iface ≠ .xdgToplevel → out = msg) := by
  unfold Rewrites at hr
  split at hr
  · rename_i hi
    split at hr
    · exact ⟨h, hr ▸ hp, rfl, rfl, fun _ => hr⟩
    · obtain ⟨h', hp', ho, hop, _⟩ := MessageWriter.parse_finish hr h.opcode_lt
      exact ⟨h', hp', ho.trans (Nat.mod_eq_of_lt h.object_lt), hop, fun hne => absurd hi.1 hne⟩
  · exact ⟨h, hr ▸ hp, rfl, rfl, fun _ => hr⟩

namespace View.Allowed

variable {h : Header} {iface : Interface} {m : Message} {msg out : Bytes} {fds : List Fd} {d : Decoded}
  {stamp : Option Bytes}

lemma advertised {name : String} (ha : v.Allowed line hidden)
    (hg : name = "wl_registry" → ∃ version, v.objects.get id = some (.wlRegistry, version))
    (hv : Advertised id name v v') : v'.Allowed line hidden := by
  unfold Advertised at hv
  split at hv
  · rename_i hname
    obtain ⟨msg, hf, rfl⟩ := hv
    obtain ⟨version, hr⟩ := hg hname
    have hann : Sent.Announces ⟨.own, msg, v.objects⟩ .own :=
      announces_written hf hr (ha.legit _ _ _ hr).id_lt (by decide) (by decide) (nulFree_of_all (by decide)) (by decide)
    refine ha.announced hann (.inl rfl) fun name hin hown => ?_
    have := (ha.unshown name hin).2
    rw [hown] at this
    exact absurd this (by decide)
  · exact hv ▸ ha

lemma creates_forwarded (ha : v.Allowed line hidden)
    (ht : Taken v .clientToServer h iface m version msg) (hserved : Policy.served iface.name = false)
    (hd : decode m (msg.drop headerLen) = .ok d)
    (hc : Checked h iface (msg.drop headerLen) d v true)
    (hline : line.Inherits line' v h iface (msg.drop headerLen) d)
    (hv : Creates .clientToServer true d version clip v v') :
    v'.Allowed line' hidden ∧ (∀ x o, v.objects.get x = some o → v'.objects.get x = some o) ∧
      ∀ id name, d.newObject = some (id, name) → ∃ i, find name = some i ∧
        v'.objects.get id = some (i, d.bindVersion.getD version) := by
  unfold Creates at hv
  split at hv
  · rename_i hn
    refine ⟨?_, fun x o hx => hv ▸ hx, fun id name hs => ?_⟩
    · rw [hline.agrees.eq hn, hv]
      exact ha
    · rw [hn] at hs
      cases hs
  · rename_i id name hn
    obtain ⟨v1, v2, hr, hadv, hv⟩ := hv
    subst hv
    have hr' := hr
    obtain ⟨_, _, i, objects, hf, hi, rfl⟩ := hr
    have hins := Objects.inserted hi
    have hget : objects.get id = some (i, d.bindVersion.getD version) := by rw [hins.get, if_pos rfl]
    have hobj : v'.objects = objects := by
      unfold Advertised at hadv
      split at hadv
      · obtain ⟨_, _, rfl⟩ := hadv
        rfl
      · rw [hadv]
    have h1 : View.Allowed line' hidden { v with objects := objects } :=
      ha.inserted hi (ha.legit_created ht hserved hd hc hn hr' hline hf) (hline.agrees.ne hn)
    refine ⟨h1.advertised (fun hname => ?_) hadv, fun x o hx => ?_, fun id' name' hs => ?_⟩
    · subst hname
      obtain rfl : wlRegistry = i := Option.some.inj ((show find "wl_registry" =
        some wlRegistry by decide).symm.trans hf)
      exact ⟨_, hget⟩
    · exact hobj ▸ hins.kept hx
    · cases hn.symm.trans hs
      exact ⟨i, hf, hobj ▸ hget⟩

lemma passed {v1 : View} (ha : v.Allowed line hidden)
    (ht : Taken v .clientToServer h iface m version msg) (hserved : Policy.served iface.name = false)
    (hd : decode m (msg.drop headerLen) = .ok d)
    (hc : Checked h iface (msg.drop headerLen) d v true)
    (hline : line.Inherits line' v h iface (msg.drop headerLen) d)
    (hrw : Rewrites v.zone h iface m d msg out) (hst : Stamps v.zone iface m d stamp)
    (hv : Creates .clientToServer true d version clip v v1) :
    (v1.passUp out stamp).Allowed line' hidden := by
  obtain ⟨h1, hkeep, hmade⟩ := ha.creates_forwarded ht hserved hd hc hline hv
  have hhold : v1.holdAwake = v.holdAwake :=
    congrArg (fun x => x.2.1) (unseen_of_creates hv).settings
  have hlaw : Sent.Lawful ⟨.request, out, v1.objects⟩ v1.holdAwake := by
    obtain ⟨h', hp, ho, hop, hout⟩ := parse_rewrites ht.parse hrw
    refine ⟨h', iface, version, m, hp, ho ▸ hkeep _ _ ht.live, hop ▸ ht.entry, hserved, ht.since, fun hreg hbind => ?_⟩
    obtain rfl := hout (by rw [hreg]; decide)
    obtain ⟨name, hbinds, hns⟩ := checked_bind hc ⟨hreg, hop ▸ hbind⟩
    obtain ⟨_, _, _, _, id, _, max, hn, _, _, _, _, _, hallow⟩ := ha.binds hbinds
    exact ⟨d, id, name, hd, hn, by rw [hhold, hallow hns]; rfl⟩
  cases hs : stamp with
  | none => exact h1.sent hlaw
  | some st =>
    refine (h1.sent hlaw).sent (s := ⟨.stamp, st, v1.objects⟩) ?_
    rw [hs, Stamps] at hst
    split at hst
    · rename_i hi
      split at hst
      · cases hst
      · rename_i id name hn
        obtain ⟨opcode, hop, _, hf⟩ := hst
        obtain rfl : opcode = 3 := (Option.some.inj (hop.symm.trans (by decide)))
        obtain ⟨rfl, hname⟩ := hi
        obtain ⟨id', hid, hn'⟩ := made_window (mem_of_getElem? ht.entry) hname hd
        cases hn.symm.trans hn'
        obtain ⟨i, hfind, hget⟩ := hmade id _ hn
        obtain rfl : xdgToplevel = i := Option.some.inj ((find_name .xdgToplevel).symm.trans hfind)
        obtain ⟨h', hp, ho, hop', _⟩ := MessageWriter.parse_finish hf (show 3 < 2 ^ 16 by decide)
        have ho' : h'.object = id := ho.trans (Nat.mod_eq_of_lt hid)
        have hop'' : h'.opcode = 3 := hop'
        refine ⟨h', .xdgToplevel, _, ⟨"set_app_id", [.string false], 0, 1⟩, hp, ho' ▸ hget, hop'' ▸ rfl,
          by decide, (h1.legit _ _ _ hget).one_le, fun hi => by cases hi⟩
    · cases hst

lemma request (ha : v.Allowed line hidden) (ht : Taken v .clientToServer h iface m version msg)
    (hd : decode m (msg.drop headerLen) = .ok d)
    (hr : Requested h iface m version msg fds d v clip v' clip')
    (hline : line.Inherits line' v h iface (msg.drop headerLen) d) : v'.Allowed line' hidden := by
  cases hr with
  | passed out stamp v1 hs hc hrw hst hv => exact ha.passed ht hs hd hc hline hrw hst hv
  | bound name v1 hs hi ho hb hserved hv =>
    have hb' := hb
    obtain ⟨id, _, _, _, _, hn, _⟩ := hb'
    exact creates_served hn (fun objects i hf hlt hins =>
      ha.bound_insert ht hd hb ⟨hi, ho⟩ hserved hline hn hf hlt hins) (ne_registry hserved) hv
  | answered v1 v2 clip1 hs hserve hv => exact ha.answered ht hs hd hserve hv hline

end View.Allowed

def Announcing (h : Header) (iface : Interface) (body : Bytes) (g : Global) : Prop :=
  iface = .wlRegistry ∧ h.opcode = wlRegistryGlobal ∧ readArgs globalArgs body = .ok (g.name, g.iface, g.version)

/-- What is asked of the compositor: its names are below the proxy's own and not
shared by a global that is shown and one that is hidden, and it gives back no id
but those of placeholders and of objects it knows, never the display's. -/
structure Fair (v : View) (hidden : List ℕ) (h : Header) (iface : Interface) (body : Bytes) : Prop where
  below : ∀ g, Announcing h iface body g → g.name < Policy.ownGlobalBase
  shown : ∀ g, Announcing h iface body g → (Policy.allowedVersion g.iface v.holdAwake).isSome → g.name ∉ hidden
  unshown : ∀ g, Announcing h iface body g → Policy.allowedVersion g.iface v.holdAwake = none → g.name ∉ v.globals
  deletes : ∀ id, h.object = wlDisplay → h.opcode = wlDisplayDeleteId →
    readArgs ArgReader.u32 body = .ok id → id ∉ v.placeholders →
      id ≠ wlDisplay ∧ ∀ i version, v.objects.get id = some (i, version) → Policy.served i.name = false

def HidesMore (v : View) (hidden hidden' : List ℕ) (h : Header) (iface : Interface) (body : Bytes) : Prop :=
  ∀ name ∈ hidden', name ∈ hidden ∨ ∃ g : Global, g.name = name ∧ Announcing h iface body g ∧
    Policy.allowedVersion g.iface v.holdAwake = none

lemma allowed_names {hold : Bool} {max : ℕ} (h : allowedVersion name hold = some max) :
    NulFree name ∧ (utf8 name).length ≤ 40 ∧ ((find name).map Interface.name).getD "?" = name := by
  have hall : ∀ hold, ∀ e ∈ bindable hold, e.1.toList.all (fun c => c.toNat != 0) = true ∧
      (utf8 e.1).length ≤ 40 ∧ ((find e.1).map Interface.name).getD "?" = e.1 := by
    decide +kernel
  obtain ⟨e, he, _⟩ := Option.map_eq_some_iff.mp h
  have hname : e.1 = name := by simpa using List.find?_some he
  obtain ⟨hnul, hrest⟩ := hall hold e (mem_of_find?_eq_some he)
  exact hname ▸ ⟨nulFree_of_all hnul, hrest⟩

end

end Kryptik.Wlproxy
