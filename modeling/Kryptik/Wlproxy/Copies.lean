import Kryptik.Wlproxy.Allowlist
import Kryptik.Wlproxy.Moves

namespace Kryptik.Wlproxy

open Lib Prog Tables Wire Protocol View List Clipboard

namespace Clipboard

structure Dated (c : Clipboard) : Prop where
  length : c.past.length = c.generation + 1
  now : c.past[c.generation]? = some c.selection

/-- A change after which the selection is `sel`, and no further client's paste is asked for. -/
structure Follows (c c' : Clipboard) (sel : Option Selection) : Prop where
  selection : c'.selection = sel
  dated : c.Dated → c'.Dated
  past : c.past <+: c'.past
  sends : ∀ o source mime fd g, .send o source mime fd (some g) ∈ c'.actions →
    .send o source mime fd (some g) ∈ c.actions

variable {c c' : Clipboard} {sel : Option Selection}

lemma Follows.same (hsel : c'.selection = c.selection) (hgen : c'.generation = c.generation)
    (hpast : c'.past = c.past) (hsends : ∀ o source mime fd g,
      .send o source mime fd (some g) ∈ c'.actions → .send o source mime fd (some g) ∈ c.actions) :
    c.Follows c' c.selection :=
  ⟨hsel, fun h => ⟨by rw [hpast, hgen, h.length], by rw [hpast, hgen, hsel, h.now]⟩, hpast ▸ prefix_refl _, hsends⟩

lemma Follows.refl (c : Clipboard) : c.Follows c c.selection :=
  .same rfl rfl rfl (fun _ _ _ _ _ h => h)

lemma follows_changed (c : Clipboard) (sel : Option Selection) (focus : Option ℕ) (actions : List Action)
    (hsends : ∀ o source mime fd g, .send o source mime fd (some g) ∈ actions →
      .send o source mime fd (some g) ∈ c.actions) :
    c.Follows { c with selection := sel, focus := focus, actions := actions }.changed sel := by
  refine ⟨rfl, fun h => ⟨?_, ?_⟩, ⟨[sel], rfl⟩, fun o source mime fd g hin => ?_⟩
  · simp [changed, h.length]
  · simp [changed, ← h.length]
  · obtain hin | hin := mem_append.mp hin
    · exact hsends o source mime fd g hin
    · cases focus <;> simp at hin

lemma follows_setSelection (c : Clipboard) (sel : Option Selection) : c.Follows (c.setSelection sel) sel := by
  refine follows_changed c sel c.focus _ (fun o source mime fd g hin => ?_)
  obtain hin | hin := mem_append.mp hin
  · exact hin
  · unfold cancels at hin
    split at hin
    · cases hin
    · split at hin <;> simp at hin

lemma follows_sourceGone (c : Clipboard) (owner source : ℕ) :
    c.Follows (c.sourceGone owner source) (if c.holds owner source then none else c.selection) := by
  unfold sourceGone
  split
  · exact follows_changed c none c.focus c.actions (fun _ _ _ _ _ h => h)
  · exact .refl c

lemma follows_sessionGone (c : Clipboard) (id : ℕ) : ∃ sel, c.Follows (c.sessionGone id) sel ∧
    (sel = c.selection ∨ sel = none) := by
  have hsends (o source : ℕ) (mime : String) (fd : Fd) (g : ℕ)
      (hin : .send o source mime fd (some g) ∈ c.actions.filter (fun a => a.session ≠ id)) :
      .send o source mime fd (some g) ∈ c.actions := mem_of_mem_filter hin
  unfold sessionGone
  dsimp only
  split
  · exact ⟨none, follows_changed c none _ _ hsends, .inr rfl⟩
  · exact ⟨c.selection, .same rfl rfl rfl hsends, .inl rfl⟩

end Clipboard

/-- The data sources of a session, by what tells one from another. -/
def View.birth (v : View) (id : ℕ) : Option ℕ := (v.sources.lookup id).map Source.birth

def Clipboard.ask (c : Clipboard) (sel : Selection) (mime : String) (fd : Fd) : Clipboard :=
  { c with actions := c.actions ++ [.send sel.owner sel.source mime fd (some c.generation)] }

/-- What a message of session `id` does to the zone's clipboard. -/
inductive Heard (id : ℕ) (c c' : Clipboard) : Prop
  | follows (sel : Option Selection) : c.Follows c' sel →
      (sel = c.selection ∨ sel = none ∨ ∃ x, sel = some x ∧ x.owner = id ∧ x.data = none) → Heard id c c'
  | asked (sel : Selection) (mime : String) (fd : Fd) : c.selection = some sel → mime ∈ sel.mimes →
      c' = c.ask sel mime fd → Heard id c c'

/-- What a message does to its session's sources and the zone's clipboard. -/
inductive Copies (h : Header) (iface : Interface) (m : Message) (msg : Bytes) (v : View) (c : Clipboard)
    (v' : View) (c' : Clipboard) : Prop
  | same : v'.birth = v.birth → c.Follows c' c.selection → Copies h iface m msg v c v' c'
  | create (id : ℕ) : iface = .wlDataDeviceManager → m.name = "create_data_source" →
      readArgs ArgReader.u32 (msg.drop headerLen) = .ok id → v.birth id = none →
      (∀ x, x ≠ id → v'.birth x = v.birth x) → c' = c → Copies h iface m msg v c v' c'
  | destroy (id : ℕ) : v'.birth id = none → (∀ x, x ≠ id → v'.birth x = v.birth x) →
      c' = c.sourceGone v.id id → Copies h iface m msg v c v' c'
  | copy (source : ℕ) (src : Source) : v'.birth = v.birth → v.sources.lookup source = some src →
      c.Follows c' (some ⟨v.id, source, src.types, none, src.birth⟩) → Copies h iface m msg v c v' c'
  | clear : v'.birth = v.birth → c.Follows c' none → Copies h iface m msg v c v' c'
  | asked (sel : Selection) (mime : String) (fd : Fd) : v'.birth = v.birth → c.selection = some sel →
      mime ∈ sel.mimes → c' = c.ask sel mime fd → Copies h iface m msg v c v' c'

variable {c c' : Clipboard}

lemma Heard.past {id : ℕ} (hc : Heard id c c') : c.past <+: c'.past := by
  cases hc with
  | follows _ hf _ => exact hf.past
  | asked _ _ _ _ _ hclip => exact hclip ▸ prefix_refl _

lemma Heard.owner {id : ℕ} (hc : Heard id c c') (sel : Selection)
    (hsel : c'.selection = some sel) : c.selection = some sel ∨ sel.owner = id := by
  cases hc with
  | follows x hf hx =>
    have hsel' := hf.selection.symm.trans hsel
    obtain rfl | rfl | ⟨y, rfl, howner, -⟩ := hx
    · exact .inl hsel'
    · cases hsel'
    · exact .inr (Option.some.inj hsel' ▸ howner)
  | asked _ _ _ _ _ hclip =>
    rw [hclip] at hsel
    exact .inl hsel

lemma Copies.heard {h : Header} {iface : Interface} {m : Message} {msg : Bytes} {v v' : View}
    (hc : Copies h iface m msg v c v' c') : Heard v.id c c' := by
  cases hc with
  | same _ hf => exact .follows _ hf (.inl rfl)
  | create _ _ _ _ _ _ hclip => exact .follows _ (hclip ▸ .refl c) (.inl rfl)
  | destroy id _ _ hclip =>
    refine .follows _ (hclip ▸ follows_sourceGone c v.id id) ?_
    split
    · exact .inr (.inl rfl)
    · exact .inl rfl
  | copy _ _ _ _ hf => exact .follows _ hf (.inr (.inr ⟨_, rfl, rfl, rfl⟩))
  | clear _ hf => exact .follows _ hf (.inr (.inl rfl))
  | asked sel mime fd _ hsel hmime hclip => exact .asked sel mime fd hsel hmime hclip

def Sourced (v : View) : Prop := ∀ id ∈ v.sources, ∃ version, v.objects.get id = some (.wlDataSource, version)

section

variable {v v' : View} {clip clip' : Clipboard} {dir : Dir} {h : Header} {iface : Interface} {m : Message}
  {version : ℕ} {msg : Bytes} {fds : List Fd} {d : Decoded}

lemma Apart.birth (ha : Apart v v') : v'.birth = v.birth := by
  funext id
  rw [View.birth, View.birth, ha.sources]

lemma Apart.sourced (ha : Apart v v') (hs : Sourced v) : Sourced v' := by
  intro id hid
  obtain ⟨version, hget⟩ := hs id (ha.sources ▸ hid)
  exact ⟨version, ha.grows id _ hget⟩

variable {id : ℕ}

lemma Sourced.not_mem (hs : Sourced v) (hget : v.objects.get id = some (iface, version))
    (hi : iface ≠ .wlDataSource) : id ∉ v.sources := by
  intro hid
  obtain ⟨version', hget'⟩ := hs id hid
  exact hi (Prod.mk.inj (Option.some.inj (hget.symm.trans hget'))).1

lemma Sourced.erase (hs : Sourced v) (hid : id ∉ v.sources) (hv : v'.sources = v.sources)
    (ho : v'.objects = v.objects.erase id) : Sourced v' := by
  intro x hx
  rw [hv] at hx
  rw [ho, Objects.get_erase, if_neg (by rintro rfl; exact hid hx)]
  exact hs x hx

lemma birth_insert (v : View) (id : ℕ) (src : Source) (x : ℕ) :
    View.birth { v with sources := v.sources.insert id src } x = if x = id then some src.birth else v.birth x := by
  unfold View.birth
  by_cases hx : x = id
  · subst hx
    simp
  · rw [AList.lookup_insert_ne hx, if_neg hx]

lemma birth_erase (v : View) (id x : ℕ) :
    View.birth { v with sources := v.sources.erase id } x = if x = id then none else v.birth x := by
  unfold View.birth
  by_cases hx : x = id
  · subst hx
    simp
  · rw [AList.lookup_erase_ne hx, if_neg hx]

lemma Copies.after {v'' : View} (hc : Copies h iface m msg v clip v' clip') (ha : Apart v' v'') :
    Copies h iface m msg v clip v'' clip' := by
  have hb := ha.birth
  cases hc with
  | same hbirth hf => exact .same (hb.trans hbirth) hf
  | create id hi hn hid hnone hother hclip =>
    exact .create id hi hn hid hnone (fun x hx => (congrFun hb x).trans (hother x hx)) hclip
  | destroy id hnone hother hclip =>
    exact .destroy id ((congrFun hb id).trans hnone) (fun x hx => (congrFun hb x).trans (hother x hx)) hclip
  | copy source src hbirth hsrc hf => exact .copy source src (hb.trans hbirth) hsrc hf
  | clear hbirth hf => exact .clear (hb.trans hbirth) hf
  | asked sel mime fd hbirth hsel hmime hclip => exact .asked sel mime fd (hb.trans hbirth) hsel hmime hclip

lemma Apart.copies (ha : Apart v v') (hs : Sourced v) : Sourced v' ∧ Copies h iface m msg v clip v' clip :=
  ⟨ha.sourced hs, .same ha.birth (.refl clip)⟩

lemma creates_new {forward : Bool} {name : String} (hn : d.newObject = some (id, name))
    (hc : Creates .clientToServer forward d version clip v v') : ∃ i objects, find name = some i ∧
      v.objects.insert id (i, d.bindVersion.getD version) = .ok objects ∧
      Apart { v with objects := objects } v' := by
  unfold Creates at hc
  rw [hn] at hc
  obtain ⟨v1, v2, ⟨-, -, i, objects, hf, hi, rfl⟩, ha, hv⟩ := hc
  refine ⟨i, objects, hf, hi, .trans (.advertised ha) ?_⟩
  split at hv
  · obtain ⟨v3, hp, hv⟩ := hv
    refine .trans (.places hp) ?_
    split at hv
    · exact .offering hv
    · exact hv ▸ .refl v3
  · exact hv ▸ .refl v2

lemma copies_create (hs : Sourced v) {births : ℕ} {src : Source}
    (hid : readArgs ArgReader.u32 (msg.drop headerLen) = .ok id)
    (hn : d.newObject = some (id, "wl_data_source")) (hi : iface = .wlDataDeviceManager)
    (hname : m.name = "create_data_source")
    (hc : Creates .clientToServer false d version clip
      { v with sources := v.sources.insert id src, births := births } v') :
    Sourced v' ∧ Copies h iface m msg v clip v' clip := by
  obtain ⟨i, objects, hf, hins, ha⟩ := creates_new hn hc
  obtain rfl : i = .wlDataSource := Interface.name_inj (name_of_find hf).symm
  have hinserted := Objects.inserted hins
  have hfree : id ∉ v.sources := by
    intro hid
    obtain ⟨version', hget⟩ := hs id hid
    exact absurd (hinserted.free.symm.trans hget) (by simp)
  have hbirth (x : ℕ) (hx : x ≠ id) : v'.birth x = v.birth x := by
    rw [ha.birth]
    exact (birth_insert v id src x).trans (if_neg hx)
  refine ⟨ha.sourced (fun x hx => ?_), .create id hi hname hid ?_ hbirth rfl⟩
  · have hget := hinserted.get x
    by_cases hxid : x = id
    · exact ⟨_, hget.trans (if_pos hxid)⟩
    · have hold : x ∈ v.sources := (AList.mem_insert _).mp hx |>.resolve_left hxid
      obtain ⟨version', hgot⟩ := hs x hold
      exact ⟨version', (hget.trans (if_neg hxid)).trans hgot⟩
  · rw [View.birth, AList.lookup_eq_none.mpr hfree]
    rfl

lemma copies_served (hs : Sourced v) (ht : Taken v .clientToServer h iface m version msg)
    (hserved : Served h.object (msg.drop headerLen) fds v clip iface m.name v' clip') :
    (Sourced v' ∧ Copies h iface m msg v clip v' clip') ∨
    ∃ id src births, iface = .wlDataDeviceManager ∧ m.name = "create_data_source" ∧ clip' = clip ∧
      readArgs ArgReader.u32 (msg.drop headerLen) = .ok id ∧
      v' = { v with sources := v.sources.insert id src, births := births } := by
  generalize hname : m.name = request at hserved
  have hsame (w : View) (hb : w.sources = v.sources) : w.birth = v.birth := by
    funext id
    rw [View.birth, View.birth, hb]
  cases hserved with
  | createDataSource id hid => exact .inr ⟨id, _, _, rfl, rfl, rfl, hid, rfl⟩
  | getDataDevice id hid => exact .inl ⟨hs, .same (hsame _ rfl) (.refl clip)⟩
  | sourceOffer src mime hsrc =>
    refine .inl ⟨fun x hx => ?_, .same (funext fun x => ?_) (.refl clip)⟩
    · obtain rfl | hx := (AList.mem_insert _).mp hx
      · exact hs _ (mem_iff_lookup.mpr ⟨src, hsrc⟩)
      · exact hs x hx
    · rw [birth_insert]
      split
      · subst x
        rw [View.birth, hsrc]
        rfl
      · rfl
  | sourceDestroy v' htell =>
    have ha := Apart.tells htell
    refine .inl ⟨ha.sourced (fun x hx => ?_), .destroy h.object ?_ (fun x hx => ?_) rfl⟩
    · obtain ⟨hne, hx⟩ := AList.mem_erase.mp hx
      obtain ⟨version', hget⟩ := hs x hx
      exact ⟨version', ((Objects.get_erase _ _ _).trans (if_neg hne)).trans hget⟩
    · rw [ha.birth]
      exact (birth_erase v h.object h.object).trans (if_pos rfl)
    · rw [ha.birth]
      exact (birth_erase v h.object x).trans (if_neg hx)
  | clear => exact .inl ⟨hs, .clear rfl (follows_setSelection clip none)⟩
  | copy source src _ _ _ hsrc => exact .inl ⟨hs, .copy source src rfl hsrc (follows_setSelection clip _)⟩
  | cancel _ _ v' _ htell => exact .inl ((Apart.tells htell).copies hs)
  | deviceRelease v' htell =>
    have ha := Apart.tells htell
    have hgone : Sourced { v with devices := v.devices.filter (· ≠ h.object), objects := v.objects.erase h.object } :=
      hs.erase (hs.not_mem ht.live (by decide)) rfl rfl
    exact .inl ⟨ha.sourced hgone, .same (ha.birth.trans (hsame _ rfl)) (.refl clip)⟩
  | receive sel fd mime hsel _ _ hoffer hmime =>
    exact .inl ⟨hs, .asked sel _ fd rfl hsel hmime (by rw [hoffer]; rfl)⟩
  | offerDestroy =>
    refine .inl ⟨?_, .same (hsame _ rfl) (.refl clip)⟩
    exact hs.erase (hs.not_mem ht.live (by decide)) rfl rfl
  | nothing => exact .inl ⟨hs, .same rfl (.refl clip)⟩

lemma copies_requested (hs : Sourced v) (ht : Taken v .clientToServer h iface m version msg)
    (hd : decode m (msg.drop headerLen) = .ok d)
    (hr : Requested h iface m version msg fds d v clip v' clip') :
    Sourced v' ∧ Copies h iface m msg v clip v' clip' := by
  cases hr with
  | passed out stamp v1 _ _ _ _ hc =>
    have ha := Apart.creates hc
    have hpass : Apart v1 (v1.passUp out stamp) := by
      cases stamp <;> exact ⟨rfl, rfl, rfl, fun _ _ h => h⟩
    exact (ha.trans hpass).copies hs
  | bound _ v1 _ _ _ _ _ hc => exact (Apart.creates hc).copies hs
  | answered v1 v2 clip1 _ hserved hc =>
    obtain ⟨hs1, hc1⟩ | ⟨id, src, births, rfl, hname, rfl, hid, rfl⟩ := copies_served hs ht hserved
    · have ha := Apart.creates hc
      exact ⟨ha.sourced hs1, hc1.after ha⟩
    · obtain ⟨left, hu⟩ := readArgs_ok hid
      have hargs := (View.Allowed.manager_args m (mem_of_getElem? ht.entry)).1 hname
      exact copies_create hs hid (decode_first hargs hd hu) rfl hname hc

lemma follows_focused (hf : Focused iface m v clip v' clip') : clip.Follows clip' clip.selection := by
  cases hf with
  | enter | leave => exact .same rfl rfl rfl (fun _ _ _ _ _ h => h)
  | stay => exact .refl clip

/-- The compositor deletes no data source, of which it knows nothing. -/
def SparesSources (h : Header) (body : Bytes) (v : View) : Prop :=
  h.object = wlDisplay → h.opcode = wlDisplayDeleteId → ∀ id, readArgs ArgReader.u32 body = .ok id →
    id ∈ v.sources → id ∈ v.placeholders

lemma copies_happened (hs : Sourced v) (hspares : SparesSources h (msg.drop headerLen) v)
    (hh : Happened h iface m version msg d v clip v' clip') :
    Sourced v' ∧ Copies h iface m msg v clip v' clip' := by
  obtain ⟨r1, r2, r3, r4, v1, v2, v3, v4, ha, -, -, hf, hdel, hc, hv⟩ := hh
  have h2 : Apart v v2 := .trans (.announced ha) (.focused hf)
  have hplaces : v2.placeholders = v.placeholders := by
    obtain ⟨globals, rfl⟩ := Announced.globals_eq ha
    exact (Steady.focused hf).placeholders
  have h3 : Sourced v3 ∧ v3.birth = v.birth := by
    cases hdel with
    | placeholder id n _ _ _ _ => exact ⟨h2.sourced hs, h2.birth⟩
    | object id ho hop hid hnone =>
      refine ⟨(h2.sourced hs).erase (fun hin => ?_) rfl rfl, h2.birth⟩
      have hplace := hspares ho hop id hid (h2.sources ▸ hin)
      rw [← hplaces] at hplace
      exact AList.lookup_eq_none.mp hnone hplace
    | other => exact ⟨h2.sourced hs, h2.birth⟩
  have h4 := Apart.creates hc
  have hlast : Apart v4 v' := by
    rw [hv]
    split
    · exact ⟨rfl, rfl, rfl, fun _ _ h => h⟩
    · exact .refl _
  have h5 := h4.trans hlast
  exact ⟨h5.sourced h3.1, .same (h5.birth.trans h3.2) (follows_focused hf)⟩

lemma heard_served {object : ℕ} {body : Bytes} {request : String}
    (hs : Served object body fds v clip iface request v' clip') : Heard v.id clip clip' := by
  cases hs with
  | sourceDestroy =>
    refine .follows _ (follows_sourceGone clip v.id object) ?_
    split
    · exact .inr (.inl rfl)
    · exact .inl rfl
  | clear => exact .follows none (follows_setSelection clip none) (.inr (.inl rfl))
  | copy source src => exact .follows _ (follows_setSelection clip _) (.inr (.inr ⟨_, rfl, rfl, rfl⟩))
  | receive sel fd mime hsel _ _ hoffer hmime => exact .asked sel _ fd hsel hmime (by rw [hoffer]; rfl)
  | _ => exact .follows _ (.refl clip) (.inl rfl)

lemma heard_unmessaged (hu : Unmessaged v clip v' clip' dir) : Heard v.id clip clip' := by
  have hrefl : Heard v.id clip clip := .follows _ (.refl clip) (.inl rfl)
  cases hu with
  | same _ _ hclip => exact hclip ▸ hrefl
  | request _ _ hr =>
    cases hr with
    | unserved _ _ hu =>
      obtain rfl | ⟨-, -, rfl⟩ := hu.2
      · exact hrefl
      · refine .follows _ (follows_sourceGone clip v.id _) ?_
        split
        · exact .inr (.inl rfl)
        · exact .inl rfl
    | passed | bound => exact hrefl
    | answered v1 _ _ _ hs _ => exact heard_served hs
  | event _ _ hh =>
    obtain ⟨r, v1, v2, v3, forward, ha, hf, -, -⟩ := hh
    obtain ⟨-, rfl⟩ | hf := hf
    · exact hrefl
    · exact .follows _ (follows_focused hf) (.inl rfl)

end

lemma Session.copies_pumpOnce {s : Session} {k : Kernel} {dir : Dir} (clip : Clipboard) (hs : Sourced s.core.view)
    (hspares : ∀ h iface m version, next s.core dir (s.inbound dir) = .take h iface m version →
      dir = .serverToClient → SparesSources h ((s.msg dir h).drop headerLen) s.core.view) :
    wp (pumpOnce k dir) (fun _ x => Sourced x.1.core.view ∧ (x.1.core.view = s.core.view ∧ x.2 = clip ∨
        ∃ h iface m version, next s.core dir (s.inbound dir) = .take h iface m version ∧
          Copies h iface m (s.msg dir h) s.core.view clip x.1.core.view x.2))
      (fun _ _ => True) (s, clip) := by
  refine wp_pumpOnce (fun _ => ⟨hs, .inl ⟨rfl, rfl⟩⟩) (fun _ _ => trivial) (fun n _ => ?_)
    (fun h iface m version hn => ?_)
  · have hsame := congrArg Core.view (core_setInbound s ((s.inbound dir).take n).2 dir)
    exact ⟨hsame.symm ▸ hs, .inl ⟨hsame, rfl⟩⟩
  have ht := taken hn
  have hspare := hspares h iface m version hn
  have hdone (w : World) (hw : Sourced w.core.view ∧ Copies h iface m (s.msg dir h) s.core.view clip w.core.view w.clip) :
      Sourced (s.handled dir (s.rest dir h m) w).1.core.view ∧
      ((s.handled dir (s.rest dir h m) w).1.core.view = s.core.view ∧ w.clip = clip ∨
        ∃ h iface m version, next s.core dir (s.inbound dir) = .take h iface m version ∧
          Copies h iface m (s.msg dir h) s.core.view clip
            (s.handled dir (s.rest dir h m) w).1.core.view w.clip) := by
    have hcore : (s.handled dir (s.rest dir h m) w).1.core.view = w.core.view :=
      congrArg Core.view (core_setInbound _ _ _)
    exact ⟨hcore.symm ▸ hw.1, .inr ⟨h, iface, m, version, hn, hcore.symm ▸ hw.2⟩⟩
  cases dir with
  | clientToServer =>
    refine wp_mono (wp_request k h iface m version _ _ ⟨s.core, clip⟩) (fun _ w hw => ?_) (fun _ _ _ => trivial)
    obtain ⟨d, hd, hr⟩ := hw
    exact hdone w (copies_requested hs ht hd hr)
  | serverToClient =>
    refine wp_mono (wp_event k h iface m version _ _ ⟨s.core, clip⟩) (fun _ w hw => ?_) (fun _ _ _ => trivial)
    obtain ⟨d, hd, hr⟩ := hw
    exact hdone w (copies_happened hs (hspare rfl) hr)

end Kryptik.Wlproxy
