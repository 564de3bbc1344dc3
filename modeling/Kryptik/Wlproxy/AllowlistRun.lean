import Kryptik.Wlproxy.Allowlist

namespace Kryptik.Wlproxy

open Lib Prog Tables Wire Protocol View Policy Interface

variable {line line' : Lineage} {hidden hidden' : List ℕ} {v v' v1 : View} {clip clip' : Clipboard}
  {h : Header} {iface : Interface} {m : Message} {version id : ℕ} {msg : Bytes} {fds : List Fd}
  {d : Decoded} {r r' : Verdict}

lemma forwarded_registry {o : Objects} (hg : o.get id = some (.wlRegistry, version)) :
    o.forwarded id = some .wlRegistry := by
  rw [Objects.forwarded_of_get hg]
  rfl

lemma registry_of_forwarded {o : Objects} (hg : o.forwarded id = some .wlRegistry) :
    ∃ version, o.get id = some (.wlRegistry, version) := by
  unfold Objects.forwarded at hg
  split at hg
  · rename_i i version hi
    split at hg
    · cases hg
    · cases hg
      exact ⟨version, hi⟩
  · cases hg

variable {body : Bytes} {i : Interface}

lemma forwarded_deleted (hd : Deleted h body v r r' v') {x : ℕ}
    (hx : v'.objects.forwarded x = some i) : v.objects.forwarded x = some i := by
  cases hd with
  | placeholder => exact hx
  | object id =>
    rw [Objects.forwarded_erase] at hx
    by_cases hid : x = id
    · rw [hid, Function.update_self] at hx
      cases hx
    · rwa [Function.update_of_ne hid] at hx
  | other => exact hx

lemma globalArgs_lt {name : ℕ} {iname : String}
    (hr : readArgs globalArgs body = .ok (name, iname, version)) : name < 2 ^ 32 ∧ version < 2 ^ 32 := by
  obtain ⟨left, hr⟩ := readArgs_ok hr
  obtain ⟨n, _, hn, hr⟩ := ArgReader.bind_ok hr
  obtain ⟨s, _, _, hr⟩ := ArgReader.bind_ok hr
  obtain ⟨ver, _, hv, hr⟩ := ArgReader.bind_ok hr
  obtain ⟨he, _⟩ := Prod.mk.inj (Except.ok.inj hr)
  obtain ⟨rfl, rfl, rfl⟩ := he
  exact ⟨u32_ok hn, u32_ok hv⟩

lemma finish_of_length {w : MessageWriter} (hl : w.body.length ≤ 4000) : ∃ out, w.finish = some out := by
  unfold MessageWriter.finish
  rw [if_neg (by unfold maxMessageLen headerLen; omega)]
  exact ⟨_, rfl⟩

lemma parse_blanked (hp : Header.parse msg = .ok h) (hnone : r.rewritten = none)
    (hb : Blanked h iface r r') : ∃ h', Header.parse (r'.rewritten.getD msg) = .ok h' ∧
      h'.object = h.object ∧ h'.opcode = h.opcode := by
  obtain rfl | ⟨_, w, ho, hop, hsome, rfl⟩ := hb
  · rw [hnone]
    exact ⟨h, hp, rfl, rfl⟩
  · obtain ⟨out, hf⟩ := Option.isSome_iff_exists.mp hsome
    obtain ⟨h', hp', ho', hop', _⟩ := MessageWriter.parse_finish hf (hop ▸ h.opcode_lt)
    refine ⟨h', ?_, ?_, hop'.trans hop⟩
    · rwa [hf]
    · rw [ho', ho, Nat.mod_eq_of_lt h.object_lt]

namespace View.Allowed

lemma focused (ha : v.Allowed line hidden) (hf : Focused iface m v clip v' clip') : v'.Allowed line hidden := by
  cases hf with
  | enter _ _ _ ho => exact ha.offering ha.devices ho
  | leave | stay => exact ha

lemma deleted {body : Bytes} (ha : v.Allowed line hidden)
    (hfair : ∀ id, h.object = wlDisplay → h.opcode = wlDisplayDeleteId →
      readArgs ArgReader.u32 body = .ok id → id ∉ v.placeholders → id ≠ wlDisplay ∧
        ∀ i version, v.objects.get id = some (i, version) → Policy.served i.name = false)
    (hd : Deleted h body v r r' v') : v'.Allowed line hidden := by
  cases hd with
  | placeholder => exact ha
  | object id ho hop hr hp =>
    obtain ⟨h1, hns⟩ := hfair id ho hop hr (AList.lookup_eq_none.mp hp)
    refine ha.erased h1 (fun hin => ?_) fun hin => ?_
    · obtain ⟨ver, hg⟩ := ha.devices id hin
      exact absurd (hns _ _ hg) (by decide)
    · obtain ⟨ver, hg⟩ := ha.sources id hin
      exact absurd (hns _ _ hg) (by decide)
  | other => exact ha

lemma created {forward : Bool} (ha : v.Allowed line hidden) (hdev : iface = .wlDataDevice →
      1 ≤ version ∧ version ≤ Global.own.version ∧ Told v.sentDown .own)
    (he : (iface.table .serverToClient)[h.opcode]? = some m)
    (hd : decode m (msg.drop headerLen) = .ok d)
    (hc : Creates .serverToClient forward d version clip v v') : v'.Allowed line hidden := by
  unfold Creates at hc
  split at hc
  · exact hc ▸ ha
  · rename_i id name hn
    obtain ⟨v1, v2, ⟨_, _, i, objects, hfind, hi, rfl⟩, hadv, hc⟩ := hc
    obtain ⟨rfl, rfl, hb, hlt⟩ := made_event he hd hn
    obtain rfl : wlDataOffer = i := Option.some.inj (Core.find_wlDataOffer.symm.trans hfind)
    obtain ⟨h1, hv, ht⟩ := hdev rfl
    rw [hb] at hi
    rw [hc, hadv]
    exact ha.insert_served hlt h1 hv ht (by decide) (fun _ _ => rfl) (fun hi => absurd rfl hi) hi

lemma rehidden (ha : v.Allowed line hidden)
    (hh : ∀ name ∈ hidden', name ∉ v.globals ∧ name < ownGlobalBase) : v.Allowed line hidden' :=
  ⟨ha.display, ha.unrooted, ha.legit, ha.shown, hh, ha.devices, ha.sources, ha.lawful, ha.discreet⟩

lemma passDown {out : Bytes} (ha : v.Allowed line hidden)
    (hp : ∃ h', Header.parse out = .ok h' ∧ h'.object = h.object ∧ h'.opcode = h.opcode)
    (hreg : ∀ ver, v.objects.get h.object = some (.wlRegistry, ver) → iface = .wlRegistry)
    (hglobal : iface = .wlRegistry → h.opcode ≠ wlRegistryGlobal)
    (hremove : iface = .wlRegistry → h.opcode = wlRegistryGlobalRemove →
      ∃ name, readArgs ArgReader.u32 (out.drop headerLen) = .ok name ∧ name ∈ v.globals) :
    (v.sendDown .event out).Allowed line hidden := by
  obtain ⟨h', hp, ho, hop⟩ := hp
  have hinv (x : Header) (hx : Sent.OnRegistry ⟨.event, out, v.objects⟩ x) :
      iface = .wlRegistry ∧ x.opcode = h.opcode := by
    obtain ⟨hp', ver, hg⟩ := hx
    cases hp.symm.trans hp'
    exact ⟨hreg ver (ho ▸ hg), hop⟩
  refine ha.queued ⟨fun x hx hg => ?_, fun x hx hr => ?_⟩
  · exact absurd ((hinv x hx).2.symm.trans hg) (hglobal (hinv x hx).1)
  · exact hremove (hinv x hx).1 ((hinv x hx).2.symm.trans hr)

lemma showGlobal (ha : v.Allowed line hidden) (ht : Taken v .serverToClient h iface m version msg)
    {g : Global} {allowed : ℕ} (hann : Announcing h iface (msg.drop headerLen) g)
    (hallow : allowedVersion g.iface v.holdAwake = some allowed) (hn : g.name ∉ hidden)
    {rewritten : Option Bytes} (hr : rewritten = if min allowed g.version ≠ g.version then
      (((MessageWriter.new h.object h.opcode).u32 g.name).string g.iface
        |>.u32 (min allowed g.version)).finish else none) :
    View.Allowed line hidden (View.sendDown { v with
      globals := v.globals.insert g.name (listed g.iface (min allowed g.version)) } .event
        (rewritten.getD msg)) := by
  obtain ⟨rfl, hop, hread⟩ := hann
  obtain ⟨hnul, hlen, hfound⟩ := allowed_names hallow
  obtain ⟨hname, hver⟩ := globalArgs_lt hread
  obtain ⟨g', hg'⟩ : ∃ g' : Global, g' = ⟨g.name, g.iface, min allowed g.version⟩ := ⟨_, rfl⟩
  have hann : Sent.Announces ⟨.event, rewritten.getD msg, v.objects⟩ g' := by
    subst hg'
    by_cases hmin : min allowed g.version = g.version
    · rw [hr, if_neg (not_not.mpr hmin)]
      exact ⟨h, ⟨ht.parse, version, ht.live⟩, hop, hmin.symm ▸ hread⟩
    · rw [if_pos hmin, hop] at hr
      obtain ⟨out, hout⟩ := finish_of_length (w := ((MessageWriter.new h.object wlRegistryGlobal).u32
        g.name).string g.iface |>.u32 (min allowed g.version)) (by
          simp [MessageWriter.new, MessageWriter.u32, MessageWriter.string, MessageWriter.length_stringBytes, pad4]
          omega)
      rw [hr, hout]
      exact announces_written hout ht.live h.object_lt hname (lt_of_le_of_lt (min_le_right _ _) hver)
        hnul (by dsimp only; omega)
  have hlisted : listed g.iface (min allowed g.version) = (g'.iface, g'.version) := by
    rw [hg', listed, hfound]
  have hgname : g.name = g'.name := by rw [hg']
  rw [hlisted, hgname]
  refine ha.announced hann (.inr ⟨allowed, by rw [hg']; exact hallow, by rw [hg']; exact min_le_left _ _⟩)
    fun name hin he => hn ?_
  rw [hgname, ← he]
  exact hin

variable {r1 r2 : Verdict}

lemma registry_still {u u1 u2 u3 : View} (ha : v.Allowed line hidden)
    (ht : Taken v .serverToClient h .wlRegistry m version msg)
    (hd : decode m (msg.drop headerLen) = .ok d) (hb : Blanked h .wlRegistry r r1)
    (hf : Focused .wlRegistry m u clip u1 clip') (hdel : Deleted h (msg.drop headerLen) u1 r1 r2 u2)
    (hc : Creates .serverToClient r2.forward d version clip' u2 u3) : u3 = u ∧ r2 = r := by
  have hne : h.object ≠ wlDisplay := ha.ne_display ht.live (by decide)
  have h1 : u1 = u := by
    cases hf with
    | enter _ hi | leave hi => cases hi
    | stay => rfl
  have h2 : u2 = u1 ∧ r2 = r1 := by
    cases hdel with
    | placeholder _ _ ho | object _ ho => exact absurd ho hne
    | other => exact ⟨rfl, rfl⟩
  have h3 : u3 = u2 := by
    unfold Creates at hc
    split at hc
    · exact hc
    · rename_i hn
      have hi := (made_event ht.entry hd hn).2.1
      cases hi
  have hr : r1 = r := hb.resolve_right fun hi => by cases hi.1
  exact ⟨h3.trans (h2.1.trans h1), h2.2.trans hr⟩

lemma unannounced (ha : v.Allowed line hidden)
    (ht : Taken v .serverToClient h .wlRegistry m version msg) (hnone : r1.rewritten = none)
    (hglobal : h.opcode = wlRegistryGlobal → r1.forward = false)
    (hrem : Removed h .wlRegistry (msg.drop headerLen) v r1 r2)
    (hv : v' = if r2.forward = true then v.sendDown .event (r2.rewritten.getD msg) else v) :
    v'.Allowed line hidden := by
  unfold Removed at hrem
  rw [hv]
  split
  · rename_i hfwd
    by_cases hop : h.opcode = wlRegistryGlobalRemove
    · rw [if_pos ⟨rfl, hop⟩] at hrem
      obtain ⟨gname, hr, rfl⟩ := hrem
      rw [hnone]
      exact ha.passDown ⟨h, ht.parse, rfl, rfl⟩ (fun _ _ => rfl) (fun _ => by rw [hop]; decide)
        fun _ _ => ⟨gname, hr, of_decide_eq_true hfwd⟩
    · rw [if_neg fun hc => hop hc.2] at hrem
      subst hrem
      rw [hnone]
      refine ha.passDown ⟨h, ht.parse, rfl, rfl⟩ (fun _ _ => rfl) (fun _ hg => ?_) fun _ hop' => absurd hop' hop
      rw [hglobal hg] at hfwd
      cases hfwd
  · exact ha

lemma registryEvent (ha : v.Allowed line hidden)
    (hfair : Fair v hidden h .wlRegistry (msg.drop headerLen))
    (hmore : HidesMore v hidden hidden' h .wlRegistry (msg.drop headerLen))
    (ht : Taken v .serverToClient h .wlRegistry m version msg)
    (hann : Announced h .wlRegistry (msg.drop headerLen) v r1 v1)
    (hrem : Removed h .wlRegistry (msg.drop headerLen) v1 r1 r2)
    (hv : v' = if r2.forward = true then v1.sendDown .event (r2.rewritten.getD msg) else v1) :
    v'.Allowed line hidden' := by
  have ha' : v.Allowed line hidden' := by
    refine ha.rehidden fun name hin => ?_
    obtain hin | ⟨g, rfl, hg, hnone⟩ := hmore name hin
    · exact ha.unshown name hin
    · exact ⟨hfair.unshown g hg hnone, hfair.below g hg⟩
  cases hann with
  | shown gname ver allowed iname _ hop hread hallow =>
    have hg : Announcing h .wlRegistry (msg.drop headerLen) ⟨gname, iname, ver⟩ := ⟨rfl, hop, hread⟩
    have hnew : gname ∉ hidden' := fun hin => by
      obtain hin | ⟨g, _, hg', hnone⟩ := hmore gname hin
      · exact hfair.shown _ hg (by rw [hallow]; rfl) hin
      · have he := Except.ok.inj (hread.symm.trans hg'.2.2)
        simp only [Prod.mk.injEq] at he
        rw [← he.2.1, hallow] at hnone
        cases hnone
    rw [Removed, if_neg (by rw [hop]; decide)] at hrem
    subst hrem
    rw [hv]
    exact ha'.showGlobal ht hg hallow hnew rfl
  | hidden => exact ha'.unannounced ht rfl (fun _ => rfl) hrem hv
  | other hne => exact ha'.unannounced ht rfl (fun hop => absurd ⟨rfl, hop⟩ hne) hrem hv

lemma event (ha : v.Allowed line hidden) (hfair : Fair v hidden h iface (msg.drop headerLen))
    (hmore : HidesMore v hidden hidden' h iface (msg.drop headerLen))
    (ht : Taken v .serverToClient h iface m version msg) (hd : decode m (msg.drop headerLen) = .ok d)
    (hh : Happened h iface m version msg d v clip v' clip') : v'.Allowed line hidden' := by
  obtain ⟨r1, r2, r3, r4, v1, v2, v3, v4, hann, hrem, hbl, hfoc, hdel, hcre, hv⟩ := hh
  by_cases hi : iface = .wlRegistry
  · subst hi
    obtain ⟨rfl, rfl⟩ := ha.registry_still ht hd hbl hfoc hdel hcre
    exact ha.registryEvent hfair hmore ht hann hrem hv
  · have hsame : v1 = v ∧ r1.rewritten = none := by
      cases hann with
      | shown _ _ _ _ hi' => exact absurd hi' hi
      | hidden | other => exact ⟨rfl, rfl⟩
    obtain ⟨rfl, hnone⟩ := hsame
    have hr2 : r2 = r1 := by rwa [Removed, if_neg fun hc => hi hc.1] at hrem
    have h2 := ha.focused hfoc
    have hstill (ho : h.object = wlDisplay) : v2 = v1 := by
      have hlive := ht.live
      rw [ho, ha.display] at hlive
      cases hlive
      cases hfoc with
      | enter _ hi | leave hi => cases hi
      | stay => rfl
    have h3 := h2.deleted (fun id ho hop hr hp => by
      rw [hstill ho] at hp ⊢
      exact hfair.deletes id ho hop hr hp) hdel
    have h4 : v4.Allowed line hidden := by
      refine h3.created (fun hdev => ?_) ht.entry hd hcre
      obtain ⟨h1, hver, htold, _⟩ := (ha.legit _ _ _ ht.live).of_served (by rw [hdev]; decide)
      obtain ⟨own, ho, _⟩ := (Steady.focused hfoc).told
      have hdown : v3.sentDown = v2.sentDown := by cases hdel <;> rfl
      exact ⟨h1, hver, hdown ▸ ho ▸ htold.more own⟩
    have h5 : v4.Allowed line hidden' := by
      refine h4.rehidden fun name hin => ?_
      obtain hin | ⟨g, _, hg, _⟩ := hmore name hin
      · exact h4.unshown name hin
      · exact absurd hg.1 hi
    rw [hv]
    split
    · refine h5.passDown (h := h) ?_ (fun ver hg => ?_) (fun hi' => absurd hi' hi) fun hi' => absurd hi' hi
      · have hr4 : r4.rewritten = r3.rewritten := by cases hdel <;> rfl
        rw [hr4]
        exact parse_blanked ht.parse (hr2 ▸ hnone) hbl
      · have h1 := forwarded_registry hg
        rw [(Steady.created ht.entry hd hcre).forwarded] at h1
        have h2 := forwarded_deleted hdel h1
        rw [(Steady.focused hfoc).forwarded] at h2
        obtain ⟨ver', hg'⟩ := registry_of_forwarded h2
        exact (Prod.mk.inj (Option.some.inj (ht.live.symm.trans hg'))).1
    · exact h5

lemma acted {a : Action} (ha : v.Allowed line hidden) (hv : Acted clip v a v') : v'.Allowed line hidden := by
  cases hv with
  | offer _ _ _ ho => exact ha.offering ha.devices ho
  | cancel _ source _ hs ht =>
    obtain ⟨ver, hg⟩ := ha.sources source hs
    exact ha.tells ht (show wlDataSourceCancelled < 2 ^ 16 by decide) hg (by decide)
  | send _ source mime fd asked src v1 hs ht =>
    obtain ⟨ver, hg⟩ := ha.sources source (mem_iff_lookup.mpr ⟨src, hs⟩)
    have h1 : v1.Allowed line hidden :=
      ha.tells ht (show wlDataSourceSend < 2 ^ 16 by decide) hg (by decide)
    exact h1
  | nothing => exact ha

lemma obeys (ha : v.Allowed line hidden) : v.Obeys v.holdAwake hidden where
  lawful := ha.lawful
  discreet sent hs := by
    refine ⟨(ha.discreet sent hs).global, fun h hr hop => ?_⟩
    obtain ⟨name, hread, hknown⟩ := (ha.discreet sent hs).remove h hr hop
    exact ⟨name, hread, fun hin => (ha.unshown name hin).1 hknown⟩

end View.Allowed

lemma View.Obeys.quiet {hold : Bool} (ho : v.Obeys hold hidden) (hq : Quiet v v') : v'.Obeys hold hidden :=
  ⟨hq.1 ▸ ho.lawful, hq.2 ▸ ho.discreet⟩

def Lineage.after (line : Lineage) (v : View) (h : Header) (iface : Interface) (m : Message) (body : Bytes) : Lineage :=
  match decode m body with
  | .error _ => line
  | .ok d =>
    match d.newObject with
    | none => line
    | some (id, _) => Function.update line id
        (if iface = .wlRegistry ∧ h.opcode = wlRegistryBind then globalOf v body else line h.object)

lemma Lineage.inherits_after (hd : decode m body = .ok d) :
    line.Inherits (line.after v h iface m body) v h iface body d := by
  refine ⟨fun x hx => ?_, fun id name hn => ?_⟩
  · cases hn : d.newObject with
    | none => simp only [Lineage.after, hd, hn]
    | some o =>
      simp only [Lineage.after, hd, hn]
      exact Function.update_of_ne (hx o.1 o.2 hn) _ _
  · simp [Lineage.after, hd, hn]

/-- The names of the hidden globals after an event of the compositor's. -/
def hiddenAfter (hidden : List ℕ) (v : View) (h : Header) (iface : Interface) (body : Bytes) : List ℕ :=
  if iface = .wlRegistry ∧ h.opcode = wlRegistryGlobal then
    match readArgs globalArgs body with
    | .error _ => hidden
    | .ok (name, iname, _) =>
      if (Policy.allowedVersion iname v.holdAwake).isSome then hidden else name :: hidden
  else hidden

lemma hidesMore_hiddenAfter (hidden : List ℕ) (v : View) (h : Header) (iface : Interface)
    (body : Bytes) : HidesMore v hidden (hiddenAfter hidden v h iface body) h iface body := by
  intro name hin
  unfold hiddenAfter at hin
  split at hin
  · rename_i hg
    split at hin
    · exact .inl hin
    · rename_i gname iname version hr
      split at hin
      · exact .inl hin
      · rename_i hnone
        obtain rfl | hin := List.mem_cons.mp hin
        · exact .inr ⟨⟨name, iname, version⟩, rfl, ⟨hg.1, hg.2, hr⟩, by simpa using hnone⟩
        · exact .inl hin
  · exact .inl hin

namespace View.Allowed

lemma unrequested (ha : v.Allowed line hidden) (ht : Taken v .clientToServer h iface m version msg)
    (hd : decode m (msg.drop headerLen) = .ok d)
    (hu : Unrequested h iface m version msg fds d v clip v' clip') : v'.Obeys v.holdAwake hidden := by
  obtain ⟨line', hline⟩ : ∃ line' : Lineage, line.Inherits line' v h iface (msg.drop headerLen) d :=
    ⟨_, Lineage.inherits_after hd⟩
  cases hu with
  | unserved _ _ hq => exact ha.obeys.quiet hq.1
  | passed _ hs hc hu =>
    obtain hq | ⟨id, name, v1, v2, hn, hr, hadv, hv⟩ := hu
    · exact ha.obeys.quiet hq
    · obtain rfl : v' = v2 := hv.resolve_right (by simp)
      have hcreates : Creates .clientToServer true d version clip v v' := by
        rw [Creates, hn]
        exact ⟨v1, v', hr, hadv, by simp⟩
      have h' := (ha.creates_forwarded ht hs hd hc hline hcreates).1
      have hset : v'.holdAwake = v.holdAwake :=
        congrArg (fun x => x.2.1) (unseen_of_creates hcreates).settings
      exact hset ▸ h'.obeys
  | bound name _ hi ho hb hserved hu =>
    have hmade : Quiet v v' ∨ v'.Allowed line' hidden ∧ v'.holdAwake = v.holdAwake :=
      uncreated_served (fun id name' hn => ?_) hu
    · obtain hq | ⟨h', hhold⟩ := hmade
      · exact ha.obeys.quiet hq
      · exact hhold ▸ h'.obeys
    · have hb' := hb
      obtain ⟨_, _, _, _, _, hn', _⟩ := hb'
      cases hn.symm.trans hn'
      exact ⟨ne_registry hserved, fun objects i hf hlt hins =>
        ha.bound_insert ht hd hb ⟨hi, ho⟩ hserved hline hn hf hlt hins⟩
  | answered v1 _ _ hserved hs hu =>
    have hsteady := Steady.served hs (by rw [Objects.forwarded_of_get ht.live, if_pos hserved])
    have hset : v1.holdAwake = v.holdAwake := congrArg (fun x => x.2.1) hsteady.settings
    have hmade := uncreated_served
        (fun id name hn => ⟨answered_name ht.entry hserved hd hn, fun objects i hf hlt hins =>
          ha.answered_insert ht hserved hd hs hline hn hf hlt hins⟩) hu
    obtain hq | ⟨h', hhold⟩ := hmade
    · refine View.Obeys.quiet ?_ hq
      obtain h1 | ⟨_, _, _, _, rfl⟩ | ⟨_, _, rfl⟩ := ha.served ht hd hs
      · exact hset ▸ h1.obeys
      · exact ha.obeys.quiet ⟨rfl, rfl, rfl, rfl⟩
      · exact ha.obeys.quiet ⟨rfl, rfl, rfl, rfl⟩
    · exact (hhold.trans hset) ▸ h'.obeys

lemma unhappened (ha : v.Allowed line hidden) (he : (iface.table .serverToClient)[h.opcode]? = some m)
    (hd : decode m (msg.drop headerLen) = .ok d)
    (hu : Unhappened h iface m version msg d v clip v' clip') : v'.Obeys v.holdAwake hidden := by
  obtain ⟨r, v1, v2, v3, _, hann, hv2, hq, hu⟩ := hu
  have hquiet : Quiet v v1 := by
    obtain ⟨globals, hg⟩ := Announced.globals_eq hann
    rw [hg]
    exact ⟨rfl, rfl, rfl, rfl⟩
  have h2 : v2.Obeys v.holdAwake hidden := by
    obtain ⟨rfl, _⟩ | hf := hv2
    · exact ha.obeys.quiet hquiet
    · cases hf with
      | enter _ hi _ ho =>
        obtain rfl : v1 = v := by
          cases hann with
          | shown _ _ _ _ hi' => rw [hi] at hi'; cases hi'
          | hidden | other => rfl
        have h' := ha.offering ha.devices ho
        have hset : v2.holdAwake = v1.holdAwake :=
          congrArg (fun x => x.2.1) (Steady.offering ho).settings
        exact hset ▸ h'.obeys
      | leave | stay => exact ha.obeys.quiet hquiet
  refine (h2.quiet hq).quiet ?_
  obtain hq | ⟨id, name, v4, v5, hn, hr, hadv, hv⟩ := hu
  · exact hq
  · obtain rfl : v' = v5 := hv.resolve_right (by simp)
    obtain ⟨rfl, _⟩ := made_event he hd hn
    exact hadv ▸ Registers.quiet hr

end View.Allowed

def Policy.Root (hold : Bool) (i : Interface) : Prop :=
  i = .wlRegistry ∨ (Policy.allowedVersion i.name hold).isSome ∨ i = .wlDataDeviceManager

lemma reaches_callback : wlCompositor.Reaches .wlCallback :=
  .tail (.single (by decide : wlCompositor.Begets .wlSurface)) (by decide)

lemma reaches_served (hs : Policy.served i.name = true) : wlDataDeviceManager.Reaches i := by
  have hdevice : wlDataDeviceManager.Begets .wlDataDevice := by decide
  cases i with
  | wlDataDeviceManager => exact .refl
  | wlDataDevice => exact .single hdevice
  | wlDataSource => exact .single (by decide)
  | wlDataOffer => exact .tail (.single hdevice) (by decide)
  | _ => cases hs

lemma Legit.rooted {hold : Bool} {down : List Sent} (hl : Legit hold down line id i version) :
    i = .wlDisplay ∨ ∃ root, Policy.Root hold root ∧ root.Reaches i := by
  cases hl with
  | display => exact .inl rfl
  | plain _ hi =>
    obtain rfl | rfl := hi
    · exact .inr ⟨_, .inl rfl, .refl⟩
    · exact .inr ⟨.wlCompositor, .inr (.inl (by cases hold <;> decide)), reaches_callback⟩
  | bound root _ _ max g _ _ _ hroot hre hmax =>
    exact .inr ⟨root, Or.inr (Or.inl (by rw [← hroot, hmax]; rfl)), hre⟩
  | served _ _ hs => exact .inr ⟨_, Or.inr (Or.inr rfl), reaches_served hs⟩

/-- A session under observation: where its objects descend from and which names
of the compositor's it hides. -/
structure Watched where
  session : Session
  lineage : Lineage
  hidden : List ℕ

namespace Watched

def start (zone : String) (hold : Bool) (id : ℕ) : Watched := ⟨.opened zone hold id, fun _ => none, []⟩

def note (w : Watched) (dir : Dir) : Lineage × List ℕ :=
  let s := w.session
  match Session.next s.core dir (s.inbound dir) with
  | .take h iface m _ =>
    let body := (s.msg dir h).drop headerLen
    match dir with
    | .clientToServer => (w.lineage.after s.core.view h iface m body, w.hidden)
    | .serverToClient => (w.lineage, hiddenAfter w.hidden s.core.view h iface body)
  | _ => (w.lineage, w.hidden)

def Fairly (w : Watched) : Prop :=
  match Session.next w.session.core .serverToClient w.session.serverIn with
  | .take h iface _ _ =>
    Fair w.session.core.view w.hidden h iface ((w.session.msg .serverToClient h).drop headerLen)
  | _ => True

inductive Step (w : Watched) : Watched → Prop
  | turn (k : Kernel) (dir : Dir) (clip clip' : Clipboard) (more : Bool) (s : Session) :
      (dir = .serverToClient → w.Fairly) →
      Session.pumpOnce k dir (w.session, clip) = .ok more (s, clip') →
      Step w ⟨s, (w.note dir).1, (w.note dir).2⟩
  | other (input : Session.Input) (s : Session) : (∀ k dir clip, input ≠ .pump k dir clip) →
      input.run w.session = .ok () s → Step w { w with session := s }

inductive Ends (w : Watched) : Session → Prop
  | turn (k : Kernel) (dir : Dir) (clip clip' : Clipboard) (e : Fault) (s : Session) :
      Session.pumpOnce k dir (w.session, clip) = .error e (s, clip') → Ends w s
  | other (input : Session.Input) (e : Fault) (s : Session) : (∀ k dir clip, input ≠ .pump k dir clip) →
      input.run w.session = .error e s → Ends w s

/-- The global an object descends from: a data offer, like its device, from the
proxy's own. -/
def descent (w : Watched) (id : ℕ) (i : Interface) : Option Global :=
  if i = .wlDataOffer then some .own else w.lineage id

/-- The allowlist holds: of every live object, of all that was queued, and of all
that was queued by the time the session ends. -/
structure Allowlisted (hold : Bool) (w : Watched) : Prop where
  rooted : ∀ id i version, w.session.core.objects.get id = some (i, version) →
    i = .wlDisplay ∨ ∃ root, Policy.Root hold root ∧ root.Reaches i
  unbound : ∀ id i version, w.session.core.objects.get id = some (i, version) → w.descent id i = none → version = 1
  version : ∀ id i version g, w.session.core.objects.get id = some (i, version) →
    w.descent id i = some g → Told w.session.core.sentDown g ∧
      (∃ root : Interface, root.name = g.iface ∧ root.Reaches i) ∧
      ∃ max, Policy.cap hold g.iface = some max ∧ version ≤ max ∧ version ≤ g.version
  obeys : w.session.core.view.Obeys hold w.hidden
  ended : ∀ s, w.Ends s → s.core.view.Obeys hold w.hidden

structure Kept (hold : Bool) (w : Watched) : Prop where
  awake : w.session.core.holdAwake = hold
  allowed : w.session.core.view.Allowed w.lineage w.hidden

variable {w w' : Watched} {hold : Bool}

lemma kept_start (zone : String) (hold : Bool) (id : ℕ) : (start zone hold id).Kept hold := by
  refine ⟨rfl, rfl, rfl, fun x i version hx => ?_, fun name iface version hg => ?_, fun _ h => ?_,
    fun _ h => ?_, fun _ h => ?_, fun _ h => ?_, fun _ h => ?_⟩
  · have hx' : (Objects.new (.wlDisplay, 1)).get x = some (i, version) := hx
    rw [Objects.get_new] at hx'
    split at hx'
    · rename_i h1
      cases hx'
      exact .display h1
    · cases hx'
  · cases hg
  all_goals cases h

lemma allowed_turn (ha : w.session.core.view.Allowed w.lineage w.hidden) (k : Kernel) (dir : Dir)
    (clip : Clipboard) : wp (Session.pumpOnce k dir) (fun _ x => (dir = .serverToClient → w.Fairly) →
        x.1.core.view.Allowed (w.note dir).1 (w.note dir).2)
      (fun _ x => x.1.core.view.Obeys w.session.core.holdAwake w.hidden) (w.session, clip) := by
  obtain ⟨s, line, hidden⟩ := w
  have hidle (s' : Session) (hc : s'.core = s.core) (hn : note ⟨s, line, hidden⟩ dir = (line, hidden)) :
      s'.core.view.Allowed (note ⟨s, line, hidden⟩ dir).1 (note ⟨s, line, hidden⟩ dir).2 := by
    rw [hn, hc]
    exact ha
  refine Session.wp_pumpOnce (fun hn _ => hidle s rfl ?_) (fun e _ => ha.obeys)
    (fun n hn _ => hidle _ (Session.core_setInbound _ _ _) ?_) fun h iface m version hn => ?_
  · simp [note, hn]
  · simp [note, hn]
  have ht := Session.taken hn
  cases dir with
  | clientToServer =>
    refine wp_mono (wp_request k h iface m version _ _ ⟨s.core, clip⟩) (fun _ u hu _ => ?_) fun _ u hu => ?_
    · obtain ⟨d, hd, hr⟩ := hu
      simp only [note, hn]
      exact ha.request ht hd hr (Lineage.inherits_after hd)
    · obtain rfl | ⟨d, hd, hr⟩ := hu
      · exact ha.obeys
      · exact ha.unrequested ht hd hr
  | serverToClient =>
    refine wp_mono (wp_event k h iface m version _ _ ⟨s.core, clip⟩) (fun _ u hu hf => ?_) fun _ u hu => ?_
    · obtain ⟨d, hd, hh⟩ := hu
      have hfair := hf rfl
      simp only [Fairly] at hfair
      have hn' : Session.next s.core .serverToClient s.serverIn = .take h iface m version := hn
      rw [hn'] at hfair
      simp only [note, hn]
      exact ha.event hfair (hidesMore_hiddenAfter _ _ _ _ _) ht hd hh
    · obtain rfl | ⟨d, hd, hh⟩ := hu
      · exact ha.obeys
      · exact ha.unhappened ht.entry hd hh

lemma allowed_other (ha : w.session.core.view.Allowed w.lineage w.hidden) (input : Session.Input)
    (hp : ∀ k dir clip, input ≠ .pump k dir clip) :
    wp input.run (fun _ s => s.core.view.Allowed w.lineage w.hidden ∧ s.core.holdAwake = w.session.core.holdAwake)
      (fun _ s => s.core.view.Obeys w.session.core.holdAwake w.hidden) w.session := by
  cases input with
  | arrive dir bytes fds =>
    have hc : (w.session.arrive dir bytes fds).core = w.session.core := Session.core_setInbound _ _ _
    have h := hc.symm ▸ ha
    exact ⟨h, congrArg Core.holdAwake hc⟩
  | pump k dir clip => exact absurd rfl (hp k dir clip)
  | act clip a =>
    simp only [Session.Input.run, wp_zoom]
    refine wp_mono (Core.wp_act clip a w.session.core) (fun _ c hc => ⟨ha.acted hc, ?_⟩) fun _ c hc => ?_
    · exact congrArg (fun x => x.2.1) (Steady.acted hc).settings
    · have hset : c.view.holdAwake = w.session.core.view.holdAwake :=
        congrArg (fun x => x.2.1) (Steady.offering hc).settings
      have h := (ha.offering ha.devices hc).obeys
      rw [hset] at h
      exact h
  | flushClient results | flushServer results =>
    simp only [Session.Input.run, wp_bind, wp_zoom]
    exact wp_of_cases (fun _ _ _ => ⟨ha, rfl⟩) fun _ _ _ => ha.obeys

lemma Kept.step (hk : w.Kept hold) (hs : w.Step w') : w'.Kept hold := by
  cases hs with
  | turn k dir clip clip' more s hf hr =>
    refine ⟨?_, wp_ok (allowed_turn hk.allowed k dir clip) hr hf⟩
    have hawake : s.core.view.holdAwake = w.session.core.view.holdAwake := by
      obtain ⟨hv, _⟩ | hm := wp_ok (Session.messaged_pumpOnce k dir w.session clip) hr
      · exact congrArg View.holdAwake hv
      · exact congrArg (fun x => x.2.1) (settings_messaged hm)
    exact hawake.trans hk.awake
  | other input s hp hr =>
    obtain ⟨ha, hh⟩ := wp_ok (allowed_other hk.allowed input hp) hr
    exact ⟨hh.trans hk.awake, ha⟩

lemma Kept.run (hk : w.Kept hold) (hr : Relation.ReflTransGen Step w w') : w'.Kept hold := by
  induction hr with
  | refl => exact hk
  | tail _ hs ih => exact ih.step hs

lemma Kept.ends (hk : w.Kept hold) {s : Session} (he : w.Ends s) : s.core.view.Obeys hold w.hidden := by
  rw [← hk.awake]
  cases he with
  | turn k dir clip clip' e _ hr =>
    have h := wp_error (allowed_turn hk.allowed k dir clip) hr
    exact h
  | other input e _ hp hr =>
    have h := wp_error (allowed_other hk.allowed input hp) hr
    exact h

lemma Kept.allowlisted (hk : w.Kept hold) : w.Allowlisted hold := by
  have hlegit := hk.allowed.legit
  have hawake : w.session.core.view.holdAwake = hold := hk.awake
  rw [hawake] at hlegit
  refine ⟨fun id i version hg => (hlegit id i version hg).rooted, fun id i version hg hd => ?_,
    fun id i version g hg hd => ?_, hawake ▸ hk.allowed.obeys, fun s hs => hk.ends hs⟩
  · unfold descent at hd
    split at hd
    · cases hd
    · rename_i hi
      cases hlegit id i version hg with
      | display | plain => rfl
      | bound _ _ _ _ g hl => rw [hl] at hd; cases hd
      | served _ _ _ _ _ _ _ hl => rw [(hl hi).2] at hd; cases hd
  · unfold descent at hd
    cases hlegit id i version hg with
    | display h1 =>
      rw [if_neg (by decide), h1] at hd
      have := hk.allowed.unrooted
      rw [hd] at this
      cases this
    | plain _ hi _ hl =>
      rw [if_neg (by rcases hi with rfl | rfl <;> decide), hl] at hd
      cases hd
    | bound root _ _ max g' hl _ hs hroot hre hmax _ hv hver htold =>
      rw [if_neg (by rintro rfl; cases hs), hl] at hd
      cases hd
      exact ⟨htold, ⟨root, hroot.symm, hre⟩, max, by rw [cap, hmax]; rfl, hv, hver⟩
    | served _ _ hs _ _ hv htold hl =>
      obtain rfl : Global.own = g := by
        split at hd
        · exact Option.some.inj hd
        · rename_i hi
          rw [(hl hi).2] at hd
          exact Option.some.inj hd
      exact ⟨htold, ⟨.wlDataDeviceManager, rfl, reaches_served hs⟩, 3, by cases hold <;> decide, hv, hv⟩

/-- In every state a session reaches with a compositor that is fair, its objects
and all it queued keep to the allowlist. -/
theorem run_allowlisted (zone : String) (hold : Bool) (id : ℕ)
    (hrun : Relation.ReflTransGen Step (start zone hold id) w) : w.Allowlisted hold :=
  ((kept_start zone hold id).run hrun).allowlisted

def turned (w : Watched) (dir : Dir) : Watched :=
  ⟨match Session.pumpOnce .willing dir (w.session, {}) with | .ok _ x | .error _ x => x.1,
    (w.note dir).1, (w.note dir).2⟩

def arrived (w : Watched) (dir : Dir) (msg : MessageWriter) : Watched :=
  { w with session := w.session.arrive dir msg.bytes [] }

lemma step_turned (w : Watched) (dir : Dir) (hf : dir = .serverToClient → w.Fairly)
    (hok : (match Session.pumpOnce .willing dir (w.session, {}) with
      | .ok _ _ => true | .error _ _ => false) = true) : Step w (w.turned dir) := by
  unfold turned
  split
  · rename_i more x hr
    exact .turn .willing dir {} x.2 more x.1 hf hr
  · rename_i hr
    rw [hr] at hok
    cases hok

lemma step_arrived (w : Watched) (dir : Dir) (msg : MessageWriter) : Step w (w.arrived dir msg) :=
  .other (.arrive dir msg.bytes []) _ (by rintro _ _ _ ⟨⟩) rfl

lemma fairly_of_announced (body : Bytes) (g : Global)
    (hn : (match Session.next w.session.core .serverToClient w.session.serverIn with
      | .take h iface _ _ => decide (h.object ≠ wlDisplay ∧ iface = .wlRegistry ∧
          (w.session.msg .serverToClient h).drop headerLen = body)
      | _ => false) = true)
    (hr : readArgs globalArgs body = .ok (g.name, g.iface, g.version)) (hb : g.name < ownGlobalBase)
    (ha : (allowedVersion g.iface w.session.core.view.holdAwake).isSome = true)
    (hh : g.name ∉ w.hidden) : w.Fairly := by
  unfold Fairly
  split at hn
  · rename_i h iface m version _
    obtain ⟨ho, rfl, rfl⟩ := of_decide_eq_true hn
    have hone (g' : Global) (hg : Announcing h .wlRegistry
        ((w.session.msg .serverToClient h).drop headerLen) g') : g'.name = g.name ∧ g'.iface = g.iface := by
      have he := Except.ok.inj (hg.2.2.symm.trans hr)
      simp only [Prod.mk.injEq] at he
      exact ⟨he.1, he.2.1⟩
    refine ⟨fun g' hg => (hone g' hg).1 ▸ hb, fun g' hg _ => (hone g' hg).1 ▸ hh, fun g' hg hnone => ?_,
      fun _ ho' => absurd ho' ho⟩
    rw [(hone g' hg).2] at hnone
    rw [hnone] at ha
    cases ha
  · cases hn

/-- A client with a registry, which the compositor tells of a global. -/
def sampleTold : Watched :=
  ((((start "work" false 1).arrived .clientToServer ((MessageWriter.new wlDisplay 1).u32 2)).turned
    .clientToServer).arrived .serverToClient
      ((((MessageWriter.new 2 0).u32 1).string "wl_compositor").u32 7))

def sampleBound : Watched :=
  ((sampleTold.turned .serverToClient).arrived .clientToServer
    (((((MessageWriter.new 2 0).u32 1).string "wl_compositor").u32 6).u32 3)).turned .clientToServer

theorem run_allowlisted_bound : sampleBound.session.core.objects.get 3 = some (.wlCompositor, 6) ∧
    sampleBound.Allowlisted false := by
  have htold : Relation.ReflTransGen Step (start "work" false 1) sampleTold :=
    (((Relation.ReflTransGen.refl.tail (step_arrived _ _ _)).tail
      (step_turned _ _ (by rintro ⟨⟩) (by decide +kernel))).tail (step_arrived _ _ _))
  have hfair : sampleTold.Fairly :=
    fairly_of_announced (((((MessageWriter.new 2 0).u32 1).string "wl_compositor").u32 7).bytes.drop
      headerLen) ⟨1, "wl_compositor", 7⟩ (by decide +kernel) (by rfl) (by decide) (by decide +kernel)
      (by decide +kernel)
  have hrun : Relation.ReflTransGen Step (start "work" false 1) sampleBound :=
    (((htold.tail (step_turned _ _ (fun _ => hfair) (by decide +kernel))).tail (step_arrived _ _ _)).tail
      (step_turned _ _ (by rintro ⟨⟩) (by decide +kernel)))
  exact ⟨by decide +kernel, run_allowlisted "work" false 1 hrun⟩

/-- A compositor that gives the name of a global it took back, which was shown, to
one that is hidden, and then takes that back too. -/
def sampleReuse : List Session.Input :=
  let registry := MessageWriter.new 2
  [.arrive .clientToServer ((MessageWriter.new wlDisplay 1).u32 2).bytes [], .pump .willing .clientToServer {},
    .arrive .serverToClient ((((registry 0).u32 1).string "wl_compositor").u32 6).bytes [],
    .arrive .serverToClient ((registry 1).u32 1).bytes [],
    .arrive .serverToClient ((((registry 0).u32 1).string "zwlr_layer_shell_v1").u32 4).bytes [],
    .arrive .serverToClient ((registry 1).u32 1).bytes [],
    .pump .willing .serverToClient {}]

/-- A compositor that gives back the display's id, which the client then has for an object the proxy serves. -/
def sampleGiven : List Session.Input :=
  [.arrive .clientToServer ((MessageWriter.new wlDisplay 1).u32 2).bytes [], .pump .willing .clientToServer {},
    .arrive .serverToClient ((MessageWriter.new wlDisplay wlDisplayDeleteId).u32 wlDisplay).bytes [],
    .pump .willing .serverToClient {},
    .arrive .clientToServer (((((MessageWriter.new 2 0).u32 ownGlobalBase).string "wl_data_device_manager").u32 3).u32
      wlDisplay).bytes [],
    .pump .willing .clientToServer {}]

/-- The client hears of the second removal, that of the hidden global; and the compositor gets the placeholder's
request on a served object. -/
theorem hidden_removal_queued : 1 < ownGlobalBase ∧ allowedVersion "zwlr_layer_shell_v1" false = none ∧
    (Session.final sampleReuse (.opened "work" false 1)).core.sentDown.map Sent.bytes = [(ownGlobal 2).bytes,
        ((((MessageWriter.new 2 0).u32 1).string "wl_compositor").u32 6).bytes,
        ((MessageWriter.new 2 1).u32 1).bytes, ((MessageWriter.new 2 1).u32 1).bytes] ∧
    served "wl_data_device_manager" = true ∧
    (Session.final sampleGiven (.opened "work" false 1)).core.sentUp.map (fun s => (s.bytes, s.objects.get wlDisplay)) =
      [(((MessageWriter.new wlDisplay 1).u32 2).bytes, some (.wlDisplay, 1)),
        (((MessageWriter.new wlDisplay 0).u32 wlDisplay).bytes, some (.wlDataDeviceManager, 3))] := by
  refine ⟨by decide, by decide +kernel, by decide +kernel, by decide, by decide +kernel⟩

end Watched

end Kryptik.Wlproxy
