import Kryptik.Wlproxy.Steps

namespace Kryptik.Wlproxy

open Lib Tables Wire Protocol View List Function Objects

namespace Objects

def forwarded (o : Objects) (id : ℕ) : Option Interface :=
  match o.get id with
  | some (i, _) => if Policy.served i.name = true then none else some i
  | none => none

variable {o o' : Objects} {id version : ℕ} {i : Interface}

lemma forwarded_of_get (h : o.get id = some (i, version)) :
    o.forwarded id = if Policy.served i.name = true then none else some i := by
  simp [forwarded, h]

lemma Inserted.forwarded (h : Inserted o id (i, version) o') : o'.forwarded = Function.update o.forwarded id
      (if Policy.served i.name = true then none else some i) := by
  funext x
  by_cases hx : x = id
  · subst hx
    rw [forwarded_of_get (by rw [h.get, if_pos rfl]), update_self]
  · rw [update_of_ne hx, Objects.forwarded, Objects.forwarded, h.get, if_neg hx]

lemma Inserted.forwarded_free (h : Inserted o id (i, version) o') : o.forwarded id = none := by
  rw [Objects.forwarded, h.free]

lemma Inserted.forwarded_served (h : Inserted o id (i, version) o')
    (hs : Policy.served i.name = true) : o'.forwarded = o.forwarded := by
  rw [h.forwarded, if_pos hs, ← h.forwarded_free, update_eq_self]

lemma forwarded_erase (o : Objects) (id : ℕ) : (o.erase id).forwarded = Function.update o.forwarded id none := by
  funext x
  by_cases hx : x = id
  · subst hx
    rw [forwarded, get_erase, if_pos rfl, update_self]
  · rw [update_of_ne hx, forwarded, forwarded, get_erase, if_neg hx]

lemma forwarded_erase_served (h : o.forwarded id = none) : (o.erase id).forwarded = o.forwarded := by
  rw [forwarded_erase, ← h, update_eq_self]

end Objects

def View.settings (v : View) : String × Bool × ℕ := (v.zone, v.holdAwake, v.id)

/-- A change of which the compositor is told nothing, and the client only what the
proxy itself has to say. -/
structure Unseen (v v' : View) : Prop where
  settings : v'.settings = v.settings
  sentUp : v'.sentUp = v.sentUp
  placeholders : v'.placeholders = v.placeholders
  told : ∃ own, v'.sentDown = v.sentDown ++ own ∧ ∀ sent ∈ own, sent.origin = .own

/-- Such a change that also leaves the objects the compositor knows. -/
structure Steady (v v' : View) : Prop extends Unseen v v' where
  slots : v'.objects.client.length = v.objects.client.length
  forwarded : v'.objects.forwarded = v.objects.forwarded

section

variable {v v' v'' : View}

lemma Unseen.trans (h : Unseen v v') (h' : Unseen v' v'') : Unseen v v'' := by
  obtain ⟨own, ho, hown⟩ := h.told
  obtain ⟨own', ho', hown'⟩ := h'.told
  refine ⟨h'.settings.trans h.settings, h'.sentUp.trans h.sentUp, h'.placeholders.trans h.placeholders,
    own ++ own', ?_, fun sent hs => ?_⟩
  · rw [ho', ho, append_assoc]
  · exact (mem_append.mp hs).elim (hown sent) (hown' sent)

lemma Unseen.silent (hz : v'.settings = v.settings) (hu : v'.sentUp = v.sentUp)
    (hp : v'.placeholders = v.placeholders) (hd : v'.sentDown = v.sentDown) : Unseen v v' :=
  ⟨hz, hu, hp, [], by simp [hd], by simp⟩

end

namespace Steady

variable {v v' v'' : View} {clip clip' : Clipboard} {devs : List ℕ} {id version : ℕ} {name : String}

lemma refl (v : View) : Steady v v := ⟨.silent rfl rfl rfl rfl, rfl, rfl⟩

lemma trans (h : Steady v v') (h' : Steady v' v'') : Steady v v'' :=
  ⟨h.toUnseen.trans h'.toUnseen, h'.slots.trans h.slots, h'.forwarded.trans h.forwarded⟩

lemma silent (hz : v'.settings = v.settings) (hu : v'.sentUp = v.sentUp)
    (hp : v'.placeholders = v.placeholders) (hd : v'.sentDown = v.sentDown)
    (hs : v'.objects.client.length = v.objects.client.length)
    (hf : v'.objects.forwarded = v.objects.forwarded) : Steady v v' :=
  ⟨.silent hz hu hp hd, hs, hf⟩

lemma tell (v : View) (msg : Bytes) : Steady v (v.sendDown .own msg) :=
  ⟨⟨rfl, rfl, rfl, [_], rfl, by simp⟩, rfl, rfl⟩

lemma tells {w : MessageWriter} (h : Tells w v v') : Steady v v' := by
  obtain ⟨msg, _, rfl⟩ := h
  exact tell v msg

lemma offering (h : Offering clip devs v v') : Steady v v' := by
  induction h with
  | done v => exact refl v
  | tell w msg _ _ _ _ ih => exact (tell _ msg).trans ih
  | @make v v' dev offer version iface objects _ _ hf hi _ ih =>
    have hid : serverIdBase ≤ offer := by
      unfold freeServerId at hf
      simp only [Option.ite_none_right_eq_some, Option.some.injEq] at hf
      omega
    have hins := Objects.inserted hi
    refine .trans ?_ ih
    refine .silent rfl rfl rfl rfl ?_ ?_
    · exact congrArg List.length (hins.client hid)
    · exact hins.forwarded_served (by decide)

lemma served {object : ℕ} {body : Bytes} {fds : List Fd} {iface : Interface} {request : String}
    (h : Served object body fds v clip iface request v' clip')
    (ho : v.objects.forwarded object = none) : Steady v v' := by
  have hgone (v1 : View) (hz : v1.settings = v.settings) (hu : v1.sentUp = v.sentUp)
      (hp : v1.placeholders = v.placeholders) (hd : v1.sentDown = v.sentDown)
      (he : v1.objects = v.objects.erase object) : Steady v v1 := by
    refine .silent hz hu hp hd ?_ ?_
    · rw [he, length_client_erase]
    · rw [he, forwarded_erase_served ho]
  cases h with
  | sourceDestroy _ ht | deviceRelease _ ht =>
    refine .trans ?_ (tells ht)
    exact hgone _ rfl rfl rfl rfl rfl
  | offerDestroy => exact hgone _ rfl rfl rfl rfl rfl
  | cancel _ _ _ _ ht => exact tells ht
  | _ => exact .silent rfl rfl rfl rfl rfl rfl

lemma acted {a : Action} (h : Acted clip v a v') : Steady v v' := by
  cases h with
  | offer _ _ _ ho => exact offering ho
  | cancel _ _ _ _ ht => exact tells ht
  | send _ _ _ _ _ _ _ _ ht => exact (tells ht).trans (.silent rfl rfl rfl rfl rfl rfl)
  | nothing => exact refl v

lemma advertised (h : Advertised id name v v') : Steady v v' := by
  unfold Advertised at h
  split at h
  · refine .trans ?_ (tells h)
    exact .silent rfl rfl rfl rfl rfl rfl
  · exact h ▸ refl v

lemma focused {iface : Interface} {m : Message} (h : Focused iface m v clip v' clip') : Steady v v' := by
  cases h with
  | enter _ _ _ ho => exact offering ho
  | leave | stay => exact refl v

end Steady

structure Fresh (id : ℕ) (i : Interface) (o o' : Objects) : Prop where
  id_ne : id ≠ 0
  id_lt : id < serverIdBase
  free : o.forwarded id = none
  dense : id ≤ o.client.length
  slots : o'.client.length = max o.client.length (id + 1)
  forwarded : o'.forwarded = Function.update o.forwarded id
    (if Policy.served i.name = true then none else some i)

lemma Fresh.keeps {o o' : Objects} {id x : ℕ} {i j : Interface} (hf : Fresh id j o o') (hx : o.forwarded x = some i) :
    o'.forwarded x = some i := by
  rw [hf.forwarded, update_of_ne, hx]
  rintro rfl
  cases hf.free.symm.trans hx

/-- An object the client creates and the proxy serves: its place is held. -/
structure Reserved (id : ℕ) (v v' : View) : Prop where
  settings : v'.settings = v.settings
  fresh : ∃ i, Policy.served i.name = true ∧ Fresh id i v.objects v'.objects
  sentUp : ∃ msg objects, (syncOn id).finish = some msg ∧ v'.sentUp = v.sentUp ++ [⟨.placeholder, msg, objects⟩]
  placeholders : v'.placeholders = v.placeholders.insert id ((v.placeholders.lookup id).getD 0 + 1)
  told : ∃ own, v'.sentDown = v.sentDown ++ own ∧ ∀ sent ∈ own, sent.origin = .own

section Creation

variable {v v' v'' : View} {clip clip' : Clipboard} {id version : ℕ} {name : String}

lemma Fresh.steady {i : Interface} {o : Objects} (h : Fresh id i o v.objects) (hs : Steady v v') :
    Fresh id i o v'.objects :=
  ⟨h.id_ne, h.id_lt, h.free, h.dense, hs.slots.trans h.slots, hs.forwarded.trans h.forwarded⟩

lemma fresh_of_registers (h : Registers id name version .clientToServer v v') :
    ∃ i objects, find name = some i ∧ v' = { v with objects := objects } ∧ Fresh id i v.objects v'.objects := by
  obtain ⟨h0, hr, i, objects, hf, hi, rfl⟩ := h
  have hid : id < serverIdBase := by simpa [Core.inRange] using hr
  have hins := Objects.inserted hi
  exact ⟨i, objects, hf, rfl, h0, hid, hins.forwarded_free, (hins.dense hid).1, (hins.dense hid).2, hins.forwarded⟩

lemma reserved_of_creates {d : Decoded} (hn : d.newObject = some (id, name))
    (hs : Policy.served name = true) (h : Creates .clientToServer false d version clip v v') :
    Reserved id v v' := by
  unfold Creates at h
  rw [hn] at h
  obtain ⟨v1, v2, hr, ha, hv⟩ := h
  obtain ⟨v3, ⟨msg, hm, h3⟩, hv⟩ := hv
  obtain ⟨i, objects, hf, h1, hfresh⟩ := fresh_of_registers hr
  have h2 := Steady.advertised ha
  have h4 : Steady v3 v' := by
    split at hv
    · exact Steady.offering hv
    · exact hv ▸ .refl _
  obtain ⟨own, ho, hown⟩ := h2.told
  obtain ⟨own', ho', hown'⟩ := h4.told
  obtain rfl := name_of_find hf
  refine ⟨?_, ⟨i, hs, ?_⟩, ⟨msg, v2.objects, hm, ?_⟩, ?_, own ++ own', ?_, fun sent hin => ?_⟩
  · rw [h4.settings, h3]
    exact h2.settings.trans (by rw [h1]; rfl)
  · refine Fresh.steady ?_ h4
    have hlater := hfresh.steady h2
    exact h3 ▸ hlater
  · rw [h4.sentUp, h3, ← congrArg View.sentUp h1]
    exact congrArg (· ++ _) h2.sentUp
  · rw [h4.placeholders, h3, ← congrArg View.placeholders h1, ← h2.placeholders]
  · rw [ho', h3, ← append_assoc, ← congrArg View.sentDown h1]
    exact congrArg (· ++ own') ho
  · exact (mem_append.mp hin).elim (hown sent) (hown' sent)

lemma Reserved.after (hs : Steady v v') (h : Reserved id v' v'') : Reserved id v v'' := by
  obtain ⟨i, hi, hf⟩ := h.fresh
  obtain ⟨msg, objects, hm, hu⟩ := h.sentUp
  obtain ⟨own, ho, hown⟩ := hs.told
  obtain ⟨own', ho', hown'⟩ := h.told
  refine ⟨h.settings.trans hs.settings, ⟨i, hi, hf.id_ne, hf.id_lt, hs.forwarded ▸ hf.free, hs.slots ▸ hf.dense,
    hs.slots ▸ hf.slots, hs.forwarded ▸ hf.forwarded⟩, ⟨msg, objects, hm, hs.sentUp ▸ hu⟩,
    hs.placeholders ▸ h.placeholders, own ++ own', ?_, fun sent hin => ?_⟩
  · rw [ho', ho, append_assoc]
  · exact (mem_append.mp hin).elim (hown sent) (hown' sent)

def Shares (d : Decoded) (o o' : Objects) : Prop :=
  match d.newObject with
  | none => o' = o
  | some (id, name) => ∃ i, name = i.name ∧ Policy.served i.name = false ∧ Fresh id i o o'

lemma Shares.forwarded {d : Decoded} {o o' : Objects} (hs : Shares d o o') {x : ℕ} {i : Interface}
    (hx : o.forwarded x = some i) : o'.forwarded x = some i := by
  unfold Shares at hs
  split at hs
  · rw [hs, hx]
  · obtain ⟨_, _, _, hf⟩ := hs
    exact hf.keeps hx

structure Passed (h : Header) (iface : Interface) (m : Message) (msg : Bytes) (d : Decoded)
    (v v' : View) : Prop where
  known : v.objects.forwarded h.object = some iface
  checked : Checked h iface (msg.drop headerLen) d v true
  settings : v'.settings = v.settings
  placeholders : v'.placeholders = v.placeholders
  sentUp : ∃ out stamp, Rewrites v.zone h iface m d msg out ∧ Stamps v.zone iface m d stamp ∧
    v'.sentUp = v.sentUp ++ ⟨.request, out, v'.objects⟩ :: stamp.toList.map (fun s => ⟨.stamp, s, v'.objects⟩)
  shares : Shares d v.objects v'.objects
  told : ∃ own, v'.sentDown = v.sentDown ++ own ∧ ∀ sent ∈ own, sent.origin = .own

variable {h : Header} {iface : Interface} {m : Message} {msg : Bytes} {d : Decoded} {fds : List Fd}

lemma checked_bind {body : Bytes} (hc : Checked h iface body d v true)
    (hb : iface = .wlRegistry ∧ h.opcode = wlRegistryBind) :
    ∃ name, Binds v body d name ∧ Policy.served name = false := by
  generalize hf : true = forward at hc
  cases hc with
  | other hne => exact absurd hb hne
  | bind name _ _ hbinds => exact ⟨name, hbinds, by simpa using hf.symm⟩

lemma shares_of_creates (he : (iface.table .clientToServer)[h.opcode]? = some m)
    (hd : decode m (msg.drop headerLen) = .ok d) (hs : Policy.served iface.name = false)
    (hc : Checked h iface (msg.drop headerLen) d v true)
    (hv : Creates .clientToServer true d version clip v v') : Shares d v.objects v'.objects := by
  unfold Creates at hv
  unfold Shares
  cases hn : d.newObject with
  | none =>
    rw [hn] at hv
    exact congrArg View.objects hv
  | some x =>
    obtain ⟨id, name⟩ := x
    rw [hn] at hv
    obtain ⟨v1, v2, hr, ha, hv⟩ := hv
    obtain ⟨i, _, hf, _, hfresh⟩ := fresh_of_registers hr
    obtain rfl := name_of_find hf
    have h2 := Steady.advertised ha
    refine ⟨i, rfl, ?_, hv ▸ hfresh.steady h2⟩
    obtain ⟨j, hj, hserved, _⟩ | ⟨rfl, hop⟩ := (made_request he hd hn).2
    · rw [hj, hserved, hs]
    · obtain ⟨name, ⟨_, _, _, _, _, hn', _⟩, hns⟩ := checked_bind hc ⟨rfl, hop⟩
      cases hn.symm.trans hn'
      exact hns

lemma unseen_of_creates (hv : Creates .clientToServer true d version clip v v') : Unseen v v' := by
  unfold Creates at hv
  split at hv
  · exact hv ▸ .silent rfl rfl rfl rfl
  · obtain ⟨v1, v2, hr, ha, hv⟩ := hv
    obtain ⟨_, _, _, h1, _⟩ := fresh_of_registers hr
    refine hv ▸ Unseen.trans ?_ (Steady.advertised ha).toUnseen
    exact h1 ▸ .silent rfl rfl rfl rfl

lemma requested_cases (ht : Taken v .clientToServer h iface m version msg)
    (hd : decode m (msg.drop headerLen) = .ok d)
    (hr : Requested h iface m version msg fds d v clip v' clip') :
    Steady v v' ∨ (∃ id, Reserved id v v') ∨ Passed h iface m msg d v v' := by
  cases hr with
  | passed out stamp v1 hs hc hrw hst hv =>
    have hshares := shares_of_creates ht.entry hd hs hc hv
    have hu := unseen_of_creates hv
    have hknown : v.objects.forwarded h.object = some iface := by
      rw [forwarded_of_get ht.live, if_neg (by simp [hs])]
    refine .inr (.inr ?_)
    cases stamp with
    | none =>
      refine ⟨hknown, hc, hu.settings, hu.placeholders, ⟨out, none, hrw, hst, ?_⟩, hshares, hu.told⟩
      exact congrArg (· ++ _) hu.sentUp
    | some st =>
      refine ⟨hknown, hc, hu.settings, hu.placeholders, ⟨out, some st, hrw, hst, ?_⟩, hshares, hu.told⟩
      simp [passUp, sendUp, hu.sentUp]
  | bound name v1 hs hi ho hb hserved hv =>
    obtain ⟨id, _, _, _, _, hn, _⟩ := hb
    exact .inr (Or.inl ⟨id, reserved_of_creates hn hserved hv⟩)
  | answered v1 v2 clip1 hs hserve hv =>
    have hnone : v.objects.forwarded h.object = none := by
      rw [forwarded_of_get ht.live, if_pos hs]
    have h1 := Steady.served hserve hnone
    cases hn : d.newObject with
    | none =>
      unfold Creates at hv
      rw [hn] at hv
      exact .inl (hv ▸ h1)
    | some x =>
      obtain ⟨id, name⟩ := x
      have hname : Policy.served name = true := by
        obtain ⟨j, hj, hserved, _⟩ | ⟨rfl, _⟩ := (made_request ht.entry hd hn).2
        · rw [hj, hserved, hs]
        · cases hs
      exact .inr (Or.inl ⟨id, .after h1 (reserved_of_creates hn hname hv)⟩)

lemma Steady.created {forward : Bool} (he : (iface.table .serverToClient)[h.opcode]? = some m)
    (hd : decode m (msg.drop headerLen) = .ok d)
    (hc : Creates .serverToClient forward d version clip v v') : Steady v v' := by
  unfold Creates at hc
  split at hc
  · exact hc ▸ .refl _
  · rename_i id name hn
    obtain ⟨v1, v2, hr, ha, hc⟩ := hc
    refine hc ▸ .trans ?_ (Steady.advertised ha)
    obtain ⟨_, hrange, i, objects, hfind, hi, rfl⟩ := hr
    obtain ⟨rfl, _⟩ := made_event he hd hn
    obtain rfl : Interface.wlDataOffer = i := Option.some.inj (Core.find_wlDataOffer.symm.trans hfind)
    have hid : serverIdBase ≤ id := by simpa [Core.inRange] using hrange
    have hins := Objects.inserted hi
    exact .silent rfl rfl rfl rfl (congrArg List.length (hins.client hid)) (hins.forwarded_served (by decide))

/-- What an event does before it is queued: it may take a placeholder's answer
off the count or an object off the map, and its way to the client may be barred. -/
lemma happened_cases (ht : Taken v .serverToClient h iface m version msg) (hd : decode m (msg.drop headerLen) = .ok d)
    (hh : Happened h iface m version msg d v clip v' clip') :
    ∃ r r' v1 v2 v3, Steady v v1 ∧ Deleted h (msg.drop headerLen) v1 r r' v2 ∧ Steady v2 v3 ∧
      v' = if r'.forward = true then v3.sendDown .event (r'.rewritten.getD msg) else v3 := by
  obtain ⟨r1, r2, r3, r4, v1, v2, v3, v4, ha, _, _, hf, hdel, hc, hv⟩ := hh
  obtain ⟨globals, rfl⟩ := Announced.globals_eq ha
  refine ⟨r3, r4, v2, v3, v4, .trans ?_ (Steady.focused hf), hdel, .created ht.entry hd hc, hv⟩
  exact .silent rfl rfl rfl rfl rfl rfl

lemma settings_messaged {dir : Dir} (hm : Messaged v clip v' clip' dir) : v'.settings = v.settings := by
  cases hm with
  | request ht _ hd hr =>
    obtain hs | ⟨_, hs⟩ | hs := requested_cases ht hd hr
    · exact hs.settings
    · exact hs.settings
    · exact hs.settings
  | event ht hd hh =>
    obtain ⟨r, r', v1, v2, v3, h1, hdel, h3, hv⟩ := happened_cases ht hd hh
    have h2 : v2.settings = v1.settings := by cases hdel <;> rfl
    have h4 := h3.settings.trans (h2.trans h1.settings)
    rw [hv]
    split <;> exact h4

end Creation

end Kryptik.Wlproxy
