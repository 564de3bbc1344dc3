import Kryptik.Wlproxy.Agreement

namespace Kryptik.Wlproxy

open Lib Prog Tables Wire Protocol View IdReuse List Option Session Underway

section Requests

variable {v v' : View} {clip clip' : Clipboard} {h : Header} {iface : Interface} {m : Message} {version : ℕ}
  {msg out : Bytes} {d : Decoded} {fds : List Fd} {c : Compositor} {flight : List Coming} {ahead : List Sent}
  {plan : List Asked} {names : Names}

lemma created_none {call : Call} (hp : Header.parse out = .ok h) (hn : names h.object = some iface)
    (hm : (iface.table .clientToServer)[h.opcode]? = some m) (hargs : ∀ i, Arg.newId i ∉ m.args)
    (hc : names.call out = some call) : call.created = none := by
  rw [Names.call_eq hp hn hm] at hc
  cases hc
  cases hd : decode m (out.drop headerLen) with
  | error e => rfl
  | ok d =>
    cases decode_makes hd with
    | none hnone => exact hnone
    | typed i _ _ hin | named _ _ _ _ hin => exact absurd hin (hargs _)

lemma newId_not_string (i : Option Interface) (ha : m.args = [.string false]) : Arg.newId i ∉ m.args := by
  simp [ha]

lemma describes_rewrites {zone : String} {objects : Objects} {a : Asked}
    (ht : Taken v .clientToServer h iface m version msg) (hd : decode m (msg.drop headerLen) = .ok d)
    (hr : Rewrites zone h iface m d msg out) (hn : objects.forwarded h.object = some iface)
    (ha : Asks d.newObject a) : Describes ⟨.request, out, objects⟩ a := by
  unfold Rewrites at hr
  have hsame (heq : out = msg) : Describes ⟨.request, out, objects⟩ a := by
    subst heq
    have hcall := hd ▸ Names.call_eq ht.parse hn ht.entry
    refine .request (by simp) (fun call hc => ?_) fun _ => ?_
    · cases hcall.symm.trans hc
      exact ha
    · rw [hcall]
      rfl
  split at hr
  · rename_i hi
    obtain ⟨rfl, hname⟩ := hi
    have hargs := identity_args m (mem_of_getElem? ht.entry) hname
    cases hs : d.strings.head? with
    | none =>
      rw [hs] at hr
      exact hsame hr
    | some s =>
      rw [hs] at hr
      obtain ⟨h', hp, hobj, hop, _, _⟩ := MessageWriter.parse_finish hr h.opcode_lt
      have hobj' : h'.object = h.object := hobj.trans (Nat.mod_eq_of_lt h.object_lt)
      have hop' : h'.opcode = h.opcode := hop
      have hnone : d.newObject = none := by
        cases decode_makes hd with
        | none hnone => exact hnone
        | typed i _ _ hin | named _ _ _ _ hin => exact absurd hin (newId_not_string _ hargs)
      have hnot : a = none := by
        match a with
        | none => rfl
        | some (_, .held) => exact ha.elim
        | some (x, .made i) => exact absurd (hnone.symm.trans ha.2) (by simp)
      subst hnot
      refine .request (by simp) (fun call hc => ?_) fun hne => absurd rfl hne
      exact created_none hp (hobj' ▸ hn) (hop' ▸ ht.entry) (fun i => newId_not_string i hargs) hc
  · exact hsame hr

lemma setAppId_args : (Interface.xdgToplevel.table .clientToServer)[3]? =
    some ⟨"set_app_id", [.string false], 0, 1⟩ := rfl

lemma describes_stamp {zone : String} {objects : Objects} {id opcode : ℕ} {stamp : Bytes}
    (hop : Request.setAppId = some opcode)
    (hf : ((MessageWriter.new id opcode).string (Policy.appIdFor zone "")).finish = some stamp) (hid : id < 2 ^ 32)
    (hn : objects.forwarded id = some .xdgToplevel) : Describes ⟨.stamp, stamp, objects⟩ none := by
  obtain rfl : opcode = 3 := Option.some.inj (hop.symm.trans Request.setAppId_eq)
  obtain ⟨h, hp, hobj, hopc, _, _⟩ := MessageWriter.parse_finish hf (show 3 < 2 ^ 16 by decide)
  have hobj' : h.object = id := hobj.trans (Nat.mod_eq_of_lt hid)
  have hopc' : h.opcode = 3 := hopc
  refine .request (by simp) (fun call hc => ?_) fun hne => absurd rfl hne
  exact created_none hp (hobj' ▸ hn) (hopc' ▸ setAppId_args) (fun i => newId_not_string i rfl) hc

namespace Underway

lemma request (hu : Underway v.objects v.placeholders c flight ahead plan)
    (ht : Taken v .clientToServer h iface m version msg) (hd : decode m (msg.drop headerLen) = .ok d)
    (hp : Passed h iface m msg d v v') (hr : Rewrites v.zone h iface m d msg out) :
    ∃ a, Underway v'.objects v'.placeholders c flight (ahead ++ [⟨.request, out, v'.objects⟩]) (plan ++ [a]) := by
  rw [hp.placeholders]
  have hn := hp.shares.forwarded hp.known
  have hdesc {a : Asked} (ha : Asks d.newObject a) := describes_rewrites ht hd hr hn ha
  have hs := hp.shares
  unfold Shares at hs
  cases hnew : d.newObject with
  | none =>
    rw [hnew] at hs hdesc
    refine ⟨none, passes ?_ (hdesc rfl) rfl⟩
    exact hs.symm ▸ hu
  | some x =>
    obtain ⟨id, name⟩ := x
    rw [hnew] at hs hdesc
    obtain ⟨i, rfl, hi, hf⟩ := hs
    exact ⟨some (id, .made i), hu.makes hf hi (hdesc ⟨(made_request ht.entry hd hnew).1, rfl⟩) rfl⟩

lemma passed (hu : Underway v.objects v.placeholders c flight ahead plan)
    (ht : Taken v .clientToServer h iface m version msg) (hd : decode m (msg.drop headerLen) = .ok d)
    (hp : Passed h iface m msg d v v') : ∃ sent plan', v'.sentUp = v.sentUp ++ sent ∧
      Underway v'.objects v'.placeholders c flight (ahead ++ sent) plan' := by
  obtain ⟨out, stamp, hr, hst, hsent⟩ := hp.sentUp
  obtain ⟨a, ha⟩ := hu.request ht hd hp hr
  unfold Stamps at hst
  split at hst
  · rename_i hi
    obtain ⟨rfl, hname⟩ := hi
    obtain ⟨id, hid, hnew⟩ := made_window (mem_of_getElem? ht.entry) hname hd
    rw [hnew] at hst
    obtain ⟨opcode, hop, hsome, hf⟩ := hst
    obtain ⟨st, rfl⟩ := isSome_iff_exists.mp hsome
    have hn : v'.objects.forwarded id = some .xdgToplevel := by
      have hs := hp.shares
      unfold Shares at hs
      rw [hnew] at hs
      obtain ⟨i, hi, hserved, hfresh⟩ := hs
      obtain rfl : Interface.xdgToplevel = i := by
        have := find_name i
        rw [← hi] at this
        exact Option.some.inj ((find_name .xdgToplevel).symm.trans this)
      rw [hfresh.forwarded, Function.update_self, if_neg (by rw [hserved]; decide)]
    refine ⟨_, plan ++ [a] ++ [none], hsent, ?_⟩
    rw [toList_some, append_cons]
    exact ha.passes (describes_stamp hop hf hid hn) rfl
  · subst hst
    exact ⟨_, _, hsent, ha⟩

lemma requested (hu : Underway v.objects v.placeholders c flight ahead plan)
    (ht : Taken v .clientToServer h iface m version msg) (hd : decode m (msg.drop headerLen) = .ok d)
    (hr : Requested h iface m version msg fds d v clip v' clip') : ∃ sent plan', v'.sentUp = v.sentUp ++ sent ∧
      Underway v'.objects v'.placeholders c flight (ahead ++ sent) plan' := by
  obtain hs | ⟨id, hs⟩ | hs := requested_cases ht hd hr
  · refine ⟨[], plan, by rw [hs.sentUp, append_nil], ?_⟩
    rw [hs.placeholders, append_nil]
    exact hu.steady hs.slots hs.forwarded
  · obtain ⟨i, hi, hf⟩ := hs.fresh
    obtain ⟨sync, objects, hsync, hsent⟩ := hs.sentUp
    refine ⟨_, plan ++ [some (id, .held)], hsent, ?_⟩
    rw [hs.placeholders]
    have hid : id < 2 ^ 32 := Nat.lt_trans hf.id_lt (by decide)
    exact hu.holds hf hi (.held hid hsync) rfl
  · exact hu.passed ht hd hs

end Underway

end Requests

section Taking

variable {o : Objects} {placeholders : Table ℕ ℕ} {c : Compositor} {flight : List Coming} {sent : Sent} {a : Asked}
  {rest : List Sent} {more : List Asked} {names : Names} {call : Call} {msg : Bytes} {id : ℕ}

lemma call_syncOn (hf : (syncOn id).finish = some msg) (hid : id < 2 ^ 32)
    (hn : names wlDisplay = some .wlDisplay) (hc : names.call msg = some call) :
    call.iface = .wlDisplay ∧ call.request = "sync" ∧ call.created = some (id, "wl_callback") := by
  obtain ⟨h, hp, hobj, hop, _, hb⟩ := MessageWriter.parse_finish hf (show wlDisplaySync < 2 ^ 16 by decide)
  have hobj' : h.object = wlDisplay := hobj
  have hop' : h.opcode = wlDisplaySync := hop
  have hm : (Interface.wlDisplay.table .clientToServer)[h.opcode]? =
      some ⟨"sync", [.newId (some .wlCallback)], 0, 1⟩ := by rw [hop']; rfl
  rw [Names.call_eq hp (hobj' ▸ hn) hm] at hc
  cases hc
  refine ⟨rfl, rfl, ?_⟩
  have hbody : msg.drop headerLen = Words.bytes id := hb
  have hd : decode ⟨"sync", [.newId (some .wlCallback)], 0, 1⟩ (Words.bytes id) =
      .ok { newObject := some (id % 2 ^ 32, "wl_callback") } := by
    have hw : ArgReader.u32 (Words.bytes id) = .ok (id % 2 ^ 32, []) := by
      simp only [Words.bytes, ArgReader.u32, Words.word_bytes]
    simp only [decode, decodeArgs, decodeArg, bind, StateT.bind, Except.bind, pure, Except.pure, StateT.pure, hw]
    rfl
  rw [hbody, hd, Nat.mod_eq_of_lt hid]
  rfl

lemma Names.call_of_le {names' : Names} (hle : ∀ x i, names x = some i → names' x = some i)
    (hc : names.call msg = some call) : names'.call msg = some call := by
  unfold Names.call at hc ⊢
  simp only [bind_eq_bind, bind_eq_some_iff] at hc ⊢
  obtain ⟨h, hp, iface, hi, rest⟩ := hc
  exact ⟨h, hp, iface, hle _ _ hi, rest⟩

namespace Underway

/-- At the compositor a request finds the objects that the proxy's map had when it was passed on: no others, and
these but for those destroyed and the one it makes. -/
lemma knows (h : Underway o placeholders c flight (sent :: rest) (a :: more)) (ho : sent.origin ≠ .placeholder) :
    (∀ x i, c.map x = some i → sent.objects.forwarded x = some i) ∧
    ∀ x i, sent.objects.forwarded x = some i → c.map x = some i ∨ x ∈ c.destroyed ∨ a = some (x, .made i) := by
  obtain ⟨hthere, hhere⟩ := h.agree.1 ho
  refine ⟨fun x i hx => hthere x i ?_, fun x i hx => ?_⟩
  · obtain ⟨j, rfl, -⟩ | ha := a.after_cases x
    · cases h.asked.1.symm.trans hx
    · exact (ha _).trans hx
  · obtain hx | hx := hhere x i hx
    · obtain ⟨j, rfl, ha⟩ | ha := a.after_cases x
      · cases (ha c.map).symm.trans hx
        exact .inr (Or.inr rfl)
      · exact .inl ((ha _).symm.trans hx)
    · exact .inr (.inl hx)

lemma reads (h : Underway o placeholders c flight (sent :: rest) (a :: more))
    (hc : c.map.call sent.bytes = some call) :
    (a = none ∧ call.created = none) ∨ ∃ x u i, a = some (x, u) ∧ x < 2 ^ 32 ∧ call.created = some (x, i.name) ∧
      (u = .held ∧ sent.origin = .placeholder ∧ call.iface = .wlDisplay ∧ call.request = "sync" ∨
        u = .made i ∧ sent.origin ≠ .placeholder) := by
  have hd := h.described
  rw [forall₂_cons] at hd
  cases hd.1 with
  | held hid hf =>
    obtain ⟨hi, hr, hcr⟩ := call_syncOn hf hid h.display hc
    exact .inr ⟨_, _, .wlCallback, rfl, hid, hcr, Or.inl ⟨rfl, rfl, hi, hr⟩⟩
  | request ho hasks _ =>
    have hask := hasks call (Names.call_of_le (h.knows ho).1 hc)
    match a with
    | none => exact .inl ⟨rfl, hask⟩
    | some (_, .held) => exact hask.elim
    | some (x, .made i) => exact .inr ⟨x, .made i, i, rfl, hask.1, hask.2, Or.inr ⟨rfl, ho⟩⟩

end Underway

end Taking

section Events

variable {v v' : View} {clip clip' : Clipboard} {h : Header} {iface : Interface} {m : Message} {version : ℕ}
  {msg : Bytes} {d : Decoded} {c : Compositor} {e : Coming} {flight : List Coming} {ahead : List Sent}
  {plan : List Asked}

def Own (v v' : View) : Prop := ∃ own, v'.sentDown = v.sentDown ++ own ∧ ∀ sent ∈ own, sent.origin = .own

lemma Own.trans {v'' : View} (h : Own v v') (h' : Own v' v'') : Own v v'' := by
  obtain ⟨own, ho, hown⟩ := h
  obtain ⟨own', ho', hown'⟩ := h'
  refine ⟨own ++ own', by rw [ho', ho, append_assoc], fun sent hs => ?_⟩
  exact (mem_append.mp hs).elim (hown sent) (hown' sent)

lemma Own.same (h : v'.sentDown = v.sentDown) : Own v v' := ⟨[], by rw [h, append_nil], by simp⟩

lemma Own.refl (v : View) : Own v v := .same rfl

lemma Own.unhappened (hh : Unhappened h iface m version msg d v clip v' clip') : Own v v' := by
  obtain ⟨r, v1, v2, v3, forward, ha, hf, hq, hc⟩ := hh
  obtain ⟨globals, rfl⟩ := Announced.globals_eq ha
  have h2 : Own v v2 := by
    obtain ⟨rfl, _⟩ | hf := hf
    · exact .same rfl
    · exact (Steady.focused hf).told
  refine .trans h2 (.trans (.same hq.sentDown) ?_)
  obtain hq | ⟨id, name, v4, v5, _, hr, ha, hv⟩ := hc
  · exact .same hq.sentDown
  · obtain rfl | ⟨⟨hdir, _⟩, _⟩ := hv
    · exact .trans (.same (Registers.quiet hr).sentDown) (Steady.advertised ha).told
    · cases hdir

namespace Underway

lemma lookup_counted (p : Table ℕ ℕ) (id n x : ℕ) :
    ((if n - 1 = 0 then p.erase id else p.insert id (n - 1)).lookup x).getD 0 =
      if x = id then n - 1 else (p.lookup x).getD 0 := by
  split
  · rename_i hz
    rw [lookup_erase_if]
    split
    · exact hz.symm
    · rfl
  · rw [lookup_insert_if]
    split <;> rfl

lemma mem_counted (p : Table ℕ ℕ) (id n x : ℕ) (hx : x ≠ id) :
    (if n - 1 = 0 then p.erase id else p.insert id (n - 1)).lookup x = p.lookup x := by
  split
  · rw [lookup_erase_if, if_neg hx]
  · rw [lookup_insert_if, if_neg hx]

lemma happened (hu : Underway v.objects v.placeholders c (e :: flight) ahead plan)
    (hplaced : Placed v.placeholders) (hform : e.Formed) (hmsg : e.bytes = msg)
    (ht : Taken v .serverToClient h iface m version msg) (hd : decode m (msg.drop headerLen) = .ok d)
    (hh : Happened h iface m version msg d v clip v' clip') :
    v'.sentUp = v.sentUp ∧ Underway v'.objects v'.placeholders c flight ahead plan ∧
      (e.tag = .answer ∨ e.tag = .answered → Own v v') := by
  subst hmsg
  obtain ⟨h', hp', _, hform⟩ := hform
  obtain rfl : h = h' := Except.ok.inj (ht.parse.symm.trans hp')
  obtain ⟨r, r', v1, v2, v3, h1, hdel, h3, hv⟩ := happened_cases ht hd hh
  have hv' : v'.objects = v3.objects ∧ v'.placeholders = v3.placeholders ∧ v'.sentUp = v3.sentUp := by
    rw [hv]
    split <;> exact ⟨rfl, rfl, rfl⟩
  have hsent : v2.sentUp = v1.sentUp := by cases hdel <;> rfl
  refine ⟨hv'.2.2.trans (h3.sentUp.trans (hsent.trans h1.sentUp)), ?_⟩
  -- what is done about an answer or an object is done to the tables as they were, the rest changes nothing here
  have hend (hu2 : Underway v2.objects v2.placeholders c flight ahead plan) :
      Underway v'.objects v'.placeholders c flight ahead plan := by
    rw [hv'.1, hv'.2.1, h3.placeholders]
    exact hu2.steady h3.slots h3.forwarded
  have hu1 := h1.placeholders ▸ hu.steady h1.slots h1.forwarded
  have hplaced1 : Placed v1.placeholders := h1.placeholders ▸ hplaced
  cases htag : e.tag with
  | answer =>
    rw [htag] at hform
    obtain ⟨n, hn, _⟩ := hu.head_placed (.inl htag)
    exact absurd (mem_iff_lookup.mpr ⟨n, hform ▸ hn⟩) (ht.unplaced rfl)
  | event =>
    rw [htag] at hform
    refine ⟨hend ?_, fun ho => by rcases ho with ho | ho <;> cases ho⟩
    have hshape := hu1.head.object_head (.inl htag)
    cases hdel with
    | placeholder _ _ ho hop | object _ ho hop => exact absurd ⟨ho, hop⟩ hform.2
    | other =>
      refine hu1.heard rfl hu1.unplaced ?_ fun x _ => ⟨rfl, rfl⟩
      obtain ⟨_, hs⟩ | ⟨he, _⟩ := hshape.2
      · exact hs
      · cases htag.symm.trans he
  | answered =>
    rw [htag] at hform
    obtain ⟨ho, hop, hid⟩ := hform
    obtain ⟨n, hn, hpos⟩ := hu1.head_placed (.inr htag)
    have hshape := (hu1.head.answer_head (.inr htag)).2
    cases hdel with
    | other hne => exact absurd ⟨ho, hop⟩ hne
    | object id _ _ hid' hnone =>
      cases hid.symm.trans hid'
      exact absurd (hn.symm.trans hnone) (by simp)
    | placeholder id n' _ _ hid' hn' =>
      cases hid.symm.trans hid'
      cases hn.symm.trans hn'
      refine ⟨hend (hu1.heard rfl ?_ ?_ fun x hx => ⟨rfl, mem_counted _ _ _ _ hx⟩), fun _ => ?_⟩
      · have hself : wlDisplay ≠ e.id := fun he => hu1.unplaced (he ▸ mem_iff_lookup.mpr ⟨n, hn⟩)
        intro hin
        obtain ⟨k, hk⟩ := mem_iff_lookup.mp hin
        exact hu1.unplaced (mem_iff_lookup.mpr ⟨k, (mem_counted _ _ _ _ hself).symm.trans hk⟩)
      · rw [htag, hn] at hshape
        rw [lookup_counted, if_pos rfl]
        exact hshape
      · rw [hv]
        obtain ⟨own, ho, hown⟩ := h3.told
        exact Own.trans h1.told ⟨own, ho, hown⟩
  | deleted =>
    rw [htag] at hform
    obtain ⟨ho, hop, hid⟩ := hform
    have hnone := hu1.head_unplaced hplaced1 (.inr htag)
    have hshape := hu1.head.object_head (.inr htag)
    refine ⟨hend ?_, fun ho => by rcases ho with ho | ho <;> cases ho⟩
    cases hdel with
    | other hne => exact absurd ⟨ho, hop⟩ hne
    | placeholder id n _ _ hid' hn =>
      cases hid.symm.trans hid'
      exact absurd (hn.symm.trans hnone) (by simp)
    | object id _ _ hid' _ =>
      cases hid.symm.trans hid'
      refine hu1.heard (Objects.length_client_erase _ _) hu1.unplaced ?_ fun x hx => ⟨?_, rfl⟩
      · rw [Objects.forwarded_erase, Function.update_self]
        obtain ⟨he, _⟩ | ⟨_, hs⟩ := hshape.2
        · cases htag.symm.trans he
        · exact hs
      · rw [Objects.forwarded_erase, Function.update_of_ne hx]

lemma skipped (hu : Underway v.objects v.placeholders c (e :: flight) ahead plan)
    (hplaced : Placed v.placeholders) (hform : e.Formed) (hp : Header.parse e.bytes = .ok h)
    (hin : h.object ∈ v.placeholders) :
    e.tag = .answer ∧ Underway v.objects v.placeholders c flight ahead plan := by
  obtain ⟨h', hp', _, hform⟩ := hform
  obtain rfl : h = h' := Except.ok.inj (hp.symm.trans hp')
  have hdisplay (ho : h.object = wlDisplay) : False := hu.unplaced (ho ▸ hin)
  cases htag : e.tag with
  | event =>
    rw [htag] at hform
    obtain ⟨n, hn⟩ := mem_iff_lookup.mp hin
    have hnone := hu.head_unplaced hplaced (.inl htag)
    exact absurd ((hform.1 ▸ hn).symm.trans hnone) (by simp)
  | answered | deleted =>
    rw [htag] at hform
    exact (hdisplay hform.1).elim
  | answer =>
    refine ⟨rfl, hu.heard rfl hu.unplaced ?_ fun x _ => ⟨rfl, rfl⟩⟩
    have hshape := (hu.head.answer_head (.inl htag)).2
    rw [htag] at hshape
    exact hshape

end Underway

end Events

namespace Linked

/-- The messages of both ways fit together, whatever of them has arrived. -/
structure Joined (x : Linked) (plan : List Asked) : Prop where
  stream : x.session.serverIn.pendingIn ++ x.loose = x.flight.flatMap Coming.bytes
  formed : ∀ e ∈ x.flight, e.Formed
  within : x.taken ≤ x.session.core.sentUp.length
  underway : Underway x.session.core.objects x.session.core.placeholders x.compositor x.flight x.ahead plan

namespace Joined

variable {x : Linked} {plan : List Asked} {s' : Session}

lemma head {h : Header} (hj : x.Joined plan) (hp : Header.parse x.session.serverIn.pendingIn = .ok h)
    (hs : h.size ≤ x.session.serverIn.pendingIn.length) : ∃ e, x.flight = e :: x.flight.tail ∧ e.Formed ∧
      e.bytes = x.session.serverIn.pendingIn.take h.size ∧ Header.parse e.bytes = .ok h ∧
      x.session.serverIn.pendingIn.drop h.size ++ x.loose = x.flight.tail.flatMap Coming.bytes := by
  have hge := h.size_ge
  have hstream := hj.stream
  cases hf : x.flight with
  | nil =>
    rw [hf] at hstream
    have := congrArg List.length hstream
    rw [length_append] at this
    unfold headerLen at hge
    simp only [flatMap_nil, length_nil] at this
    omega
  | cons e rest =>
    have hform := hj.formed e (hf ▸ mem_cons_self)
    obtain ⟨h', hp', hs', hrest⟩ := id hform
    have hge' := h'.size_ge
    rw [hf, flatMap_cons] at hstream
    have hparse : Header.parse (x.session.serverIn.pendingIn ++ x.loose) = .ok h := by
      rw [Header.parse_append (by omega), hp]
    have hparse' : Header.parse (e.bytes ++ rest.flatMap Coming.bytes) = .ok h' := by
      rw [Header.parse_append (by omega), hp']
    obtain rfl : h = h' := Except.ok.inj (hparse.symm.trans (hstream ▸ hparse'))
    have htake : e.bytes = x.session.serverIn.pendingIn.take h.size := by
      have := congrArg (List.take h.size) hstream
      rw [take_append_of_le_length hs, hs', take_left] at this
      rw [hs', this]
    refine ⟨e, rfl, hform, htake, hp', ?_⟩
    have := congrArg (List.drop h.size) hstream
    rw [drop_append_of_le_length hs, hs', drop_left] at this
    rw [hs', tail_cons, this]

lemma move {plan' : List Asked} {flight : List Coming} {sent : List Sent} (hj : x.Joined plan)
    (hstream : s'.serverIn.pendingIn ++ x.loose = flight.flatMap Coming.bytes) (hsub : flight ⊆ x.flight)
    (hsent : s'.core.sentUp = x.session.core.sentUp ++ sent)
    (hu : Underway s'.core.objects s'.core.placeholders x.compositor flight (x.ahead ++ sent) plan') :
    ({ x with session := s', flight := flight } : Linked).Joined plan' := by
  have hwithin := hj.within
  refine ⟨hstream, fun e he => hj.formed e (hsub he), ?_, ?_⟩
  · rw [hsent, length_append]
    exact Nat.le_add_right_of_le hwithin
  · have hahead : ({ x with session := s', flight := flight } : Linked).ahead = x.ahead ++ sent := by
      rw [ahead, ahead, hsent, drop_append_of_le_length hwithin]
    rw [hahead]
    exact hu

lemma steady (hj : x.Joined plan) (hin : s'.serverIn = x.session.serverIn)
    (hs : Steady x.session.core.view s'.core.view) : ({ x with session := s' } : Linked).Joined plan := by
  have hup : s'.core.sentUp = x.session.core.sentUp ++ [] := by
    rw [append_nil]
    exact hs.sentUp
  refine hj.move (hin ▸ hj.stream) (List.Subset.refl _) hup ?_
  have hp : s'.core.placeholders = x.session.core.placeholders := hs.placeholders
  rw [hp, append_nil]
  exact hj.underway.steady hs.slots hs.forwarded

end Joined

variable {x : Linked} {plan : List Asked}

lemma Joined.request (hj : x.Joined plan) (k : Kernel) (clip : Clipboard) : wp (Session.pumpOnce k .clientToServer)
      (fun _ y => ∃ plan', ({ x with session := y.1, flight := x.left .clientToServer } : Linked).Joined plan')
      (fun _ _ => True) (x.session, clip) := by
  refine wp_pumpOnce (fun _ => ⟨plan, hj⟩) (fun _ _ => trivial) (fun n hn => ?_) fun h iface m version hn => ?_
  · obtain ⟨_, _, _, _, hdir, _⟩ := next_skip hn
    cases hdir
  · have ht := Session.taken hn
    refine wp_mono (wp_request k h iface m version _ _ ⟨x.session.core, clip⟩) (fun _ w hw => ?_) fun _ _ _ => trivial
    obtain ⟨d, hd, hr⟩ := hw
    obtain ⟨sent, plan', hsent, hu⟩ := hj.underway.requested (v := x.session.core.view) ht hd hr
    exact ⟨plan', hj.move hj.stream (List.Subset.refl _) hsent hu⟩

lemma Joined.event (hj : x.Joined plan) (hplaced : Placed x.session.core.placeholders) (k : Kernel)
    (clip : Clipboard) :
    wp (Session.pumpOnce k .serverToClient)
      (fun _ y => ({ x with session := y.1, flight := x.left .serverToClient } : Linked).Joined plan)
      (fun _ _ => True) (x.session, clip) := by
  refine wp_pumpOnce (fun hn => ?_) (fun _ _ => trivial) (fun n hn => ?_) fun h iface m version hn => ?_
  · rw [show x.left .serverToClient = x.flight by simp only [left, hn]]
    exact hj
  · obtain ⟨h, hp, rfl, hs, _, hin⟩ := next_skip hn
    obtain ⟨e, hf, hform, _, hpe, hrest⟩ := hj.head hp hs
    rw [show x.left .serverToClient = x.flight.tail by simp only [left, hn]]
    have hu := hj.underway
    rw [hf] at hu
    have hsk := (skipped (v := x.session.core.view) hu hplaced hform hpe hin).2
    refine hj.move ?_ (tail_sublist _).subset (append_nil _).symm ?_
    · exact (congrArg (· ++ x.loose) (Inbound.pendingIn_take _ _)).trans hrest
    · rw [append_nil]
      exact hsk
  · have ht := Session.taken hn
    obtain ⟨hp, hs, _⟩ := next_take hn
    obtain ⟨e, hf, hform, hmsg, _, hrest⟩ := hj.head hp hs
    rw [show x.left .serverToClient = x.flight.tail by simp only [left, hn]]
    have hu := hj.underway
    rw [hf] at hu
    refine wp_mono (wp_event k h iface m version _ _ ⟨x.session.core, clip⟩) (fun _ w hw => ?_) fun _ _ _ => trivial
    obtain ⟨d, hd, hh⟩ := hw
    obtain ⟨hsent, hu', _⟩ := happened (v := x.session.core.view) hu hplaced hform hmsg ht hd hh
    refine hj.move ?_ (tail_sublist _).subset (hsent.trans (append_nil _).symm) ?_
    · exact (congrArg (· ++ x.loose) (Inbound.pendingIn_take _ _)).trans hrest
    · rw [append_nil]
      exact hu'

lemma input_steady (i : Session.Input) (hpump : ∀ k dir clip, i ≠ .pump k dir clip)
    (harrive : ∀ bytes fds, i ≠ .arrive .serverToClient bytes fds) (s : Session) :
    wp i.run (fun _ s' => s'.serverIn = s.serverIn ∧ Steady s.core.view s'.core.view) (fun _ _ => True) s := by
  cases i with
  | arrive dir bytes fds =>
    cases dir with
    | clientToServer => exact ⟨rfl, .refl _⟩
    | serverToClient => exact absurd rfl (harrive bytes fds)
  | pump k dir clip => exact absurd rfl (hpump k dir clip)
  | act clip a =>
    simp only [Session.Input.run, wp_zoom]
    exact wp_mono (Core.wp_act clip a s.core) (fun _ _ ha => ⟨trivial, .acted ha⟩) fun _ _ _ => trivial
  | flushClient results | flushServer results =>
    simp only [Session.Input.run, wp_bind, wp_zoom]
    exact wp_of_cases (fun _ _ _ => ⟨rfl, .refl _⟩) fun _ _ _ => trivial

variable {sent : Sent} {rest : List Sent}

lemma ahead_taken (h : x.ahead = sent :: rest) :
    x.session.core.sentUp.drop (x.taken + 1) = rest ∧ x.taken + 1 ≤ x.session.core.sentUp.length := by
  have hdrop : x.session.core.sentUp.drop (x.taken + 1) = rest := by
    rw [← tail_drop, show x.session.core.sentUp.drop x.taken = sent :: rest from h, tail_cons]
  have hlen := congrArg List.length h
  rw [ahead, length_drop, length_cons] at hlen
  exact ⟨hdrop, by omega⟩

variable {x' : Linked}

lemma Joined.take {call : Call} {data : ℕ} (hj : x.Joined plan)
    (hahead : x.ahead = sent :: rest) (hc : x.compositor.map.call sent.bytes = some call)
    (ht : x.take sent call data = some x') : x'.session = x.session ∧ ∃ plan', x'.Joined plan' := by
  have hu := hj.underway
  rw [hahead] at hu
  obtain ⟨hrest, hwithin⟩ := ahead_taken hahead
  cases plan with
  | nil => cases hu.described
  | cons a more =>
    unfold Linked.take at ht
    obtain ⟨rfl, hcr⟩ | ⟨new, u, i, rfl, hlt, hcr, hcases⟩ := hu.reads hc
    · rw [hcr] at ht
      cases ht
      refine ⟨rfl, more, hj.stream, hj.formed, hwithin, ?_⟩
      rw [show ({ x with taken := x.taken + 1 } : Linked).ahead = rest from hrest]
      exact hu.taken
    · simp only [hcr, find_name] at ht
      have hanswer (hsync : call.iface = .wlDisplay ∧ call.request = "sync")
          (huo : u = .held ↔ sent.origin = .placeholder) : x'.session = x.session ∧ ∃ plan', x'.Joined plan' := by
        rw [if_pos hsync] at ht
        cases ht
        refine ⟨rfl, more, ?_, fun e he => ?_, hwithin, ?_⟩
        · rw [flatMap_append, ← hj.stream, append_assoc]
        · exact (mem_append.mp he).elim (hj.formed e) (Coming.formed_answers _ hlt e)
        · have hu' := hu.answered huo data
          rw [← hrest] at hu'
          exact hu'
      obtain ⟨rfl, ho, hi, hr⟩ | ⟨rfl, ho⟩ := hcases
      · exact hanswer ⟨hi, hr⟩ ⟨fun _ => ho, fun _ => rfl⟩
      · by_cases hsync : call.iface = .wlDisplay ∧ call.request = "sync"
        · exact hanswer hsync ⟨(fun he => by cases he), fun he => absurd he ho⟩
        · rw [if_neg hsync] at ht
          cases ht
          have hu' := hu.created hlt
          rw [← hrest] at hu'
          exact ⟨rfl, more, hj.stream, hj.formed, hwithin, hu'⟩

variable {e : Coming}

lemma Joined.send {c : Compositor} (hj : x.Joined plan) (he : e.Formed)
    (hu : Underway x.session.core.objects x.session.core.placeholders c (x.flight ++ [e]) x.ahead plan) :
    (x.send e c).Joined plan := by
  refine ⟨?_, fun e' he' => ?_, hj.within, hu⟩
  · show x.session.serverIn.pendingIn ++ (x.loose ++ e.bytes) = (x.flight ++ [e]).flatMap Coming.bytes
    rw [flatMap_append, ← hj.stream, append_assoc, flatMap_singleton]
  · obtain he' | he' := mem_append.mp he'
    · exact hj.formed e' he'
    · exact mem_singleton.mp he' ▸ he

def Sound (x : Linked) : Prop := x.session.Sound ∧ ∃ plan, x.Joined plan

variable {x : Linked}

lemma Step.sound (h : x.Sound) (hstep : Step x x') : x'.Sound := by
  obtain ⟨hs, plan, hj⟩ := h
  cases hstep with
  | @turn s' more clip' k dir clip hrun =>
    have hsound := wp_ok (sound_pumpOnce k dir clip hs) hrun
    cases dir with
    | clientToServer => exact ⟨hsound, wp_ok (hj.request k clip) hrun⟩
    | serverToClient =>
      have hjoined := wp_ok (hj.event hs.core.placed k clip) hrun
      exact ⟨hsound, plan, hjoined⟩
  | @input s' i hpump harrive hrun =>
    have hsteady := wp_ok (input_steady i hpump harrive x.session) hrun
    exact ⟨wp_ok (i.safe x.session hs) hrun, plan, hj.steady hsteady.1 hsteady.2⟩
  | deliver bytes later fds hloose =>
    refine ⟨⟨hs.core, hs.queues⟩, plan, ?_, hj.formed, hj.within, hj.underway⟩
    show (x.session.serverIn.append bytes fds).pendingIn ++ later = _
    rw [Inbound.pendingIn_append, append_assoc, ← hloose]
    exact hj.stream
  | take data hahead hc ht =>
    obtain ⟨hsame, hj'⟩ := hj.take hahead hc ht
    exact ⟨hsame ▸ hs, hj'⟩
  | event id i msg h hi hp hsize hobj hne =>
    have hformed : Coming.Formed ⟨.event, id, msg⟩ := ⟨h, hp, hsize, hobj, hobj ▸ hne⟩
    exact ⟨hs, plan, hj.send hformed (hj.underway.event hi msg)⟩
  | destroy id i hi hne =>
    have hformed := Coming.formed_deleteId .deleted (.inr rfl) (hj.underway.small id i hi)
    exact ⟨hs, plan, hj.send hformed (hj.underway.destroyed hi hne _)⟩

def opened (zone : String) (holdAwake : Bool) (id : ℕ) : Linked where
  session := .opened zone holdAwake id
  compositor := .start
  taken := 0
  flight := []
  loose := []

lemma forwarded_opened (x : ℕ) :
    (Objects.new (.wlDisplay, 1)).forwarded x = if x = wlDisplay then some .wlDisplay else none := by
  unfold Objects.forwarded
  rw [Objects.get_new]
  by_cases hx : x = 1
  · rw [if_pos hx, if_pos (show x = wlDisplay from hx)]
    rfl
  · rw [if_neg hx, if_neg (show x ≠ wlDisplay from hx)]

lemma sound_opened (zone : String) (holdAwake : Bool) (id : ℕ) : (opened zone holdAwake id).Sound := by
  refine ⟨Session.sound_opened zone holdAwake id, [], rfl, (fun _ h => by cases h), Nat.le_refl _, ?_⟩
  refine ⟨.nil, fun x => ?_, rfl, trivial, (fun _ h => by cases h), rfl, ?_, fun x i hx => ?_⟩
  · show Shape ((Objects.new (.wlDisplay, 1)).forwarded x) (if x = wlDisplay then some .wlDisplay else none) [] [] 0
    rw [forwarded_opened]
    split
    · exact .start_live _
    · exact .start
  · exact AList.notMem_empty _
  · have hx : (if x = wlDisplay then some Interface.wlDisplay else none) = some i := hx
    split at hx
    · rename_i he
      rw [he]
      decide
    · cases hx

/-- The placeholder rules drop the compositor's next message: it is skipped, or it is a delete_id that is counted
off. -/
def Dropped (x : Linked) : Prop :=
  (∃ n, Session.next x.session.core .serverToClient x.session.serverIn = .skip n) ∨
  ∃ h iface m version id, Session.next x.session.core .serverToClient x.session.serverIn = .take h iface m version ∧
    h.object = wlDisplay ∧ h.opcode = wlDisplayDeleteId ∧
    readArgs ArgReader.u32 ((x.session.msg .serverToClient h).drop headerLen) = .ok id ∧
    id ∈ x.session.core.placeholders

/-- The proxy and its compositor agree: the next message there that creates an object names a free id, no more than one
past those used; the next request passed on finds there what the proxy's map had; the client is not passed what answers
a placeholder; and what comes of an object is not taken for such an answer. -/
structure Agrees (x : Linked) : Prop where
  fresh : ∀ sent rest call id name, x.ahead = sent :: rest → x.compositor.map.call sent.bytes = some call →
    call.created = some (id, name) → x.compositor.map id = none ∧ id ≤ x.compositor.slots
  named : ∀ sent rest, x.ahead = sent :: rest → sent.origin ≠ .placeholder →
    (∀ id i, x.compositor.map id = some i → sent.objects.forwarded id = some i) ∧
    ∀ id i, sent.objects.forwarded id = some i → x.compositor.map id = some i ∨ id ∈ x.compositor.destroyed ∨
      ∃ call, Names.call sent.objects.forwarded sent.bytes = some call ∧ call.created = some (id, i.name)
  unanswered : ∀ e rest, x.flight = e :: rest → e.tag = .answer ∨ e.tag = .answered → ∀ k clip,
    wp (Session.pumpOnce k .serverToClient) (fun _ y => Own x.session.core.view y.1.core.view)
      (fun _ y => Own x.session.core.view y.1.core.view) (x.session, clip)
  heard : ∀ e rest, x.flight = e :: rest → e.tag = .event ∨ e.tag = .deleted → ¬ x.Dropped

lemma Joined.fresh {call : Call} {id : ℕ} {name : String} (hj : x.Joined plan)
    (hahead : x.ahead = sent :: rest) (hc : x.compositor.map.call sent.bytes = some call)
    (hcr : call.created = some (id, name)) : x.compositor.map id = none ∧ id ≤ x.compositor.slots := by
  have hu := hj.underway
  rw [hahead] at hu
  cases plan with
  | nil => cases hu.described
  | cons a more =>
    obtain ⟨_, hnone⟩ | ⟨new, u, i, rfl, _, hnew, _⟩ := hu.reads hc
    · cases hnone.symm.trans hcr
    · cases hnew.symm.trans hcr
      exact hu.asked

lemma Joined.named (hj : x.Joined plan) (hahead : x.ahead = sent :: rest)
    (ho : sent.origin ≠ .placeholder) :
    (∀ id i, x.compositor.map id = some i → sent.objects.forwarded id = some i) ∧
    ∀ id i, sent.objects.forwarded id = some i → x.compositor.map id = some i ∨ id ∈ x.compositor.destroyed ∨
      ∃ call, Names.call sent.objects.forwarded sent.bytes = some call ∧ call.created = some (id, i.name) := by
  have hu := hj.underway
  rw [hahead] at hu
  cases plan with
  | nil => cases hu.described
  | cons a more =>
    obtain ⟨hthere, hhere⟩ := hu.knows ho
    refine ⟨hthere, fun id i hi => ?_⟩
    obtain hi | hi | rfl := hhere id i hi
    · exact .inl hi
    · exact .inr (.inl hi)
    · have hd := hu.described
      rw [forall₂_cons] at hd
      cases hd.1 with
      | request _ hasks hsome =>
        obtain ⟨call, hc⟩ := isSome_iff_exists.mp (hsome (by simp))
        exact .inr (Or.inr ⟨call, hc, (hasks call hc).2⟩)

lemma Joined.unanswered {rest : List Coming} (hj : x.Joined plan)
    (hplaced : Placed x.session.core.placeholders) (hf : x.flight = e :: rest)
    (ht : e.tag = .answer ∨ e.tag = .answered) (k : Kernel) (clip : Clipboard) :
    wp (Session.pumpOnce k .serverToClient) (fun _ y => Own x.session.core.view y.1.core.view)
      (fun _ y => Own x.session.core.view y.1.core.view) (x.session, clip) := by
  refine wp_pumpOnce (fun _ => .refl _) (fun _ _ => .refl _) (fun n _ => .refl _) fun h iface m version hn => ?_
  have htaken := Session.taken hn
  obtain ⟨hp, hs, _⟩ := next_take hn
  obtain ⟨e', hf', hform, hmsg, _, _⟩ := hj.head hp hs
  cases hf.symm.trans hf'
  have hu := hj.underway
  rw [hf'] at hu
  refine wp_mono (wp_event k h iface m version _ _ ⟨x.session.core, clip⟩) (fun _ w hw => ?_) fun _ w hw => ?_
  · obtain ⟨d, hd, hh⟩ := hw
    exact (happened (v := x.session.core.view) hu hplaced hform hmsg htaken hd hh).2.2 ht
  · obtain rfl | ⟨d, _, hh⟩ := hw
    · exact .refl _
    · exact .unhappened hh

lemma Joined.heard {rest : List Coming} (hj : x.Joined plan)
    (hplaced : Placed x.session.core.placeholders) (hf : x.flight = e :: rest)
    (ht : e.tag = .event ∨ e.tag = .deleted) : ¬ x.Dropped := by
  have hu := hj.underway
  intro hdrop
  obtain ⟨n, hn⟩ | ⟨h, iface, m, version, id, hn, ho, hop, hid, hin⟩ := hdrop
  · obtain ⟨h, hp, _, hs, _, hin⟩ := next_skip hn
    obtain ⟨e', hf', hform, _, hpe, _⟩ := hj.head hp hs
    cases hf.symm.trans hf'
    rw [hf'] at hu
    have htag := (skipped (v := x.session.core.view) hu hplaced hform hpe hin).1
    rw [htag] at ht
    rcases ht with ht | ht <;> cases ht
  · obtain ⟨hp, hs, _⟩ := next_take hn
    obtain ⟨e', hf', hform, hmsg, hpe, _⟩ := hj.head hp hs
    cases hf.symm.trans hf'
    rw [hf'] at hu
    have hnone := hu.head_unplaced hplaced ht
    obtain ⟨h', hp', _, hkind⟩ := hform
    obtain rfl : h = h' := Except.ok.inj (hpe.symm.trans hp')
    obtain ht | ht := ht
    · rw [ht] at hkind
      exact hkind.2 ⟨ho, hop⟩
    · rw [ht] at hkind
      cases (hmsg ▸ hkind.2.2).symm.trans hid
      exact AList.lookup_eq_none.mp hnone hin

lemma Sound.agrees (h : x.Sound) : x.Agrees := by
  obtain ⟨hs, plan, hj⟩ := h
  exact ⟨fun _ _ _ _ _ ha hc hcr => hj.fresh ha hc hcr, fun _ _ ha ho => hj.named ha ho,
    fun _ _ hf ht => hj.unanswered hs.core.placed hf ht, fun _ _ hf ht => hj.heard hs.core.placed hf ht⟩

/-- In every state that a session and its compositor reach they agree. -/
theorem reaches_agrees (zone : String) (holdAwake : Bool) (id : ℕ) (x : Linked)
    (h : Relation.ReflTransGen Step (opened zone holdAwake id) x) : x.Agrees := by
  refine Sound.agrees ?_
  induction h with
  | refl => exact sound_opened zone holdAwake id
  | tail _ hstep ih => exact hstep.sound ih

/-- One thing after another: a message of the client's arrives and is taken, the compositor takes its next one, or what
it has sent arrives and the next one of that is taken. -/
inductive Move
  | request (msg : MessageWriter)
  | take
  | answer

def play (x : Linked) : Move → Option Linked
  | .request msg =>
    match Session.pumpOnce .willing .clientToServer (x.session.arrive .clientToServer msg.bytes [], {}) with
    | .ok _ (s', _) => some { x with session := s' }
    | .error _ _ => none
  | .take =>
    match x.ahead with
    | [] => none
    | sent :: _ => (x.compositor.map.call sent.bytes).bind (fun call => x.take sent call 0)
  | .answer =>
    let x' := { x with session := x.session.arrive .serverToClient x.loose [], loose := [] }
    match Session.pumpOnce .willing .serverToClient (x'.session, {}) with
    | .ok _ (s', _) => some { x' with session := s', flight := x'.left .serverToClient }
    | .error _ _ => none

lemma reaches_play {m : Move} (h : x.play m = some x') : Relation.ReflTransGen Step x x' := by
  cases m with
  | request msg =>
    simp only [play] at h
    split at h
    · rename_i more s' clip' hrun
      cases h
      have harrive : Step x { x with session := x.session.arrive .clientToServer msg.bytes [] } :=
        .input (.arrive .clientToServer msg.bytes []) nofun nofun rfl
      exact .trans (.single harrive) (.single (.turn .willing .clientToServer {} hrun))
    · cases h
  | take =>
    simp only [play] at h
    split at h
    · cases h
    · rename_i sent rest hahead
      obtain ⟨call, hc, ht⟩ := bind_eq_some_iff.mp h
      exact .single (.take 0 hahead hc ht)
  | answer =>
    simp only [play] at h
    split at h
    · rename_i more s' clip' hrun
      cases h
      have hdeliver : Step x { x with session := x.session.arrive .serverToClient x.loose [], loose := [] } :=
        .deliver x.loose [] [] (append_nil _).symm
      exact .trans (.single hdeliver) (.single (.turn .willing .serverToClient {} hrun))
    · cases h

lemma reaches_plays (ms : List Move) (h : ms.foldlM play x = some x') :
    Relation.ReflTransGen Step x x' := by
  induction ms generalizing x with
  | nil =>
    cases h
    exact .refl
  | cons m ms ih =>
    obtain ⟨x1, h1, h⟩ := bind_eq_some_iff.mp h
    exact .trans (reaches_play h1) (ih h)

/-- A client makes a data source, destroys it and takes its id for a callback, all before the compositor has answered
the place that was held for the source. -/
def reusing : List Move :=
  [.request ((MessageWriter.new 1 1).u32 2),
    .request ((((MessageWriter.new 2 0).u32 Policy.ownGlobalBase).string "wl_data_device_manager").u32 3 |>.u32 3),
    .request ((MessageWriter.new 3 0).u32 4), .request (MessageWriter.new 4 1),
    .request ((MessageWriter.new 1 0).u32 4), .take, .take, .take, .take, .answer, .answer, .answer, .answer]

theorem reaches_agrees_reusing : ∃ x, Relation.ReflTransGen Step (opened "work" false 0) x ∧
    x.flight.map (fun e => (e.tag, e.id)) = [(.event, 4), (.deleted, 4)] ∧ x.Agrees := by
  have hrun : (reusing.foldlM play (opened "work" false 0)).any
      (fun x => decide (x.flight.map (fun e => (e.tag, e.id)) = [(.event, 4), (.deleted, 4)])) = true := by
    decide +kernel
  obtain ⟨x, hx, hp⟩ := any_eq_true _ _ |>.mp hrun
  have hreach := reaches_plays reusing hx
  exact ⟨x, hreach, of_decide_eq_true hp, reaches_agrees "work" false 0 x hreach⟩

end Linked

end Kryptik.Wlproxy
