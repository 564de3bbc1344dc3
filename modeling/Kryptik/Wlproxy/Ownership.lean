import Kryptik.Wlproxy.Paste

namespace Kryptik.Wlproxy

open Lib Prog Tables Wire Protocol View List Option Session

namespace Clipboard

/-- The selection and its number stay, or the number goes up by one, which takes `sets`. -/
def Counts (c c' : Clipboard) (sets : Prop) : Prop :=
  c'.generation = c.generation ∧ c'.selection = c.selection ∨ c'.generation = c.generation + 1 ∧ sets

variable {c c' : Clipboard} {sets : Prop}

lemma Counts.mono {sets' : Prop} (h : c.Counts c' sets) (himp : sets → sets') : c.Counts c' sets' :=
  h.imp_right fun h => ⟨h.1, himp h.2⟩

lemma Counts.same (hgen : c'.generation = c.generation) (hsel : c'.selection = c.selection) :
    c.Counts c' sets := .inl ⟨hgen, hsel⟩

lemma holds_iff {owner source : ℕ} : c.holds owner source = true ↔
    ∃ sel, c.selection = some sel ∧ sel.owner = owner ∧ sel.source = source := by
  simp [holds, Option.any_eq_true]

lemma counts_sourceGone (c : Clipboard) (owner source : ℕ) :
    c.Counts (c.sourceGone owner source) (∃ sel, c.selection = some sel ∧ sel.owner = owner ∧ sel.source = source) := by
  unfold sourceGone
  split
  · rename_i h
    exact .inr ⟨rfl, holds_iff.mp h⟩
  · exact .same rfl rfl

lemma counts_sessionGone (c : Clipboard) (id : ℕ) :
    c.Counts (c.sessionGone id) (∃ sel, c.selection = some sel ∧ sel.owner = id) := by
  unfold sessionGone
  dsimp only
  split
  · rename_i h
    obtain ⟨sel, hsel, howner⟩ := (any_eq_true _ _).mp h
    exact .inr ⟨rfl, sel, hsel, by simpa using howner⟩
  · exact .same rfl rfl

lemma selection_sourceGone {owner source : ℕ} {sel : Selection}
    (h : (c.sourceGone owner source).selection = some sel) :
    c.selection = some sel ∧ ¬ (sel.owner = owner ∧ sel.source = source) := by
  unfold sourceGone at h
  split at h
  · cases h
  · rename_i hholds
    exact ⟨h, fun hsame => hholds (holds_iff.mpr ⟨sel, h, hsame⟩)⟩

lemma focus_sourceGone (c : Clipboard) (owner source : ℕ) : (c.sourceGone owner source).focus = c.focus := by
  unfold sourceGone
  split <;> rfl

lemma selection_sessionGone {id : ℕ} {sel : Selection} (h : (c.sessionGone id).selection = some sel) :
    c.selection = some sel ∧ sel.owner ≠ id := by
  unfold sessionGone at h
  dsimp only at h
  split at h
  · cases h
  · rename_i hany
    refine ⟨h, fun howner => hany ?_⟩
    have hsel : c.selection = some sel := h
    simp [hsel, howner]

lemma focus_sessionGone {id z : ℕ} (h : (c.sessionGone id).focus = some z) : c.focus = some z ∧ z ≠ id := by
  have hfocus : (if c.focus = some id then none else c.focus) = some z := by
    unfold sessionGone at h
    dsimp only at h
    split at h <;> exact h
  split_ifs at hfocus with hid
  refine ⟨hfocus, ?_⟩
  rintro rfl
  exact hid hfocus

lemma sessionsGone (l : List Session) (c : Clipboard) :
    let c' := l.foldl (fun c s => c.sessionGone s.core.id) c
    (∀ sel, c'.selection = some sel → c.selection = some sel ∧ ∀ s ∈ l, s.core.id ≠ sel.owner) ∧
      (∀ z, c'.focus = some z → c.focus = some z ∧ ∀ s ∈ l, s.core.id ≠ z) ∧
      c.Counts c' (∃ sel, c.selection = some sel ∧ ∃ s ∈ l, s.core.id = sel.owner) := by
  induction l generalizing c with
  | nil => exact ⟨fun _ h => ⟨h, nofun⟩, fun _ h => ⟨h, nofun⟩, .same rfl rfl⟩
  | cons s l ih =>
    obtain ⟨hsel, hfocus, hcounts⟩ := ih (c.sessionGone s.core.id)
    refine ⟨fun sel h => ?_, fun z h => ?_, ?_⟩
    · obtain ⟨hfirst, hrest⟩ := hsel sel h
      obtain ⟨hold, hne⟩ := selection_sessionGone hfirst
      exact ⟨hold, forall_mem_cons.mpr ⟨Ne.symm hne, hrest⟩⟩
    · obtain ⟨hfirst, hrest⟩ := hfocus z h
      obtain ⟨hold, hne⟩ := focus_sessionGone hfirst
      exact ⟨hold, forall_mem_cons.mpr ⟨Ne.symm hne, hrest⟩⟩
    · obtain ⟨hgen, hsame⟩ | ⟨hgen, sel, hold, howner⟩ := c.counts_sessionGone s.core.id
      · obtain ⟨hgen', hsame'⟩ | ⟨hgen', sel, hsel, t, ht, hid⟩ := hcounts
        · exact .inl ⟨hgen'.trans hgen, hsame'.trans hsame⟩
        · refine .inr ⟨by rw [foldl_cons, hgen', hgen], sel, hsame ▸ hsel, t, ?_, hid⟩
          exact mem_cons_of_mem s ht
      · have hnone : (c.sessionGone s.core.id).selection = none := by
          cases hgone : (c.sessionGone s.core.id).selection with
          | none => rfl
          | some x =>
            obtain ⟨hx, hne⟩ := selection_sessionGone hgone
            cases hold.symm.trans hx
            exact absurd howner hne
        obtain ⟨hgen', -⟩ | ⟨-, x, hx, -⟩ := hcounts
        · exact .inr ⟨by rw [foldl_cons, hgen', hgen], sel, hold, s, mem_cons_self, howner.symm⟩
        · rw [hnone] at hx
          cases hx

end Clipboard

/-- What sets the selection among the requests `sends` of session `id`: a set_selection, if it has the keyboard, and
the destroy of the selection's source. -/
def Clipboard.SetBy (c : Clipboard) (id : ℕ) (sends : Interface → String → ℕ → Prop) : Prop :=
  (c.focus = some id ∧ ∃ device, sends .wlDataDevice "set_selection" device) ∨
    ∃ sel, c.selection = some sel ∧ sel.owner = id ∧ sends .wlDataSource "destroy" sel.source

/-- What a message of a session leaves of the zone's clipboard, refused or not. -/
structure Minds (id : ℕ) (sends : Interface → String → ℕ → Prop) (c c' : Clipboard) : Prop where
  focus : c'.focus = c.focus ∨ c'.focus = some id ∨ c'.focus = none
  owner : ∀ sel, c'.selection = some sel → c.selection = some sel ∨ sel.owner = id
  counts : c.Counts c' (c.SetBy id sends)

/-- The selection's source is one of the session's, if the selection is the session's. -/
def Backed (v : View) (c : Clipboard) : Prop :=
  ∀ sel, c.selection = some sel → sel.owner = v.id → sel.source ∈ v.sources

variable {v v' : View} {c c' : Clipboard} {iface : Interface} {m : Message} {dir : Dir}

variable {id : ℕ} {sends : Interface → String → ℕ → Prop}

lemma Minds.refl (c : Clipboard) : Minds id sends c c := ⟨.inl rfl, fun _ h => .inl h, .same rfl rfl⟩

lemma minds_sourceGone (c : Clipboard) (id : ℕ) {source : ℕ} (hsends : sends .wlDataSource "destroy" source) :
    Minds id sends c (c.sourceGone id source) := by
  refine ⟨.inl (c.focus_sourceGone id source), fun sel h => .inl (Clipboard.selection_sourceGone h).1, ?_⟩
  refine (c.counts_sourceGone id source).mono fun ⟨sel, hsel, howner, hsource⟩ => ?_
  exact .inr ⟨sel, hsel, howner, hsource ▸ hsends⟩

lemma minds_setSelection (hfocus : c.focus = some id) {device : ℕ}
    (hsends : sends .wlDataDevice "set_selection" device) (sel : Option Selection)
    (hsel : ∀ x, sel = some x → x.owner = id) : Minds id sends c (c.setSelection sel) :=
  ⟨.inl rfl, fun x hx => .inr (hsel x hx), .inr ⟨rfl, .inl ⟨hfocus, device, hsends⟩⟩⟩

lemma minds_served {object : ℕ} {body : Bytes} {fds : List Fd} {request : String}
    (h : Served object body fds v c iface request v' c') (hsends : sends iface request object) :
    Minds v.id sends c c' := by
  cases h with
  | sourceDestroy => exact minds_sourceGone c v.id hsends
  | clear hfocus => exact minds_setSelection hfocus hsends none nofun
  | copy source src hfocus =>
    refine minds_setSelection hfocus hsends _ fun x hx => ?_
    cases hx
    rfl
  | receive => exact ⟨.inl rfl, fun _ h => .inl h, .same rfl rfl⟩
  | _ => exact .refl _

lemma minds_focused (h : Focused iface m v c v' c') : Minds v.id sends c c' := by
  cases h with
  | enter => exact ⟨.inr (.inl rfl), fun _ h => .inl h, .same rfl rfl⟩
  | leave => exact ⟨.inr (.inr rfl), fun _ h => .inl h, .same rfl rfl⟩
  | stay => exact .refl _

section

variable {h : Header} {version : ℕ} {msg body : Bytes} {fds : List Fd} {d : Decoded}

lemma minds_requested (hr : Requested h iface m version msg fds d v c v' c') (hsends : sends iface m.name h.object) :
    Minds v.id sends c c' := by
  cases hr with
  | passed | bound => exact .refl _
  | answered v1 v2 clip1 _ hserved => exact minds_served hserved hsends

lemma minds_unrequested (hr : Unrequested h iface m version msg fds d v c v' c')
    (hsends : sends iface m.name h.object) : Minds v.id sends c c' := by
  cases hr with
  | unserved _ _ hu =>
    obtain rfl | ⟨rfl, hname, rfl⟩ := hu.2
    · exact .refl _
    · exact minds_sourceGone c v.id (hname ▸ hsends)
  | passed | bound => exact .refl _
  | answered v1 _ _ _ hserved => exact minds_served hserved hsends

lemma minds_announced {v1 : View} {r : Verdict} (ha : Announced h iface body v r v1)
    (hf : c' = c ∨ Focused iface m v1 c v' c') : Minds v.id sends c c' := by
  obtain rfl | hf := hf
  · exact .refl _
  · exact (Apart.announced ha).id ▸ minds_focused hf

end

lemma Backed.of_sources (h : Backed v c) (hid : v'.id = v.id) (hsources : v'.sources = v.sources) : Backed v' c := by
  intro sel hsel howner
  rw [hsources]
  exact h sel hsel (howner.trans hid)

lemma Backed.apart (h : Backed v c) (ha : Apart v v') : Backed v' c := h.of_sources ha.id ha.sources

lemma Backed.served {object : ℕ} {body : Bytes} {fds : List Fd} {request : String} (hb : Backed v c)
    (h : Served object body fds v c iface request v' c') : Backed v' c' := by
  cases h with
  | createDataSource id hid | sourceOffer src mime hsrc =>
    intro sel hsel howner
    exact (AList.mem_insert _).mpr (.inr (hb sel hsel howner))
  | sourceDestroy v' htell =>
    obtain ⟨hsel', hid⟩ : v'.sources = v.sources.erase object ∧ v'.id = v.id := by
      obtain ⟨msg, -, rfl⟩ := htell
      exact ⟨rfl, rfl⟩
    intro sel hsel howner
    obtain ⟨hold, hother⟩ := Clipboard.selection_sourceGone hsel
    rw [hid] at howner
    rw [hsel', AList.mem_erase]
    exact ⟨fun hsource => hother ⟨howner, hsource⟩, hb sel hold howner⟩
  | clear =>
    intro sel hsel
    cases hsel
  | copy source src _ _ _ hsrc =>
    intro sel hsel _
    cases hsel
    exact mem_iff_lookup.mpr ⟨src, hsrc⟩
  | cancel _ _ v' _ htell => exact hb.apart (.tells htell)
  | deviceRelease v' htell =>
    obtain ⟨msg, -, rfl⟩ := htell
    exact hb
  | getDataDevice | receive | offerDestroy | nothing => exact hb

lemma Backed.messaged (hb : Backed v c) (h : Messaged v c v' c' dir) : Backed v' c' := by
  cases h with
  | request ht _ _ hr =>
    cases hr with
    | passed out stamp v1 _ _ _ _ hc =>
      have hpass : Apart v1 (v1.passUp out stamp) := by
        cases stamp <;> exact ⟨rfl, rfl, rfl, fun _ _ h => h⟩
      exact (hb.apart (.creates hc)).apart hpass
    | bound _ v1 _ _ _ _ _ hc => exact hb.apart (.creates hc)
    | answered v1 v2 clip1 _ hserved hc => exact (hb.served hserved).apart (.creates hc)
  | event ht _ hh =>
    obtain ⟨r1, r2, r3, r4, v1, v2, v3, v4, ha, -, -, hf, hdel, hc, hv⟩ := hh
    have hb2 : Backed v2 c' := by
      intro sel hsel howner
      rw [(follows_focused hf).selection] at hsel
      exact (hb.apart (.announced ha)).apart (.focused hf) sel hsel howner
    have hb3 : Backed v3 c' := by
      cases hdel with
      | placeholder | object | other => exact hb2
    have hb4 : Backed v4 c' := hb3.apart (.creates hc)
    rw [hv]
    split
    · exact hb4
    · exact hb4

lemma Backed.of_birth (h : Backed v c) (hid : v'.id = v.id) (hbirth : v'.birth = v.birth) : Backed v' c := by
  have hmem : ∀ (w : View) source, source ∈ w.sources ↔ (w.birth source).isSome := by
    intro w source
    rw [mem_iff_lookup, View.birth, isSome_map, isSome_iff_exists]
  intro sel hsel howner
  rw [hmem, hbirth, ← hmem]
  exact h sel hsel (howner.trans hid)

namespace Session

variable {s : Session}

def Says (s : Session) (dir : Dir) (iface : Interface) (request : String) (object : ℕ) : Prop :=
  dir = .clientToServer ∧ ∃ h m version, next s.core dir (s.inbound dir) = .take h iface m version ∧
    m.name = request ∧ h.object = object

lemma minds_pumpOnce (k : Kernel) (dir : Dir) (s : Session) (clip : Clipboard) : wp (pumpOnce k dir)
    (fun _ x => Minds s.core.id (s.Says dir) clip x.2) (fun _ x => Minds s.core.id (s.Says dir) clip x.2) (s, clip) := by
  refine wp_pumpOnce (fun _ => .refl _) (fun _ _ => .refl _) (fun _ _ => .refl _) fun h iface m version hn => ?_
  cases dir with
  | clientToServer =>
    have hsays : s.Says .clientToServer iface m.name h.object := ⟨rfl, h, m, version, hn, rfl, rfl⟩
    refine wp_mono (wp_request k h iface m version _ _ ⟨s.core, clip⟩) (fun _ w hw => ?_) fun _ w hw => ?_
    · obtain ⟨d, -, hr⟩ := hw
      exact minds_requested hr hsays
    · obtain rfl | ⟨d, -, hr⟩ := hw
      · exact .refl _
      · exact minds_unrequested hr hsays
  | serverToClient =>
    refine wp_mono (wp_event k h iface m version _ _ ⟨s.core, clip⟩) (fun _ w hw => ?_) fun _ w hw => ?_
    · obtain ⟨d, -, r1, r2, r3, r4, v1, v2, v3, v4, ha, -, -, hf, -⟩ := hw
      exact minds_announced ha (.inr hf)
    · obtain rfl | ⟨d, -, r, v1, v2, v3, forward, ha, hf, -⟩ := hw
      · exact .refl _
      · exact minds_announced ha (hf.imp_left fun h => h.2)

end Session

namespace Proxy

variable {p p' : Proxy} {i : ℕ} {s s' : Session} {m : Move} {clip : Clipboard}

/-- What a move must be to set the selection: a client's set_selection or destroy, the gesture's, or the end of the
selection's session. -/
def Move.Sets (p : Proxy) : Move → Prop
  | .message i _ dir => ∃ s, p.sessions[i]? = some s ∧ p.clip.SetBy s.core.id (s.Says dir)
  | .answer r _ _ => (∃ mime data, r = .give mime data) ∨ r = .clear p.clip.generation
  | .drop _ => ∃ sel, p.clip.selection = some sel ∧ sel.owner ∈ p.closed
  | _ => False

/-- Who has the selection and the keyboard is there; a session that ended in this turn may be one. -/
structure Owned (p : Proxy) : Prop where
  distinct : p.Distinct
  selection : ∀ sel, p.clip.selection = some sel → sel.owner ≠ own →
    ∃ s ∈ p.sessions, s.core.id = sel.owner ∧ (s.core.id ∉ p.closed → sel.source ∈ s.core.sources)
  focus : ∀ z, p.clip.focus = some z → ∃ s ∈ p.sessions, s.core.id = z

lemma mem_set_of_mem {t u : Session} (h : p.Distinct) (hs : p.sessions[i]? = some s) (ht : t ∈ p.sessions) :
    t = s ∨ t.core.id ≠ s.core.id ∧ t ∈ p.sessions.set i u := by
  obtain ⟨j, hj⟩ := mem_iff_getElem?.mp ht
  by_cases hij : i = j
  · subst hij
    exact .inl (Option.some.inj (hj.symm.trans hs))
  · have hset : (p.sessions.set i u)[j]? = some t := by rwa [getElem?_set_ne hij]
    exact .inr ⟨fun hid => hij (h.place hs hj hid), mem_of_getElem? hset⟩

lemma mem_set_self (hs : p.sessions[i]? = some s) : s' ∈ p.sessions.set i s' :=
  List.mem_of_getElem? (List.getElem?_set_self (List.getElem?_eq_some_iff.mp hs).1)

lemma Owned.backed (h : p.Owned) (hs : p.sessions[i]? = some s) (hopen : s.core.id ∉ p.closed) :
    Backed s.core.view p.clip := by
  intro sel hsel howner
  have hproper := h.distinct.proper.2 s (mem_of_getElem? hs)
  have howner : sel.owner = s.core.id := howner
  obtain ⟨t, ht, hid, hsource⟩ := h.selection sel hsel (by omega)
  obtain rfl | ⟨hne, -⟩ := mem_set_of_mem (u := s) h.distinct hs ht
  · exact hsource hopen
  · exact absurd (hid.trans howner) hne

lemma Owned.put {u : Session} {R : Interface → String → ℕ → Prop} (h : p.Owned)
    (hs : p.sessions[i]? = some s) (hid : u.core.id = s.core.id) (hminds : Minds s.core.id R p.clip clip)
    (hdistinct : p'.Distinct) (hsessions : p'.sessions = p.sessions.set i u) (hclip : p'.clip = clip)
    (hclosed : ∀ n, n ∉ p'.closed → n ∉ p.closed)
    (hbacked : u.core.id ∉ p'.closed → Backed u.core.view clip) : p'.Owned := by
  have hstays : ∀ t ∈ p.sessions, ∃ t' ∈ p'.sessions, t'.core.id = t.core.id ∧
      (t' = u ∨ t' = t ∧ t.core.id ≠ s.core.id) := by
    intro t ht
    rw [hsessions]
    obtain rfl | ⟨hne, ht'⟩ := mem_set_of_mem (u := u) h.distinct hs ht
    · exact ⟨u, mem_set_self hs, hid, .inl rfl⟩
    · exact ⟨t, ht', rfl, .inr ⟨rfl, hne⟩⟩
  refine ⟨hdistinct, fun sel hsel hown => ?_, fun z hz => ?_⟩
  · rw [hclip] at hsel
    obtain hold | howner := hminds.owner sel hsel
    · obtain ⟨t, ht, htid, hsource⟩ := h.selection sel hold hown
      obtain ⟨t', ht', hid', hcases⟩ := hstays t ht
      refine ⟨t', ht', hid'.trans htid, fun hopen => ?_⟩
      obtain rfl | ⟨rfl, -⟩ := hcases
      · exact hbacked hopen sel hsel (hid'.trans htid).symm
      · exact hsource (hclosed _ hopen)
    · refine ⟨u, hsessions ▸ mem_set_self hs, hid.trans howner.symm, fun hopen => ?_⟩
      exact hbacked hopen sel hsel (howner.trans hid.symm)
  · rw [hclip] at hz
    obtain hsame | hsame | hsame := hminds.focus
    · obtain ⟨t, ht, htid⟩ := h.focus z (hsame ▸ hz)
      obtain ⟨t', ht', hid', -⟩ := hstays t ht
      exact ⟨t', ht', hid'.trans htid⟩
    · obtain rfl : s.core.id = z := Option.some.inj (hsame.symm.trans hz)
      exact ⟨u, hsessions ▸ mem_set_self hs, hid⟩
    · rw [hsame] at hz
      cases hz

lemma counts_answer (r : Control.Request) (newPipe : Option Fd) (now : ℕ) (c : Clipboard) :
    c.Counts (Control.answer r newPipe now c).2 ((∃ mime data, r = .give mime data) ∨ r = .clear c.generation) ∧
      (Control.answer r newPipe now c).2.focus = c.focus ∧
      ∀ sel, (Control.answer r newPipe now c).2.selection = some sel → c.selection = some sel ∨ sel.owner = own := by
  cases r with
  | take =>
    have hsame : (Control.answerTake newPipe now c).2.selection = c.selection ∧
        (Control.answerTake newPipe now c).2.generation = c.generation ∧
        (Control.answerTake newPipe now c).2.focus = c.focus := by
      unfold Control.answerTake
      repeat' split
      all_goals exact ⟨rfl, rfl, rfl⟩
    exact ⟨.same hsame.2.1 hsame.1, hsame.2.2, fun sel hsel => .inl (hsame.1 ▸ hsel)⟩
  | give mime data =>
    refine ⟨.inr ⟨rfl, .inl ⟨mime, data, rfl⟩⟩, rfl, fun sel hsel => .inr ?_⟩
    cases hsel
    rfl
  | clear g =>
    unfold Control.answer
    dsimp only
    split
    · rename_i hg
      exact ⟨.inr ⟨rfl, .inr (by rw [hg])⟩, rfl, nofun⟩
    · exact ⟨.same rfl rfl, rfl, fun sel hsel => .inl hsel⟩

lemma dropClosed_clip (p : Proxy) (now : ℕ) : (p.dropClosed now).clip =
    (p.sessions.filter (fun s => s.core.id ∈ p.closed)).reverse.foldl (fun c s => c.sessionGone s.core.id) p.clip :=
  (foldl_drop now _ p).2.2.2.2

lemma Step.counts (h : Step p m p') : p.clip.Counts p'.clip (m.Sets p) := by
  cases h with
  | @message i s s' k dir more clip hs hopen hpump =>
    have hminds := wp_ok (minds_pumpOnce k dir s p.clip) hpump
    exact hminds.counts.mono fun h => ⟨s, hs, h⟩
  | @refused i s s' k dir e clip ended hs hopen hpump =>
    have hminds := wp_error (minds_pumpOnce k dir s p.clip) hpump
    exact hminds.counts.mono fun h => ⟨s, hs, h⟩
  | answer r newPipe now => exact (counts_answer r newPipe now p.clip).1
  | deliver ha hd =>
    have hclip := (delivered hd).ids.2.2
    refine .same ?_ ?_
    · rw [hclip]
    · rw [hclip]
  | drop now =>
    have hcounts := (Clipboard.sessionsGone (p.sessions.filter (fun s => s.core.id ∈ p.closed)).reverse p.clip).2.2
    rw [← p.dropClosed_clip now] at hcounts
    refine hcounts.mono fun ⟨sel, hsel, s, hs, hid⟩ => ⟨sel, hsel, ?_⟩
    have hclosed := (mem_filter.mp (mem_reverse.mp hs)).2
    rw [← hid]
    simpa using hclosed
  | sockets | hangUp | write | accept | other => exact .same rfl rfl

lemma Owned.same (h : p.Owned) (hids : p'.Distinct) (hsessions : p'.sessions = p.sessions)
    (hclosed : p'.closed = p.closed) (hsel : p'.clip.selection = p.clip.selection)
    (hfocus : p'.clip.focus = p.clip.focus) : p'.Owned := by
  refine ⟨hids, ?_, ?_⟩
  · rw [hsel, hsessions, hclosed]
    exact h.selection
  · rw [hfocus, hsessions]
    exact h.focus

lemma Owned.dropClosed (h : p.Owned) (now : ℕ) : (p.dropClosed now).Owned := by
  obtain ⟨hsel, hfocus, -⟩ :=
    Clipboard.sessionsGone (p.sessions.filter (fun s => s.core.id ∈ p.closed)).reverse p.clip
  rw [← p.dropClosed_clip now] at hsel hfocus
  have hgone : ∀ n, (∀ s ∈ (p.sessions.filter (fun s => s.core.id ∈ p.closed)).reverse, s.core.id ≠ n) →
      ∀ s ∈ p.sessions, s.core.id = n → s ∈ (p.dropClosed now).sessions ∧ s.core.id ∉ p.closed := by
    intro n hn s hs hid
    have hopen : s.core.id ∉ p.closed := by
      intro hclosed
      exact hn s (mem_reverse.mpr (mem_filter.mpr ⟨hs, by simpa using hclosed⟩)) hid
    exact ⟨mem_filter.mpr ⟨hs, by simpa using hopen⟩, hopen⟩
  refine ⟨(Step.drop now).distinct h.distinct, fun sel hs hown => ?_, fun z hz => ?_⟩
  · obtain ⟨hold, hne⟩ := hsel sel hs
    obtain ⟨s, hmem, hid, hsource⟩ := h.selection sel hold hown
    obtain ⟨hstay, hopen⟩ := hgone sel.owner hne s hmem hid
    exact ⟨s, hstay, hid, fun _ => hsource hopen⟩
  · obtain ⟨hold, hne⟩ := hfocus z hz
    obtain ⟨s, hmem, hid⟩ := h.focus z hold
    exact ⟨s, (hgone z hne s hmem hid).1, hid⟩

lemma Owned.step (h : p.Owned) (hstep : Step p m p') : p'.Owned := by
  have hdistinct := hstep.distinct h.distinct
  cases hstep with
  | @sockets i s s' hs hopen hv =>
    have hid : s'.core.id = s.core.id := congrArg View.id hv
    refine h.put (R := fun _ _ _ => False) hs hid (.refl _) hdistinct rfl rfl (fun _ hn => hn) fun _ => ?_
    rw [hv]
    exact h.backed hs hopen
  | @message i s s' k dir more clip hs hopen hpump =>
    have hid := (wp_ok (framed_pumpOnce k dir s p.clip) hpump).1
    have hbacked := h.backed hs hopen
    obtain ⟨hv, hclip⟩ | hm := wp_ok (messaged_pumpOnce k dir s p.clip) hpump
    · subst hclip
      refine h.put (R := fun _ _ _ => False) hs hid (.refl _) hdistinct rfl rfl (fun _ hn => hn) fun _ => ?_
      exact (congrArg (Backed · p.clip) hv).mpr hbacked
    · have hminds := wp_ok (minds_pumpOnce k dir s p.clip) hpump
      exact h.put hs hid hminds hdistinct rfl rfl (fun _ hn => hn) fun _ => hbacked.messaged hm
  | @refused i s s' k dir e clip ended hs hopen hpump =>
    have hframed := wp_error (framed_pumpOnce k dir s p.clip) hpump
    have hid : s'.core.id = s.core.id := hframed.1
    have hminds := wp_error (minds_pumpOnce k dir s p.clip) hpump
    refine h.put (u := s'.refuse) hs hid hminds hdistinct rfl rfl
      (fun _ hn hin => hn (mem_append_left _ hin)) fun hopen' => absurd ?_ hopen'
    exact mem_append_right _ (mem_singleton_self _)
  | @hangUp i s s' ended hs hopen hv =>
    have hid : s'.core.id = s.core.id := congrArg View.id hv
    refine h.put (R := fun _ _ _ => False) (u := s'.refuse) hs hid (.refl _) hdistinct rfl rfl
      (fun _ hn hin => hn (mem_append_left _ hin)) fun hopen' => absurd ?_ hopen'
    exact mem_append_right _ (mem_singleton_self _)
  | answer r newPipe now =>
    obtain ⟨-, hfocus, hsel⟩ := counts_answer r newPipe now p.clip
    refine ⟨hdistinct, fun sel hs hown => ?_, fun z hz => h.focus z (hfocus ▸ hz)⟩
    obtain hold | ho := hsel sel hs
    · exact h.selection sel hold hown
    · exact absurd ho hown
  | @deliver now a rest p' ha hd =>
    have hq : Owned { p with clip.actions := rest } := h.same (h.distinct.of_ids rfl rfl) rfl rfl rfl rfl
    cases delivered hd with
    | paste =>
      rcases paste_cases now a { p with clip.actions := rest } with hp | ⟨_, _, _, _, _, _, _, _, _, _, hp⟩
      · rw [hp]
        exact hq
      · rw [hp]
        exact hq.same (hq.distinct.of_ids rfl rfl) rfl rfl rfl rfl
    | nothing => exact hq
    | @act j t core hs hid hopen hact =>
      have hopen' : t.core.id ∉ p.closed := hid ▸ hopen
      have hid' := Core.id_act hact
      refine hq.put (R := fun _ _ _ => False) (u := { t with core := core }) hs hid' (.refl _) hdistinct rfl rfl
        (fun _ hn => hn) fun _ => ?_
      have hacted := wp_ok (Core.wp_act _ a t.core) hact
      obtain ⟨-, hbirth, -⟩ := acted_sources hacted
      exact (hq.backed hs hopen').of_birth hid' hbirth
    | @close j t core e ended hs hid hopen hact =>
      have hid' := (Core.framed_act hact).1
      refine hq.put (R := fun _ _ _ => False) (u := { t with core := core }.refuse) hs hid' (.refl _) hdistinct rfl rfl
        (fun _ hn hin => hn (mem_append_left _ hin)) fun hopen' => absurd ?_ hopen'
      exact mem_append_right _ (mem_singleton_self _)
  | drop now => exact h.dropClosed now
  | write | other => exact h.same hdistinct rfl rfl rfl rfl
  | accept =>
    refine ⟨hdistinct, fun sel hs hown => ?_, fun z hz => ?_⟩
    · obtain ⟨s, hmem, hid, hsource⟩ := h.selection sel hs hown
      exact ⟨s, mem_append_left _ hmem, hid, hsource⟩
    · obtain ⟨s, hmem, hid⟩ := h.focus z hz
      exact ⟨s, mem_append_left _ hmem, hid⟩

lemma start_owned (zone : String) (holdAwake : Bool) (maxClients : ℕ) : (start zone holdAwake maxClients).Owned :=
  ⟨start_distinct _ _ _, nofun, nofun⟩

lemma Owned.reaches (h : p.Owned) (hreach : Reaches p p') : p'.Owned := by
  induction hreach with
  | refl => exact h
  | tail _ hstep ih =>
    obtain ⟨m, hstep⟩ := hstep
    exact ih.step hstep

lemma deliver_actions_nil (now : ℕ) (a : Action) : Ensures (fun q => q.clip.actions = []) (fun _ _ => True)
    (deliver now a) := by
  intro q hq
  refine wp_of_cases (fun _ q' hok => ?_) fun _ _ _ => trivial
  rw [(delivered hok).ids.2.2]
  exact hq

lemma settle_actions (now n : ℕ) (q : Proxy) :
    wp (settle now n) (fun _ q' => q'.clip.actions = []) (fun _ _ => True) q := by
  induction n generalizing q with
  | zero => trivial
  | succ n ih =>
    unfold settle
    simp only [wp_bind, wp_get, wp_set]
    have hall : Ensures (fun q => q.clip.actions = []) (fun _ _ => True) (q.clip.actions.forM (deliver now)) :=
      .forM _ fun a _ => deliver_actions_nil now a
    refine wp_mono (hall _ rfl) (fun _ q1 h1 => ?_) fun _ _ _ => trivial
    refine wp_ite (fun _ => h1) fun _ => ?_
    exact ih _

lemma turn_actions (io : TurnIo) (q : Proxy) :
    wp (turn io) (fun _ q' => q'.clip.actions = []) (fun _ _ => True) q := by
  have hany {α : Type} (x : ProxyM α) (q : Proxy) : wp x (fun _ _ => True) (fun _ _ => True) q :=
    wp_of_cases (fun _ _ _ => trivial) fun _ _ _ => trivial
  unfold turn
  simp only [wp_bind, wp_get, wp_modify]
  refine wp_mono (hany _ _) (fun _ q1 _ => ?_) fun _ _ _ => trivial
  refine wp_mono (hany _ _) (fun _ q2 _ => ?_) fun _ _ _ => trivial
  refine wp_mono (settle_actions _ _ _) (fun _ q3 h3 => ?_) fun _ _ _ => trivial
  unfold accept
  split
  · exact h3
  · exact h3

lemma turns_actions (zone : String) (holdAwake : Bool) (maxClients : ℕ) (turns : List TurnIo)
    (h : turns.forM turn (start zone holdAwake maxClients) = .ok () p) : p.clip.actions = [] := by
  have hactions := wp_ok (wp_forM (I := fun q => q.clip.actions = []) turns (fun io _ q _ => turn_actions io q) rfl) h
  exact hactions

/-- After every turn the selection belongs to the gesture or to a session that is there and has
the source, the keyboard to a session that is there, and nothing waits for anyone. Within a turn
the generation goes up by one where the selection is set by who may set it or its owner lets it
go, set to what it was or not; elsewhere generation and selection stay. -/
theorem clipboard_owned (zone : String) (holdAwake : Bool) (maxClients : ℕ) (turns : List TurnIo) (p : Proxy)
    (h : turns.forM turn (start zone holdAwake maxClients) = .ok () p) :
    (∀ sel, p.clip.selection = some sel → sel.owner ≠ own →
      ∃ s ∈ p.sessions, s.core.id = sel.owner ∧ sel.source ∈ s.core.sources) ∧
    (∀ z, p.clip.focus = some z → ∃ s ∈ p.sessions, s.core.id = z) ∧ p.clip.actions = [] ∧
    ∀ io p', turn io p = .ok () p' → Relation.ReflTransGen (fun q q' => ∃ m, Step q m q' ∧ m.From io q q' ∧
      q.clip.Counts q'.clip (m.Sets q)) p p' := by
  obtain ⟨hreach, hclosed⟩ := turns_reach zone holdAwake maxClients turns h
  have howned := (start_owned zone holdAwake maxClients).reaches hreach
  have hactions := turns_actions zone holdAwake maxClients turns h
  refine ⟨fun sel hsel hown => ?_, howned.focus, hactions, fun io p' hturn => ?_⟩
  · obtain ⟨s, hs, hid, hsource⟩ := howned.selection sel hsel hown
    exact ⟨s, hs, hid, hsource (by simp [hclosed])⟩
  · have hturned := wp_ok (turn_reaches io howned.distinct hclosed) hturn
    refine Relation.ReflTransGen.mono (fun q q' hstep => ?_) p p' hturned.1
    obtain ⟨m, hm, hfrom⟩ := hstep
    exact ⟨m, hm, hfrom, hm.counts⟩

def copyTurns : List TurnIo :=
  [{ connects := true, now := 0, later := 0 }, { sessions := fun _ => hearsOfSeat, now := 0, later := 0 },
    { sessions := fun _ => { client := hear bindsSeat [], server := hear [keyboardEnter] [] }
      now := 0, later := 0 },
    { sessions := fun _ => copiesText, now := 0, later := 0 }]

theorem clipboard_owned_copy : ∃ p, copyTurns.forM turn (start "work" false 16) = .ok () p ∧
    ∃ sel, p.clip.selection = some sel ∧ ∃ s ∈ p.sessions, s.core.id = sel.owner ∧ sel.source ∈ s.core.sources := by
  obtain ⟨p, hrun, hp⟩ := exists_outcome copyTurns (fun p => p.clip.selection.any (fun sel => sel.owner ≠ own))
    (by decide +kernel)
  obtain ⟨sel, hsel, hown⟩ := any_eq_true _ _ |>.mp hp
  exact ⟨p, hrun, sel, hsel, (clipboard_owned "work" false 16 copyTurns p hrun).1 sel hsel (by simpa using hown)⟩

/-- With nothing copied, the client with the keyboard clears the selection. -/
def clearTurns : List TurnIo :=
  copyTurns.take 3 ++ [{ sessions := fun _ => { client := hear [((MessageWriter.new 6 1).u32 0).u32 1] [] }
                         now := 0, later := 0 }]

/-- The generation goes up and the selection is what it was. -/
theorem clearing_counts : ∃ p p', (clearTurns.take 3).forM turn (start "work" false 16) = .ok () p ∧
    clearTurns.forM turn (start "work" false 16) = .ok () p' ∧
    p'.clip.selection = p.clip.selection ∧ p'.clip.generation = p.clip.generation + 1 := by
  obtain ⟨p, hrun, hp⟩ := exists_outcome (clearTurns.take 3)
    (fun p => decide (p.clip.selection = none ∧ p.clip.generation = 0)) (by decide +kernel)
  obtain ⟨p', hrun', hp'⟩ := exists_outcome clearTurns
    (fun p => decide (p.clip.selection = none ∧ p.clip.generation = 1)) (by decide +kernel)
  obtain ⟨hsel, hgen⟩ := of_decide_eq_true hp
  obtain ⟨hsel', hgen'⟩ := of_decide_eq_true hp'
  exact ⟨p, p', hrun, hrun', by rw [hsel, hsel'], by rw [hgen, hgen']⟩

end Proxy

end Kryptik.Wlproxy
