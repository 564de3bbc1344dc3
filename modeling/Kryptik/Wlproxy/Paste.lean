import Kryptik.Wlproxy.Copies

namespace Kryptik.Wlproxy

open Lib Prog Tables Wire Protocol View List

namespace Clipboard

def Awaits (c : Clipboard) (owner source : ℕ) : Prop :=
  ∃ a ∈ c.actions, ∃ mime fd g, a = .send owner source mime fd (some g)

/-- A paste is owed the selection it was asked of: the source is no other one by now, and the
proxy has no other data. `has` says what sources there are. -/
structure Promise (has : ℕ → (ℕ → Option ℕ) → Prop) (c : Clipboard) (o src : ℕ) (type : String)
    (sel : Selection) : Prop where
  owner : sel.owner = o
  source : sel.source = src
  mime : type ∈ sel.mimes
  birth : ∀ b n, has o b → b src = some n → n = sel.birth
  data : o = own → ∀ now data, c.selection = some now → now.data = some data → sel.data = some data

/-- The clipboard of a zone with these sources: the selection is one of them, and each paste
can be made good. -/
structure Kept (has : ℕ → (ℕ → Option ℕ) → Prop) (c : Clipboard) : Prop where
  dated : c.Dated
  held : ∀ sel, c.selection = some sel → ∀ b, has sel.owner b → b sel.source = some sel.birth
  pending : ∀ o source mime fd g, .send o source mime fd (some g) ∈ c.actions →
    ∃ sel, c.past[g]? = some (some sel) ∧ Promise has c o source mime sel

variable {has has' : ℕ → (ℕ → Option ℕ) → Prop} {c c' : Clipboard} {sel : Option Selection}

lemma getElem?_extend {α : Type} {l l' : List α} {g : ℕ} {x : α} (hl : l <+: l') (h : l[g]? = some x) :
    l'[g]? = some x := by
  obtain ⟨more, rfl⟩ := hl
  rw [List.getElem?_append_left (List.getElem?_eq_some_iff.mp h).1, h]

/-- The same clipboard over other sources: those of the selection and of the pastes that wait are as they were. -/
lemma Kept.over (h : c.Kept has)
    (hheld : ∀ sel, c.selection = some sel → ∀ b, has' sel.owner b → b sel.source = some sel.birth)
    (hpending : ∀ o source, c.Awaits o source → ∀ b n, has' o b → b source = some n →
      ∃ b', has o b' ∧ b' source = some n) : c.Kept has' := by
  refine ⟨h.dated, hheld, fun o source mime fd g hin => ?_⟩
  obtain ⟨sel, hpast, hp⟩ := h.pending o source mime fd g hin
  refine ⟨sel, hpast, hp.owner, hp.source, hp.mime, fun b n hb hn => ?_, hp.data⟩
  obtain ⟨b', hb', hn'⟩ := hpending o source ⟨_, hin, mime, fd, g, rfl⟩ b n hb hn
  exact hp.birth b' n hb' hn'

lemma Kept.mono (h : c.Kept has) (hsub : ∀ o b, has' o b → has o b) : c.Kept has' :=
  h.over (fun sel hsel b hb => h.held sel hsel b (hsub _ _ hb)) (fun _ _ _ b _ hb hn => ⟨b, hsub _ _ hb, hn⟩)

lemma Kept.follows (h : c.Kept has) (hf : c.Follows c' sel)
    (hheld : ∀ x, sel = some x → ∀ b, has x.owner b → b x.source = some x.birth)
    (hdata : ∀ x data, sel = some x → x.data = some data →
      c.selection = sel ∨ ∀ source, ¬ c.Awaits own source) : c'.Kept has := by
  refine ⟨hf.dated h.dated, fun x hx => hheld x (hf.selection.symm.trans hx), fun o source mime fd g hin => ?_⟩
  have hold := hf.sends o source mime fd g hin
  obtain ⟨was, hpast, hp⟩ := h.pending o source mime fd g hold
  refine ⟨was, getElem?_extend hf.past hpast, hp.owner, hp.source, hp.mime, hp.birth, ?_⟩
  rintro rfl now data hnow hhas
  have hsel : sel = some now := hf.selection.symm.trans hnow
  rcases hdata now data hsel hhas with hsame | hnone
  · exact hp.data rfl now data (hsame.trans hsel) hhas
  · exact absurd ⟨_, hold, mime, fd, g, rfl⟩ (hnone source)

/-- The selection stays or goes. -/
lemma Kept.goes (h : c.Kept has) (hf : c.Follows c' sel) (hsel : sel = c.selection ∨ sel = none) : c'.Kept has := by
  rcases hsel with rfl | rfl
  · exact h.follows hf h.held (fun _ _ _ _ => .inl rfl)
  · exact h.follows hf nofun nofun

lemma Kept.ask {sel : Selection} {mime : String} {fd : Fd} (h : c.Kept has)
    (hsel : c.selection = some sel) (hmime : mime ∈ sel.mimes) : (c.ask sel mime fd).Kept has := by
  refine ⟨⟨h.dated.length, h.dated.now⟩, h.held, fun o source mime' fd' g hin => ?_⟩
  rcases mem_append.mp hin with hin | hin
  · obtain ⟨was, hpast, hp⟩ := h.pending o source mime' fd' g hin
    exact ⟨was, hpast, hp.owner, hp.source, hp.mime, hp.birth, hp.data⟩
  · obtain ⟨rfl, rfl, rfl, rfl, hg⟩ := Action.send.inj (mem_singleton.mp hin)
    obtain rfl := Option.some.inj hg
    refine ⟨sel, h.dated.now.trans (congrArg some hsel), rfl, rfl, hmime, fun b n hb hn => ?_, ?_⟩
    · exact Option.some.inj (hn.symm.trans (h.held sel hsel b hb))
    · rintro - now data hnow hdata
      obtain rfl := Option.some.inj (hsel.symm.trans hnow)
      exact hdata

section Message

variable {v v' : View}

lemma Kept.change (h : c.Kept has) (hhas : has v.id v.birth)
    (hhas' : ∀ o b, has' o b → o = v.id ∧ b = v'.birth ∨ o ≠ v.id ∧ has o b)
    (hheld : ∀ sel, c.selection = some sel → sel.owner = v.id → v'.birth sel.source = v.birth sel.source)
    (hpending : ∀ source, c.Awaits v.id source → ∀ n, v'.birth source = some n → v.birth source = some n) :
    c.Kept has' := by
  refine h.over (fun sel hsel b hb => ?_) (fun o source hawaits b n hb hn => ?_)
  · rcases hhas' _ _ hb with ⟨ho, rfl⟩ | ⟨-, hb⟩
    · exact (hheld sel hsel ho).trans (h.held sel hsel v.birth (ho ▸ hhas))
    · exact h.held sel hsel b hb
  · rcases hhas' _ _ hb with ⟨rfl, rfl⟩ | ⟨-, hb⟩
    · exact ⟨v.birth, hhas, hpending source hawaits n hn⟩
    · exact ⟨b, hb, hn⟩

variable {hd : Header} {iface : Interface} {m : Message} {msg : Bytes}

lemma Kept.message (h : c.Kept has) (hhas : has v.id v.birth)
    (hhas' : ∀ o b, has' o b → o = v.id ∧ b = v'.birth ∨ o ≠ v.id ∧ has o b)
    (hcreate : iface = .wlDataDeviceManager → m.name = "create_data_source" → ∀ id,
      readArgs ArgReader.u32 (msg.drop headerLen) = .ok id → ¬ c.Awaits v.id id)
    (hc : Copies hd iface m msg v c v' c') : c'.Kept has' := by
  have hsame (hb : v'.birth = v.birth) : c.Kept has' :=
    h.change hhas hhas' (fun sel _ _ => by rw [hb]) (fun _ _ _ hn => hb ▸ hn)
  cases hc with
  | same hb hf => exact (hsame hb).goes hf (.inl rfl)
  | create id hi hn hid hnone hother hclip =>
    subst hclip
    refine h.change hhas hhas' (fun sel hsel howner => hother _ ?_) (fun source hawaits n hbirth => ?_)
    · rintro rfl
      have hheld := h.held sel hsel v.birth (howner ▸ hhas)
      rw [hnone] at hheld
      cases hheld
    · rw [hother source] at hbirth
      · exact hbirth
      · rintro rfl
        exact hcreate hi hn source hid hawaits
  | destroy id hnone hother hclip =>
    have hf := follows_sourceGone c v.id id
    rw [← hclip] at hf
    have hkept : c'.Kept has := h.goes hf (by split <;> simp)
    refine hkept.change hhas hhas' (fun sel hsel howner => hother _ ?_) (fun source _ n hbirth => ?_)
    · rintro rfl
      have hsel' := hf.selection.symm.trans hsel
      split at hsel'
      · cases hsel'
      · rename_i hholds
        exact hholds (by simp [holds, hsel', howner])
    · rw [hother source] at hbirth
      · exact hbirth
      · rintro rfl
        rw [hnone] at hbirth
        cases hbirth
  | copy source src hb hsrc hf =>
    refine (hsame hb).follows hf (fun x hx b hhas => ?_) (fun x data hx hdata => ?_)
    · obtain rfl := Option.some.inj hx
      rcases hhas' _ _ hhas with ⟨-, rfl⟩ | ⟨hne, -⟩
      · rw [hb, View.birth, hsrc]
        rfl
      · exact absurd rfl hne
    · obtain rfl := Option.some.inj hx
      cases hdata
  | clear hb hf => exact (hsame hb).goes hf (.inr rfl)
  | asked sel mime fd hb hsel hmime hclip =>
    exact hclip ▸ (hsame hb).ask hsel hmime

lemma Kept.heard {id : ℕ} (h : c.Kept has) (hhas' : ∀ o b, has' o b → o ≠ id ∧ has o b)
    (hc : Heard id c c') : c'.Kept has' := by
  have hkept : c.Kept has' := h.mono (fun o b hb => (hhas' o b hb).2)
  cases hc with
  | follows sel hf hsel =>
    obtain hsame | hnone | ⟨y, rfl, howner, hno⟩ := hsel
    · exact hkept.goes hf (.inl hsame)
    · exact hkept.goes hf (.inr hnone)
    · refine hkept.follows hf (fun x hx b hb => ?_) (fun x data hx hdata => ?_)
      · obtain rfl := Option.some.inj hx
        exact absurd howner (hhas' _ _ hb).1
      · obtain rfl := Option.some.inj hx
        rw [hno] at hdata
        cases hdata
  | asked sel mime fd hsel hmime hclip => exact hclip ▸ hkept.ask hsel hmime

end Message

lemma Kept.enlarge (h : c.Kept has) {n : ℕ}
    (hhas' : ∀ o b, has' o b → has o b ∨ o = n ∧ ∀ x, b x = none)
    (howner : ∀ sel, c.selection = some sel → sel.owner ≠ n) : c.Kept has' := by
  refine h.over (fun sel hsel b hb => ?_) (fun o source _ b n hb hn => ?_)
  · rcases hhas' _ _ hb with hb | ⟨ho, -⟩
    · exact h.held sel hsel b hb
    · exact absurd ho (howner sel hsel)
  · rcases hhas' _ _ hb with hb | ⟨-, hnone⟩
    · exact ⟨b, hb, hn⟩
    · rw [hnone] at hn
      cases hn

lemma Kept.sessionsGone (l : List Session) (h : c.Kept has) :
    (l.foldl (fun c s => c.sessionGone s.core.id) c).Kept has ∧
      c.past <+: (l.foldl (fun c s => c.sessionGone s.core.id) c).past ∧
      ∀ sel, (l.foldl (fun c s => c.sessionGone s.core.id) c).selection = some sel → c.selection = some sel := by
  induction l generalizing c with
  | nil => exact ⟨h, prefix_refl _, fun _ hsel => hsel⟩
  | cons s l ih =>
    obtain ⟨sel, hf, hsel⟩ := follows_sessionGone c s.core.id
    obtain ⟨hk, hpast, hlast⟩ := ih (h.goes hf hsel)
    refine ⟨hk, hf.past.trans hpast, fun x hx => ?_⟩
    have hx' := hf.selection.symm.trans (hlast x hx)
    rcases hsel with rfl | rfl
    · exact hx'
    · cases hx'

lemma Kept.answer (h : c.Kept has) (hown : ∀ b, ¬ has own b) (r : Control.Request) (newPipe : Option Fd)
    (now : ℕ) (hgive : ∀ mime data, r = .give mime data → ∀ source, ¬ c.Awaits own source) :
    (Control.answer r newPipe now c).2.Kept has ∧ c.past <+: (Control.answer r newPipe now c).2.past ∧
      ∀ sel, (Control.answer r newPipe now c).2.selection = some sel → c.selection = some sel ∨ sel.owner = own := by
  have hsame : c.Kept has ∧ c.past <+: c.past ∧
      ∀ sel, c.selection = some sel → c.selection = some sel ∨ sel.owner = own :=
    ⟨h, prefix_refl _, fun _ hsel => .inl hsel⟩
  cases r with
  | take =>
    unfold Control.answer Control.answerTake
    dsimp only
    split
    · exact hsame
    split
    · exact hsame
    split
    · exact hsame
    split
    · exact hsame
    · rename_i sel hsel _ _ _ _ _ _ fd
      refine ⟨h.goes (.same rfl rfl rfl (fun o source mime fd g hin => ?_)) (.inl rfl), prefix_refl _,
        fun _ hsel => .inl hsel⟩
      rcases mem_append.mp hin with hin | hin
      · exact hin
      · simp at hin
  | give mime data =>
    have hf := follows_setSelection c (some (Control.given mime data))
    refine ⟨h.follows hf (fun x hx b hb => ?_) (fun x d hx _ => .inr (hgive mime data rfl)), hf.past, ?_⟩
    · obtain rfl := Option.some.inj hx
      exact absurd hb (hown b)
    · intro sel hsel
      obtain rfl := Option.some.inj (hf.selection.symm.trans hsel)
      exact .inr rfl
  | clear g =>
    unfold Control.answer
    dsimp only
    split
    · have hf := follows_setSelection c none
      refine ⟨h.goes hf (.inr rfl), hf.past, fun sel hsel => ?_⟩
      cases hf.selection.symm.trans hsel
    · exact hsame

end Clipboard

lemma Writer.step_cases (now : ℕ) (results : List SendResult) (w : Writer) :
    (w.step now results).2.data = w.data ∧ (w.step now results).2.mime = w.mime ∧
    (w.step now results).2.asked = w.asked ∧ ((w.step now results).1 = true →
      (∀ r ∈ results, ∀ e, r ≠ .failed e) → now < w.deadline →
      (w.step now results).2.data.length ≤ (w.step now results).2.pos) := by
  induction results generalizing w with
  | nil =>
    refine ⟨rfl, rfl, rfl, fun hdone _ hlate => ?_⟩
    have hor : w.data.length ≤ w.pos ∨ w.deadline ≤ now := by simpa [Writer.step] using hdone
    exact hor.resolve_right (Nat.not_le.mpr hlate)
  | cons r results ih =>
    unfold Writer.step
    split
    · rename_i hall
      exact ⟨rfl, rfl, rfl, fun _ _ _ => hall⟩
    · cases r with
      | wouldBlock =>
        refine ⟨rfl, rfl, rfl, fun hdone _ hlate => absurd hlate ?_⟩
        simpa using hdone
      | failed e => exact ⟨rfl, rfl, rfl, fun _ hfails _ => absurd rfl (hfails _ mem_cons_self e)⟩
      | sent n =>
        obtain ⟨hdata, hmime, hasked, hall⟩ := ih { w with pos := w.pos + max 1 (min n (w.data.length - w.pos)) }
        exact ⟨hdata, hmime, hasked, fun hdone hfails hlate =>
          hall hdone (fun r hr => hfails r (mem_cons_of_mem _ hr)) hlate⟩

namespace Proxy

variable {clip : Clipboard} {a : Action}
variable {p p' : Proxy} {i : ℕ} {s s' : Session} {m : Move}

def Open (p : Proxy) (s : Session) : Prop := s ∈ p.sessions ∧ s.core.id ∉ p.closed

def Has (p : Proxy) (o : ℕ) (b : ℕ → Option ℕ) : Prop :=
  ∃ s, p.Open s ∧ s.core.id = o ∧ s.core.view.birth = b

/-- What was given out for pastes so far is what they asked for: a descriptor given with an
offer of generation `g` went to that generation's source, or was written that generation's data. -/
structure Pastes (p : Proxy) : Prop where
  handed : ∀ s, s ∈ p.sessions ∨ s ∈ p.dropped → ∀ x ∈ s.core.handed, ∀ g, x.asked = some g →
    ∃ sel, p.clip.past[g]? = some (some sel) ∧ sel.owner = s.core.id ∧ sel.source = x.source ∧
      sel.birth = x.birth ∧ x.mime ∈ sel.mimes
  writers : ∀ w, w ∈ p.writers ∨ w ∈ p.written → ∀ g, w.asked = some g →
    ∃ sel, p.clip.past[g]? = some (some sel) ∧ sel.owner = own ∧ sel.data = some w.data ∧ w.mime ∈ sel.mimes
  written : ∀ w ∈ p.written, w.data.length ≤ w.pos

/-- What the zone's pastes need of a move: a source that a paste waits for is not destroyed and
its id given to another, and no other data takes the place of the proxy's while a paste of it
waits. Readers go on reading, and the compositor deletes no data source, of which it knows nothing. -/
def Move.Fair (p : Proxy) : Move → Prop
  | .message i _ dir => ∀ s h iface m version, p.sessions[i]? = some s →
      Session.next s.core dir (s.inbound dir) = .take h iface m version →
      (iface = .wlDataDeviceManager → m.name = "create_data_source" →
        ∀ id, readArgs ArgReader.u32 ((s.msg dir h).drop headerLen) = .ok id → ¬ p.clip.Awaits s.core.id id) ∧
      (dir = .serverToClient → SparesSources h ((s.msg dir h).drop headerLen) s.core.view)
  | .answer r _ _ => ∀ mime data, r = .give mime data → ∀ source, ¬ p.clip.Awaits own source
  | .write io => ∀ w ∈ p.writers, (∀ r ∈ io.writers w.fd, ∀ e, r ≠ .failed e) ∧ io.later < w.deadline
  | _ => True

structure Kept (p : Proxy) : Prop where
  distinct : p.Distinct
  sourced : ∀ s, p.Open s → Sourced s.core.view
  clip : p.clip.Kept p.Has
  owner : ∀ sel, p.clip.selection = some sel → sel.owner < p.nextId
  pastes : p.Pastes

def Handed.Right (past : List (Option Selection)) (id : ℕ) (x : Handed) : Prop :=
  ∀ g, x.asked = some g → ∃ sel, past[g]? = some (some sel) ∧ sel.owner = id ∧ sel.source = x.source ∧
    sel.birth = x.birth ∧ x.mime ∈ sel.mimes

lemma Handed.Right.later {past past' : List (Option Selection)} {id : ℕ} {x : Handed}
    (h : Handed.Right past id x) (hpast : past <+: past') : Handed.Right past' id x := by
  intro g hg
  obtain ⟨sel, hat, hrest⟩ := h g hg
  exact ⟨sel, Clipboard.getElem?_extend hpast hat, hrest⟩

lemma Pastes.later (h : p.Pastes) (hpast : p.clip.past <+: p'.clip.past)
    (hsessions : ∀ s, s ∈ p'.sessions ∨ s ∈ p'.dropped → ∃ t, (t ∈ p.sessions ∨ t ∈ p.dropped) ∧
      s.core.id = t.core.id ∧ ∀ x ∈ s.core.handed, x ∈ t.core.handed ∨ Handed.Right p'.clip.past t.core.id x)
    (hwriters : p'.writers = p.writers) (hwritten : p'.written = p.written) : p'.Pastes := by
  refine ⟨fun s hs x hx => ?_, fun w hw g hg => ?_, fun w hw => h.written w (hwritten ▸ hw)⟩
  · obtain ⟨t, ht, hid, hhanded⟩ := hsessions s hs
    rcases hhanded x hx with hx | hx
    · have hright : Handed.Right p.clip.past t.core.id x := h.handed t ht x hx
      exact hid ▸ hright.later hpast
    · exact hid ▸ hx
  · rw [hwriters, hwritten] at hw
    obtain ⟨sel, hat, hrest⟩ := h.writers w hw g hg
    exact ⟨sel, Clipboard.getElem?_extend hpast hat, hrest⟩

lemma Kept.has (hs : p.sessions[i]? = some s) (hopen : s.core.id ∉ p.closed) :
    p.Has s.core.id s.core.view.birth :=
  ⟨s, ⟨mem_of_getElem? hs, hopen⟩, rfl, rfl⟩

lemma Kept.put {clip : Clipboard} (h : p.Kept) (hs : p.sessions[i]? = some s)
    (hid : s'.core.id = s.core.id) (hsourced : Sourced s'.core.view)
    (hclip : ∀ has', (∀ o b, has' o b → o = s.core.id ∧ b = s'.core.view.birth ∨ o ≠ s.core.id ∧ p.Has o b) →
      clip.Kept has')
    (hpast : p.clip.past <+: clip.past)
    (howner : ∀ sel, clip.selection = some sel → p.clip.selection = some sel ∨ sel.owner = s.core.id)
    (hhanded : ∀ x ∈ s'.core.handed, x ∈ s.core.handed ∨ Handed.Right clip.past s.core.id x) :
    Kept { p with sessions := p.sessions.set i s', clip := clip } := by
  have hmem := mem_of_getElem? hs
  refine ⟨h.distinct.of_ids (ids_set hs hid) rfl, fun t ht => ?_, hclip _ ?_, fun sel hsel => ?_, ?_⟩
  · rcases h.distinct.mem_set hs ht.1 with rfl | ⟨hold, -⟩
    · exact hsourced
    · exact h.sourced t ⟨hold, ht.2⟩
  · rintro o b ⟨t, ht, rfl, rfl⟩
    rcases h.distinct.mem_set hs ht.1 with rfl | ⟨hold, hne⟩
    · exact .inl ⟨hid, rfl⟩
    · exact .inr ⟨hne, t, ⟨hold, ht.2⟩, rfl, rfl⟩
  · rcases howner sel hsel with hsel | ho
    · exact h.owner sel hsel
    · exact ho ▸ h.distinct.given s hmem
  · refine h.pastes.later hpast (fun t ht => ?_) rfl rfl
    rcases ht with ht | ht
    · rcases h.distinct.mem_set hs ht with rfl | ⟨hold, -⟩
      · exact ⟨s, .inl hmem, hid, hhanded⟩
      · exact ⟨t, .inl hold, rfl, fun x hx => .inl hx⟩
    · exact ⟨t, .inr ht, rfl, fun x hx => .inl hx⟩

lemma Kept.shut (h : p.Kept) (hs : p.sessions[i]? = some s) (ended : Ended) (hframe : Framed s.core.view s'.core.view)
    (hclip : ∀ has', (∀ o b, has' o b → o ≠ s.core.id ∧ p.Has o b) → clip.Kept has') (hpast : p.clip.past <+: clip.past)
    (howner : ∀ sel, clip.selection = some sel → p.clip.selection = some sel ∨ sel.owner = s.core.id) :
    Kept ({ p with clip := clip }.close i s' ended) := by
  have hmem := mem_of_getElem? hs
  have hid : s'.refuse.core.id = s.core.id := hframe.1
  have hothers : ∀ t, Open ({ p with clip := clip }.close i s' ended) t → t.core.id ≠ s.core.id ∧ p.Open t := by
    intro t ht
    have hopen : t.core.id ∉ p.closed ++ [s'.core.id] := ht.2
    rw [mem_append, not_or, mem_singleton] at hopen
    rcases h.distinct.mem_set hs ht.1 with rfl | ⟨hold, hne⟩
    · exact absurd rfl hopen.2
    · exact ⟨hne, hold, hopen.1⟩
  refine ⟨h.distinct.of_ids (ids_set hs hid) rfl, fun t ht => h.sourced t (hothers t ht).2, hclip _ ?_,
    fun sel hsel => ?_, ?_⟩
  · rintro o b ⟨t, ht, rfl, rfl⟩
    exact ⟨(hothers t ht).1, t, (hothers t ht).2, rfl, rfl⟩
  · rcases howner sel hsel with hsel | ho
    · exact h.owner sel hsel
    · exact ho ▸ h.distinct.given s hmem
  · refine h.pastes.later hpast (fun t ht => ?_) rfl rfl
    rcases ht with ht | ht
    · rcases h.distinct.mem_set hs ht with rfl | ⟨hold, -⟩
      · have hhanded : s'.core.handed = s.core.handed := hframe.2
        exact ⟨s, .inl hmem, hid, fun x hx => .inl (hhanded ▸ hx)⟩
      · exact ⟨t, .inl hold, rfl, fun x hx => .inl hx⟩
    · exact ⟨t, .inr ht, rfl, fun x hx => .inl hx⟩

lemma acted_sources {v v' : View} (h : Acted clip v a v') :
    v'.id = v.id ∧ v'.birth = v.birth ∧ (Sourced v → Sourced v') ∧ (v'.handed = v.handed ∨
      ∃ o source mime fd asked src, a = .send o source mime fd asked ∧ v.sources.lookup source = some src ∧
        v'.handed = v.handed ++ [⟨source, src.birth, mime, fd, asked⟩]) := by
  have hapart {w : View} (ha : Apart v w) : w.id = v.id ∧ w.birth = v.birth ∧ (Sourced v → Sourced w) :=
    ⟨ha.id, ha.birth, ha.sourced⟩
  cases h with
  | offer _ _ _ ho =>
    obtain ⟨hid, hb, hs⟩ := hapart (.offering ho)
    exact ⟨hid, hb, hs, .inl (Apart.offering ho).handed⟩
  | cancel _ _ _ _ ht =>
    obtain ⟨hid, hb, hs⟩ := hapart (.tells ht)
    exact ⟨hid, hb, hs, .inl (Apart.tells ht).handed⟩
  | send o source mime fd asked src v1 hsrc ht =>
    obtain ⟨hid, hb, hs⟩ := hapart (.tells ht)
    refine ⟨hid, hb, hs, .inr ⟨o, source, mime, fd, asked, src, rfl, hsrc, ?_⟩⟩
    rw [(Apart.tells ht).handed]
  | nothing => exact ⟨rfl, rfl, id, .inl rfl⟩

lemma Kept.same_sources (h : p.Kept) (hs : p.sessions[i]? = some s) (hopen : s.core.id ∉ p.closed)
    (hbirth : s'.core.view.birth = s.core.view.birth) (has' : ℕ → (ℕ → Option ℕ) → Prop)
    (hhas' : ∀ o b, has' o b → o = s.core.id ∧ b = s'.core.view.birth ∨ o ≠ s.core.id ∧ p.Has o b) :
    p.clip.Kept has' := by
  refine h.clip.mono (fun o b hb => ?_)
  rcases hhas' o b hb with ⟨rfl, rfl⟩ | ⟨-, hb⟩
  · exact hbirth ▸ Kept.has hs hopen
  · exact hb

lemma Kept.sockets (h : p.Kept) (hs : p.sessions[i]? = some s) (hopen : s.core.id ∉ p.closed)
    (hv : s'.core.view = s.core.view) : Kept { p with sessions := p.sessions.set i s' } := by
  refine h.put hs (congrArg View.id hv) (hv ▸ h.sourced s ⟨mem_of_getElem? hs, hopen⟩)
    (h.same_sources hs hopen (by rw [hv])) (prefix_refl _) (fun _ hsel => .inl hsel) (fun x hx => .inl ?_)
  have hhanded : s'.core.handed = s.core.handed := congrArg View.handed hv
  exact hhanded ▸ hx

lemma Kept.message {k : Kernel} {dir : Dir} {more : Bool} (h : p.Kept) (hfair : Move.Fair p (.message i k dir))
    (hs : p.sessions[i]? = some s) (hopen : s.core.id ∉ p.closed)
    (hpump : Session.pumpOnce k dir (s, p.clip) = .ok more (s', clip)) :
    Kept { p with sessions := p.sessions.set i s', clip := clip } := by
  have hframe := wp_ok (Session.framed_pumpOnce k dir s p.clip) hpump
  have hsourced := h.sourced s ⟨mem_of_getElem? hs, hopen⟩
  have hcopies := wp_ok (Session.copies_pumpOnce p.clip hsourced
    (fun hd iface m version hn => (hfair s hd iface m version hs hn).2)) hpump
  obtain ⟨hsourced', hsame | ⟨hd, iface, m, version, hn, hc⟩⟩ := hcopies
  · obtain ⟨hv, hclip⟩ : s'.core.view = s.core.view ∧ clip = p.clip := hsame
    exact hclip ▸ h.sockets hs hopen hv
  · have hcreate := (hfair s hd iface m version hs hn).1
    have hhas := Kept.has hs hopen
    have hheard := hc.heard
    refine h.put hs hframe.1 hsourced' (fun has' hhas' => ?_) hheard.past hheard.owner (fun x hx => .inl ?_)
    · exact h.clip.message hhas hhas' hcreate hc
    · have hhanded : s'.core.handed = s.core.handed := hframe.2
      exact hhanded ▸ hx

lemma Kept.refused {k : Kernel} {dir : Dir} {e : Fault} (h : p.Kept) (hs : p.sessions[i]? = some s)
    (hpump : Session.pumpOnce k dir (s, p.clip) = .error e (s', clip)) (ended : Ended) :
    Kept ({ p with clip := clip }.close i s' ended) := by
  have hframe := wp_error (Session.framed_pumpOnce k dir s p.clip) hpump
  have hunmessaged := wp_error (Session.messaged_pumpOnce k dir s p.clip) hpump
  have hheard := heard_unmessaged hunmessaged
  exact h.shut hs ended hframe (fun has' hhas' => h.clip.heard hhas' hheard) hheard.past hheard.owner

lemma Kept.hangUp (h : p.Kept) (hs : p.sessions[i]? = some s) (hv : s'.core.view = s.core.view)
    (ended : Ended) : Kept (p.close i s' ended) := by
  have hframe : Framed s.core.view s'.core.view := hv ▸ ⟨rfl, rfl⟩
  exact h.shut hs ended hframe (fun has' hhas' => h.clip.mono (fun o b hb => (hhas' o b hb).2))
    (prefix_refl _) (fun _ hsel => .inl hsel)

lemma Kept.answer (h : p.Kept) {r : Control.Request} {newPipe : Option Fd} {now : ℕ}
    (hfair : Move.Fair p (.answer r newPipe now)) :
    Kept { p with clip := (Control.answer r newPipe now p.clip).2 } := by
  have hown : ∀ b, ¬ p.Has own b := by
    rintro b ⟨s, hs, hid, -⟩
    have := h.distinct.proper.2 s hs.1
    omega
  obtain ⟨hclip, hpast, howner⟩ := h.clip.answer hown r newPipe now hfair
  refine ⟨h.distinct.of_ids rfl rfl, h.sourced, hclip, fun sel hsel => ?_, ?_⟩
  · rcases howner sel hsel with hsel | ho
    · exact h.owner sel hsel
    · exact ho ▸ h.distinct.proper.1
  · exact h.pastes.later hpast (fun t ht => ⟨t, ht, rfl, fun x hx => .inl hx⟩) rfl rfl

lemma Kept.takeOff {rest : List Action} (h : p.Kept) (ha : p.clip.actions = a :: rest) :
    Kept { p with clip.actions := rest } := by
  have hclip : Clipboard.Kept p.Has { p.clip with actions := rest } := by
    refine h.clip.goes (.same rfl rfl rfl (fun o source mime fd g hin => ?_)) (.inl rfl)
    exact ha ▸ mem_cons_of_mem a hin
  refine ⟨h.distinct.of_ids rfl rfl, h.sourced, hclip, h.owner, ?_⟩
  exact h.pastes.later (prefix_refl _) (fun t ht => ⟨t, ht, rfl, fun x hx => .inl hx⟩) rfl rfl

lemma Kept.delivered {now : ℕ} {rest : List Action} (h : p.Kept) (ha : p.clip.actions = a :: rest)
    (hd : Delivered now a { p with clip.actions := rest } p') : p'.Kept := by
  have hq := h.takeOff ha
  have hpromise : ∀ o source mime fd g, a = .send o source mime fd (some g) →
      ∃ sel, p.clip.past[g]? = some (some sel) ∧ Clipboard.Promise p.Has p.clip o source mime sel := by
    intro o source mime fd g hsend
    exact h.clip.pending o source mime fd g (by rw [ha, hsend]; exact mem_cons_self)
  cases hd with
  | paste hown =>
    rcases paste_cases now a { p with clip.actions := rest } with hsame |
      ⟨o, source, mime, fd, asked, sel, data, rfl, hsel, hdata, hnew⟩
    · rw [hsame]
      exact hq
    · rw [hnew]
      refine ⟨hq.distinct.of_ids rfl rfl, hq.sourced, hq.clip, hq.owner, hq.pastes.handed, fun w hw g hg => ?_,
        hq.pastes.written⟩
      have hw : (w ∈ p.writers ∨ w = .new fd data now mime asked) ∨ w ∈ p.written := by
        simpa [mem_append] using hw
      rcases hw with (hw | rfl) | hw
      · exact h.pastes.writers w (.inl hw) g hg
      · obtain rfl : asked = some g := hg
        obtain ⟨was, hpast, hp⟩ := hpromise o source mime fd g rfl
        have ho : o = own := hown
        exact ⟨was, hpast, hp.owner.trans ho, hp.data ho sel data hsel hdata, hp.mime⟩
      · exact h.pastes.writers w (.inr hw) g hg
  | nothing => exact hq
  | @act j t core hs hid hopen hact =>
    have hopen' : t.core.id ∉ p.closed := hid ▸ hopen
    have hacted := wp_ok (Core.wp_act _ a t.core) hact
    obtain ⟨hsame, hbirth, hsourced, hhanded⟩ := acted_sources hacted
    refine hq.put hs hsame (hsourced (h.sourced t ⟨mem_of_getElem? hs, hopen'⟩))
      (hq.same_sources hs hopen' hbirth) (prefix_refl _) (fun _ hsel => .inl hsel) (fun x hx => ?_)
    rcases hhanded with hnone | ⟨o, source, mime, fd, asked, src, rfl, hsrc, hone⟩
    · have hsame : core.handed = t.core.handed := hnone
      exact .inl (hsame ▸ hx)
    · rw [show core.handed = t.core.handed ++ _ from hone] at hx
      rcases mem_append.mp hx with hx | hx
      · exact .inl hx
      · obtain rfl := mem_singleton.mp hx
        refine .inr (fun g hg => ?_)
        obtain rfl : asked = some g := hg
        obtain ⟨was, hpast, hp⟩ := hpromise o source mime fd g rfl
        have ho : t.core.id = o := hid
        refine ⟨was, hpast, hp.owner.trans ho.symm, hp.source, ?_, hp.mime⟩
        refine (hp.birth t.core.view.birth src.birth (ho ▸ Kept.has hs hopen') ?_).symm
        rw [View.birth, hsrc]
        rfl
  | close ended hs hid hopen hact =>
    have hframe := Core.framed_act hact
    exact hq.shut hs ended hframe (fun has' hhas' => hq.clip.mono (fun o b hb => (hhas' o b hb).2))
      (prefix_refl _) (fun _ hsel => .inl hsel)

lemma Kept.dropClosed (h : p.Kept) (now : ℕ) : (p.dropClosed now).Kept := by
  have hfold := foldl_drop now (p.sessions.filter (fun s => s.core.id ∈ p.closed)).reverse p
  obtain ⟨hnext, hwriters, hwritten, hdropped, hclip⟩ := hfold
  have hopen (t : Session) (ht : (p.dropClosed now).Open t) : p.Open t := by
    have hmem : t ∈ p.sessions.filter (fun s => s.core.id ∉ p.closed) := ht.1
    exact ⟨mem_of_mem_filter hmem, by simpa using (mem_filter.mp hmem).2⟩
  have hsub (o : ℕ) (b : ℕ → Option ℕ) (hb : (p.dropClosed now).Has o b) : p.Has o b := by
    obtain ⟨t, ht, hid, hbirth⟩ := hb
    exact ⟨t, hopen t ht, hid, hbirth⟩
  obtain ⟨hkept, hpast, hsel⟩ := (h.clip.mono hsub).sessionsGone
    (p.sessions.filter (fun s => s.core.id ∈ p.closed)).reverse
  rw [← hclip] at hkept hpast hsel
  refine ⟨(Step.drop now).distinct h.distinct, fun t ht => h.sourced t (hopen t ht), hkept, fun sel hs => ?_, ?_⟩
  · exact hnext ▸ h.owner sel (hsel sel hs)
  · refine h.pastes.later hpast (fun t ht => ⟨t, ?_, rfl, fun x hx => .inl hx⟩) hwriters hwritten
    rcases ht with ht | ht
    · exact .inl (mem_of_mem_filter (show t ∈ p.sessions.filter _ from ht))
    · rcases mem_append.mp (hdropped ▸ ht) with ht | ht
      · exact .inr ht
      · exact .inl (mem_of_mem_filter (mem_reverse.mp ht))

lemma Kept.write (h : p.Kept) {io : TurnIo} (hfair : Move.Fair p (.write io)) : (p.stepWriters io).Kept := by
  have hcases (w : Writer) (hw : w ∈ (p.stepWriters io).writers ∨ w ∈ (p.stepWriters io).written) :
      w ∈ p.written ∨ ∃ w0 ∈ p.writers, w = (w0.step io.later (io.writers w0.fd)).2 := by
    simp only [stepWriters, mem_append, mem_map, mem_filter] at hw
    rcases hw with ⟨x, ⟨⟨w0, hw0, rfl⟩, -⟩, rfl⟩ | hw | ⟨x, ⟨⟨w0, hw0, rfl⟩, -⟩, rfl⟩
    · exact .inr ⟨w0, hw0, rfl⟩
    · exact .inl hw
    · exact .inr ⟨w0, hw0, rfl⟩
  refine ⟨h.distinct.of_ids rfl rfl, h.sourced, h.clip, h.owner, h.pastes.handed, fun w hw g hg => ?_, fun w hw => ?_⟩
  · rcases hcases w hw with hw | ⟨w0, hw0, rfl⟩
    · exact h.pastes.writers w (.inr hw) g hg
    · obtain ⟨hdata, hmime, hasked, -⟩ := Writer.step_cases io.later (io.writers w0.fd) w0
      obtain ⟨sel, hpast, hown, hseldata, hselmime⟩ := h.pastes.writers w0 (.inl hw0) g (hasked ▸ hg)
      exact ⟨sel, hpast, hown, hdata ▸ hseldata, hmime ▸ hselmime⟩
  · rcases mem_append.mp (show w ∈ p.written ++ _ from hw) with hw | hw
    · exact h.pastes.written w hw
    · simp only [mem_map, mem_filter] at hw
      obtain ⟨x, ⟨⟨w0, hw0, rfl⟩, hdone⟩, rfl⟩ := hw
      obtain ⟨-, -, -, hall⟩ := Writer.step_cases io.later (io.writers w0.fd) w0
      exact hall hdone (hfair w0 hw0).1 (hfair w0 hw0).2

lemma Kept.accept (h : p.Kept) : Kept { p with
    sessions := p.sessions ++ [.opened p.zone p.holdAwake p.nextId], nextId := p.nextId + 1 } := by
  have hnew (t : Session) (ht : t ∈ p.sessions ++ [Session.opened p.zone p.holdAwake p.nextId]) :
      t ∈ p.sessions ∨ t = .opened p.zone p.holdAwake p.nextId := by
    simpa [mem_append] using ht
  refine ⟨Step.accept.distinct h.distinct, fun t ht => ?_, ?_, fun sel hsel => Nat.lt_succ_of_lt (h.owner sel hsel), ?_⟩
  · rcases hnew t ht.1 with hold | rfl
    · exact h.sourced t ⟨hold, ht.2⟩
    · intro id hid
      cases hid
  · refine h.clip.enlarge (n := p.nextId) ?_ (fun sel hsel => Nat.ne_of_lt (h.owner sel hsel))
    rintro o b ⟨t, ht, rfl, rfl⟩
    rcases hnew t ht.1 with hold | rfl
    · exact .inl ⟨t, ⟨hold, ht.2⟩, rfl, rfl⟩
    · exact .inr ⟨rfl, fun x => rfl⟩
  · refine ⟨fun t ht x hx => ?_, h.pastes.writers, h.pastes.written⟩
    rcases ht with ht | ht
    · rcases hnew t ht with hold | rfl
      · exact h.pastes.handed t (.inl hold) x hx
      · cases hx
    · exact h.pastes.handed t (.inr ht) x hx

lemma Kept.step (h : p.Kept) (hfair : m.Fair p) (hstep : Step p m p') : p'.Kept := by
  cases hstep with
  | sockets hs hopen hv => exact h.sockets hs hopen hv
  | message hs hopen hpump => exact h.message hfair hs hopen hpump
  | refused ended hs _ hpump => exact h.refused hs hpump ended
  | hangUp ended hs _ hv => exact h.hangUp hs hv ended
  | answer => exact h.answer hfair
  | deliver ha hd => exact h.delivered ha (Proxy.delivered hd)
  | drop now => exact h.dropClosed now
  | write => exact h.write hfair
  | accept => exact h.accept
  | other moving gone =>
    refine ⟨h.distinct.of_ids rfl rfl, h.sourced, h.clip, h.owner, ?_⟩
    exact ⟨h.pastes.handed, h.pastes.writers, h.pastes.written⟩

lemma start_kept (zone : String) (holdAwake : Bool) (maxClients : ℕ) :
    (start zone holdAwake maxClients).Kept := by
  refine ⟨start_distinct _ _ _, ?_, ⟨⟨rfl, rfl⟩, ?_, ?_⟩, ?_, ?_, ?_, ?_⟩ <;> simp [start, Open]

/-- In any order of the moves that is fair to the pastes, every paste gets what it asked for. -/
theorem pastes_kept (zone : String) (holdAwake : Bool) (maxClients : ℕ) (p : Proxy)
    (h : Relation.ReflTransGen (fun p p' => ∃ m : Move, m.Fair p ∧ Step p m p')
      (start zone holdAwake maxClients) p) :
    (∀ s, s ∈ p.sessions ∨ s ∈ p.dropped → ∀ x ∈ s.core.handed, ∀ g, x.asked = some g →
      ∃ sel, p.clip.past[g]? = some (some sel) ∧ sel.owner = s.core.id ∧ sel.source = x.source ∧
        sel.birth = x.birth ∧ x.mime ∈ sel.mimes) ∧
    (∀ w, w ∈ p.writers ∨ w ∈ p.written → ∀ g, w.asked = some g →
      ∃ sel, p.clip.past[g]? = some (some sel) ∧ sel.owner = own ∧ sel.data = some w.data ∧
        w.mime ∈ sel.mimes) ∧
    ∀ w ∈ p.written, w.data.length ≤ w.pos := by
  have hkept : p.Kept := by
    induction h with
    | refl => exact start_kept _ _ _
    | tail _ hstep ih =>
      obtain ⟨m, hfair, hstep⟩ := hstep
      exact ih.step hfair hstep
  exact ⟨hkept.pastes.handed, hkept.pastes.writers, hkept.pastes.written⟩

def hearsOfSeat : SessionIo :=
  { client := hear [(MessageWriter.new 1 1).u32 2] []
    server := hear [(((MessageWriter.new 2 0).u32 1).string "wl_seat").u32 7] [] }

/-- binds it and the data device manager, and asks for a keyboard and a data device. -/
def bindsSeat : List MessageWriter :=
  [((((MessageWriter.new 2 0).u32 1).string "wl_seat").u32 7).u32 3,
    ((((MessageWriter.new 2 0).u32 Policy.ownGlobalBase).string "wl_data_device_manager").u32 3).u32 4,
    (MessageWriter.new 3 1).u32 5, ((MessageWriter.new 4 1).u32 6).u32 3]

def keyboardEnter : MessageWriter := (((MessageWriter.new 5 1).u32 1).u32 7).u32 0

def keyboardLeave : MessageWriter := ((MessageWriter.new 5 2).u32 1).u32 7

def receivesText : MessageWriter := (MessageWriter.new serverIdBase 1).string "text/plain"

def text (s : String) : Bytes := s.toUTF8.toList

def calm (p : Proxy) : Act → Bool
  | .message i dir => p.clip.actions.isEmpty && p.sessions[i]?.all (fun s =>
      match Session.next s.core dir (s.inbound dir) with
      | .take h _ _ _ => dir = .clientToServer || h.object ≠ wlDisplay
      | _ => true)
  | .answer _ => p.clip.actions.isEmpty
  | .write io => p.writers.all (fun w => io.later < w.deadline &&
      (io.writers w.fd).all (fun r => match r with | .failed _ => false | _ => true))
  | _ => true

lemma fair_of_calm (p : Proxy) (a : Act) (h : calm p a = true) : a.move.Fair p := by
  have hnone (hempty : p.clip.actions.isEmpty = true) (o source : ℕ) : ¬ p.clip.Awaits o source := by
    rintro ⟨a, ha, -⟩
    rw [isEmpty_iff.mp hempty] at ha
    cases ha
  cases a with
  | hear | deliver | accept => trivial
  | answer r => exact fun _ _ _ source => hnone h own source
  | message i dir =>
    intro s hd iface m version hs hn
    simp only [calm, hs, hn, Option.all_some, Bool.and_eq_true] at h
    refine ⟨fun _ _ id _ => hnone h.1 _ id, fun hdir hobject => ?_⟩
    simp [hdir, hobject] at h
  | write io =>
    intro w hw
    have hall := all_eq_true.mp h w hw
    simp only [Bool.and_eq_true, decide_eq_true_eq, all_eq_true] at hall
    refine ⟨fun r hr e hfailed => ?_, hall.1⟩
    have := hall.2 r hr
    simp [hfailed] at this

/-- A client with the keyboard asks for the text the gesture gave and reads it. -/
def pasteRun : List Act :=
  let up := fun msgs fds => Act.hear 0 .clientToServer (List.flatMap MessageWriter.bytes msgs) fds
  let down := fun msgs => Act.hear 0 .serverToClient (List.flatMap MessageWriter.bytes msgs) []
  [.accept, up [(MessageWriter.new 1 1).u32 2] [], .message 0 .clientToServer,
    down [(((MessageWriter.new 2 0).u32 1).string "wl_seat").u32 7], .message 0 .serverToClient,
    up bindsSeat [], .message 0 .clientToServer, .message 0 .clientToServer, .message 0 .clientToServer,
    .message 0 .clientToServer, down [keyboardEnter], .message 0 .serverToClient,
    .answer (.give "text/plain" (text "one")), .deliver, up [receivesText] [7], .message 0 .clientToServer,
    .deliver, .write { writers := fun _ => [.sent 3], now := 0, later := 0 }]

theorem pastes_kept_one : ∃ (p : Proxy) (w : Writer), w ∈ p.written ∧ w.asked = some 1 ∧ w.data = text "one" ∧
    ∃ sel, p.clip.past[1]? = some (some sel) ∧ sel.owner = own ∧ sel.data = some w.data ∧
      w.mime ∈ sel.mimes := by
  have hruns : (Act.runs calm pasteRun (start "work" false 16)).any
      (fun p => p.written.any (fun w => w.asked = some 1 ∧ w.data = text "one")) = true := by decide +kernel
  cases hp : Act.runs calm pasteRun (start "work" false 16) with
  | none => simp [hp] at hruns
  | some p =>
    rw [hp] at hruns
    obtain ⟨w, hw, hasked⟩ := any_eq_true.mp hruns
    obtain ⟨hasked, hdata⟩ := of_decide_eq_true hasked
    have hpastes := pastes_kept "work" false 16 p (Act.runs_reach fair_of_calm hp)
    exact ⟨p, w, hw, hasked, hdata, hpastes.2.1 w (.inr hw) 1 hasked⟩

def gives (data : String) : TurnIo :=
  { mover := some true, now := 0, later := 0
    control := { conn := [.got (text ("give text/plain 3\n" ++ data))], out := [.wrote true] } }

/-- A client with the keyboard asks for the text the gesture gave, and in the same turn the
gesture gives another. -/
def giftsCross : List TurnIo :=
  [{ connects := true, now := 0, later := 0 }, { sessions := fun _ => hearsOfSeat, now := 0, later := 0 },
    { sessions := fun _ => { client := hear bindsSeat [], server := hear [keyboardEnter] [] }
      now := 0, later := 0 },
    gives "one",
    { gives "two" with sessions := fun _ => { client := hear [receivesText] [7] } }]

def copiesText : SessionIo :=
  { client := hear [(MessageWriter.new 4 0).u32 7, (MessageWriter.new 7 0).string "text/plain",
      ((MessageWriter.new 6 1).u32 7).u32 1] [] }

def replacesSource : SessionIo := { client := hear [MessageWriter.new 7 1, (MessageWriter.new 4 0).u32 7] [] }

/-- The second client copies, the first is offered the copy and asks for it, and in the same
turn the second destroys its source and makes another. -/
def sourceReplaced : List TurnIo :=
  [{ connects := true, now := 0, later := 0 }, { connects := true, now := 0, later := 0 },
    { sessions := fun _ => hearsOfSeat, now := 0, later := 0 },
    { sessions := fun id =>
        { client := hear bindsSeat [], server := if id = 2 then hear [keyboardEnter] [] else none }
      now := 0, later := 0 },
    { sessions := fun id => if id = 2 then copiesText else {}, now := 0, later := 0 },
    { sessions := fun id => { server := hear [if id = 2 then keyboardLeave else keyboardEnter] [] }
      now := 0, later := 0 },
    { sessions := fun id => if id = 2 then replacesSource else { client := hear [receivesText] [9] }
      now := 0, later := 0 }]

def outcome (turns : List TurnIo) : Option Proxy :=
  match turns.forM turn (start "work" false 16) with
  | .ok _ p => some p
  | .error _ _ => none

lemma exists_outcome (turns : List TurnIo) (P : Proxy → Bool) (h : (outcome turns).any P = true) :
    ∃ p, turns.forM turn (start "work" false 16) = .ok () p ∧ P p = true := by
  unfold outcome at h
  split at h
  · rename_i u p hrun
    exact ⟨p, hrun, h⟩
  · cases h

def copied : Selection := ⟨2, 7, ["text/plain"], none, 0⟩

/-- The reader of the first gift gets the second, and the descriptor meant for the source that
was copied goes to the one that took its id. -/
theorem pastes_go_astray :
    (∃ p, giftsCross.forM turn (start "work" false 16) = .ok () p ∧ ∃ w ∈ p.writers, w.asked = some 1 ∧
      w.data = text "two" ∧ p.clip.past[1]? = some (some (Control.given "text/plain" (text "one")))) ∧
    ∃ p, sourceReplaced.forM turn (start "work" false 16) = .ok () p ∧
      ∃ s ∈ p.sessions, ∃ x ∈ s.core.handed, x.asked = some 1 ∧ x.source = 7 ∧ x.birth = 1 ∧
        p.clip.past[1]? = some (some copied) := by
  refine ⟨?_, ?_⟩
  · obtain ⟨p, hrun, hp⟩ := exists_outcome giftsCross
      (fun p => decide (∃ w ∈ p.writers, w.asked = some 1 ∧ w.data = text "two" ∧
        p.clip.past[1]? = some (some (Control.given "text/plain" (text "one"))))) (by decide +kernel)
    exact ⟨p, hrun, of_decide_eq_true hp⟩
  · obtain ⟨p, hrun, hp⟩ := exists_outcome sourceReplaced
      (fun p => decide (∃ s ∈ p.sessions, ∃ x ∈ s.core.handed, x.asked = some 1 ∧ x.source = 7 ∧
        x.birth = 1 ∧ p.clip.past[1]? = some (some copied))) (by decide +kernel)
    exact ⟨p, hrun, of_decide_eq_true hp⟩

end Proxy

end Kryptik.Wlproxy
