import Kryptik.Desktop.Errand

namespace Kryptik.Desktop

open Wlproxy Wlproxy.Wire Wlproxy.Control List Policy Door Clipboard

variable {c c' : Clipboard}
variable {quoted : String → String} {now n gen : ℕ} {d d' : Door} {request left data type rest whole : Bytes}
  {mime : String} {sel : Selection} {r : Request} {np : Option Fd} {m : Control} {clip : Clipboard}

/-- FROM's clipboard: its history is in order, and what the proxy holds itself a move can carry. -/
structure Clipped (c : Clipboard) : Prop where
  dated : c.Dated
  held : ∀ sel data, c.selection = some sel → sel.data = some data → data.length ≤ Policy.maxMoveBytes

lemma Clipped.follows {sel : Option Selection} (h : Clipped c) (hf : c.Follows c' sel)
    (hsel : ∀ s data, sel = some s → s.data = some data → data.length ≤ maxMoveBytes) : Clipped c' := by
  refine ⟨hf.dated h.dated, ?_⟩
  rw [hf.selection]
  exact hsel

lemma Changes.past (h : Changes c c') : c.past <+: c'.past := by
  cases h with
  | copy sel _ => exact (follows_setSelection c sel).past
  | sourceGone owner source => exact (follows_sourceGone c owner source).past
  | sessionGone id =>
    obtain ⟨_, hf, -⟩ := follows_sessionGone c id
    exact hf.past
  | other focus actions => exact prefix_refl _

lemma Changes.clipped (h : Changes c c') (hc : Clipped c) : Clipped c' := by
  cases h with
  | copy sel hsel =>
    apply hc.follows (follows_setSelection c sel)
    intro s data hs hdata
    rw [(hsel s hs).2] at hdata
    exact absurd hdata (by simp)
  | sourceGone owner source =>
    apply hc.follows (follows_sourceGone c owner source)
    intro s data hs hdata
    split_ifs at hs
    exact hc.held s data hs hdata
  | sessionGone id =>
    obtain ⟨sel, hf, hsel⟩ := follows_sessionGone c id
    apply hc.follows hf
    intro s data hs hdata
    obtain rfl | rfl := hsel
    · exact hc.held s data hs hdata
    · cases hs
  | other focus actions => exact ⟨⟨hc.dated.length, hc.dated.now⟩, hc.held⟩

/-- What happens at a door beside the turns of the move. -/
structure Beside (d d' : Door) : Prop where
  move : d'.move = d.move
  inbox : d'.inbox = d.inbox
  outbox : d'.outbox = d.outbox
  answered : d'.answered = d.answered
  log : d'.log = d.log
  past : d.clip.past <+: d'.clip.past
  clipped : Clipped d.clip → Clipped d'.clip
  pipe : d.closed = true → d'.written = d.written ∧ d'.closed = true
  read : ∀ data, data ++ d.unread = d.written → data ++ d'.unread = d'.written

inductive Door.Stir (quoted : String → String) (d d' : Door) : Prop
  | turn {now : ℕ} (hturn : d.Turn quoted now d')
  | beside (hbeside : Beside d d')

lemma Door.Step.stir (h : d.Step quoted d') : d.Stir quoted d' := by
  cases h with
  | turn hturn => exact .turn hturn
  | change hchange =>
    exact .beside ⟨rfl, rfl, rfl, rfl, rfl, hchange.past, hchange.clipped, fun h => ⟨rfl, h⟩, fun _ h => h⟩
  | write bytes hopen =>
    refine .beside ⟨rfl, rfl, rfl, rfl, rfl, prefix_refl _, id, fun hclosed => ?_, fun data hdata => ?_⟩
    · rw [hopen] at hclosed
      exact absurd hclosed (by simp)
    · rw [← append_assoc, hdata]
  | close => exact .beside ⟨rfl, rfl, rfl, rfl, rfl, prefix_refl _, id, fun _ => ⟨rfl, rfl⟩, fun _ h => h⟩

lemma Door.Stir.shut (d : Door) : d.Stir quoted { d with shut := true } :=
  .beside ⟨rfl, rfl, rfl, rfl, rfl, prefix_refl _, id, fun h => ⟨rfl, h⟩, fun _ h => h⟩

lemma Errand.beside {undone done : List Event} (h : Errand quoted request left undone done d) (hb : Beside d d') :
    Errand quoted request left undone done d' := by
  refine ⟨h.toLinked.congr hb.move hb.inbox hb.outbox hb.answered, ?_, ?_⟩
  · rw [hb.move]
    exact h.plain
  · rw [hb.log, hb.answered]
    exact h.result

/-- The selection of generation `gen` is what a take of it says: its type the first the gesture carries of
those it offered, its bytes the proxy's, or all that was written into the pipe. -/
structure Taken (gen : ℕ) (mime : String) (data : Bytes) (sel : Selection) (d : Door) : Prop where
  past : d.clip.past[gen]? = some (some sel)
  type : Policy.moveTypes.find? (· ∈ sel.mimes) = some mime
  bytes : sel.data = some data ∨ (sel.data = none ∧ d.written = data ∧ d.closed = true)
  short : data.length ≤ Policy.maxMoveBytes

lemma getElem?_extend {l l' : List (Option Selection)} {x : Option Selection} (h : l <+: l')
    (hx : l[n]? = some x) : l'[n]? = some x := by
  obtain ⟨t, rfl⟩ := h
  rw [List.getElem?_append_left (List.getElem?_eq_some_iff.mp hx).1]
  exact hx

lemma Taken.mono (h : Taken gen mime data sel d) (hpast : d.clip.past <+: d'.clip.past)
    (hpipe : d.closed = true → d'.written = d.written ∧ d'.closed = true) : Taken gen mime data sel d' := by
  refine ⟨getElem?_extend hpast h.past, h.type, ?_, h.short⟩
  obtain hdata | ⟨hnone, hwritten, hclosed⟩ := h.bytes
  · exact .inl hdata
  · obtain ⟨hsame, hstill⟩ := hpipe hclosed
    exact .inr ⟨hnone, hsame.trans hwritten, hstill⟩

/-- What a take has of the pipe while it reads it, and of which selection. -/
def Piping (past : List (Option Selection)) (unread written : Bytes) : State → Prop
  | .taking mime gen data => data ++ unread = written ∧ data.length ≤ Policy.maxMoveBytes ∧
      ∃ sel, past[gen]? = some (some sel) ∧ Policy.moveTypes.find? (· ∈ sel.mimes) = some mime ∧ sel.data = none
  | _ => True

structure Taking (quoted : String → String) (left : Bytes) (d : Door) : Prop
    extends Linked quoted Ask.take.request left d where
  result : (d.log = [] ∧ (d.answered = none ∨ d.answered = some .empty ∨ ∃ why, d.answered = some (.refused why))) ∨
    ∃ gen mime data sel, d.answered = some (.taken gen mime data) ∧ d.log = [.took gen gen mime data] ∧
      Taken gen mime data sel d
  reading : ∀ m, d.move = some m → Piping d.clip.past d.unread d.written m.state

lemma Taking.opened (hlog : d.log = []) (now : ℕ) : Taking quoted Ask.take.request (d.opened now) := by
  refine ⟨Linked.opened now, .inl ⟨hlog, .inl rfl⟩, ?_⟩
  rintro _ ⟨⟩
  trivial

inductive Reading (now gen : ℕ) (mime : String) (data : Bytes) (m : Control) (d : Door) : Door → Prop
  | refused (why : Refusal) {rest : Bytes} : Reading now gen mime data m d
      { d with unread := rest, move := some (refuse why now), answered := some (.refused why) }
  | waits : Reading now gen mime data m d d
  | more (front rest : Bytes) (hunread : d.unread = front ++ rest)
      (hshort : (data ++ front).length ≤ Policy.maxMoveBytes) : Reading now gen mime data m d
      { d with unread := rest, move := some { m with state := .taking mime gen (data ++ front) } }
  | took (hunread : d.unread = []) (hclosed : d.closed = true) (hgen : d.clip.generation = gen) :
      Reading now gen mime data m d
        { d with
          unread := []
          move := some (Control.reply (.taken gen mime data) now)
          answered := some (.taken gen mime data)
          log := d.log ++ [.took d.clip.generation gen mime data] }

lemma Door.Turn.reading (hturn : d.Turn quoted now d') (hm : d.move = some m)
    (hstate : m.state = .taking mime gen data) : Reading now gen mime data m d d' := by
  cases hturn with
  | request _ hm' hstate' | replying hm' hstate' =>
    cases hm.symm.trans hm'
    exact absurd (hstate.symm.trans hstate') (by simp)
  | taking hm' hstate' hread hend =>
    cases hm.symm.trans hm'
    simp only [stepOnce, hstate] at hend
    cases hread with
    | wouldBlock =>
      simp only [headD_cons, onTaking] at hend
      split_ifs at hend
      · rw [hend]
        have hsame : ({ d with unread := d.unread }.went (.waits m)).logged
            (did d.clip (.waits m) ++ Door.taken d.clip (.waits m)) = d := by
          simp [went, did, Door.taken, Door.logged, ← hm]
        exact hsame.symm ▸ .waits
      · rw [hend, refuse, did_same rfl rfl]
        exact (logged_nil _).symm ▸ .refused .lateCopy
    | failed =>
      rw [hend]
      simp only [headD_cons, onTaking]
      rw [refuse, did_same rfl rfl]
      exact (logged_nil _).symm ▸ .refused .changed
    | eof hempty hclosed =>
      simp only [headD_cons, onTaking] at hend
      split_ifs at hend with hgen
      · rw [hend, refuse, did_same rfl rfl]
        exact (logged_nil _).symm ▸ .refused .changed
      · rw [not_not] at hgen
        rw [hend, did_same rfl rfl]
        exact .took hempty hclosed hgen
    | got hfront hstream =>
      simp only [headD_cons, onTaking] at hend
      split_ifs at hend with hlong
      · rw [hend, refuse, did_same rfl rfl]
        exact (logged_nil _).symm ▸ .refused .overMove
      · rw [hend, did_same rfl rfl]
        exact (logged_nil _).symm ▸ .more _ _ hstream (Nat.le_of_not_lt hlong)

inductive TakeAnswer (now : ℕ) (c : Clipboard) : Control → Clipboard → Prop
  | empty : TakeAnswer now c (Control.reply .empty now) c
  | refused (why : Refusal) : TakeAnswer now c (refuse why now) c
  | held {sel : Selection} {mime : String} {data : Bytes} (hsel : c.selection = some sel)
      (htype : Policy.moveTypes.find? (· ∈ sel.mimes) = some mime) (hdata : sel.data = some data) :
      TakeAnswer now c (Control.reply (.taken c.generation mime data) now) c
  | asked {sel : Selection} {mime : String} {actions : List Action} (hsel : c.selection = some sel)
      (htype : Policy.moveTypes.find? (· ∈ sel.mimes) = some mime) (hdata : sel.data = none) :
      TakeAnswer now c ⟨now + requestDeadline, .taking mime c.generation []⟩ { c with actions }

lemma takeAnswer_answerTake (np : Option Fd) (now : ℕ) (c : Clipboard) :
    TakeAnswer now c (answerTake np now c).1 (answerTake np now c).2 := by
  unfold answerTake
  cases hsel : c.selection with
  | none => exact .empty
  | some sel =>
    dsimp only
    cases htype : moveTypes.find? (· ∈ sel.mimes) with
    | none => exact .refused .noType
    | some mime =>
      cases hdata : sel.data with
      | some data => exact .held hsel htype hdata
      | none =>
        cases np with
        | none => exact .refused .noPipe
        | some fd =>
          rw [← hsel]
          exact .asked hsel htype hdata

lemma Clipped.past_now (h : Clipped clip) (hsel : clip.selection = some sel) :
    clip.past[clip.generation]? = some (some sel) := by
  rw [h.dated.now, hsel]

lemma Taking.fresh (h : Taking quoted left d) (hnone : d.answered = none) : d.log = [] := by
  obtain ⟨hlog, -⟩ | ⟨gen, mime, data, sel, htaken, -⟩ := h.result
  · exact hlog
  · rw [hnone] at htaken
    exact absurd htaken (by simp)

lemma reading_replying {past : List (Option Selection)} {unread written : Bytes} {reply : Reply} :
    ∀ m, some (Control.reply reply now) = some m → Piping past unread written m.state := by
  rintro _ ⟨⟩
  trivial

lemma Taking.answers (h : Taking quoted left d) (hnone : d.answered = none) (hc : Clipped d.clip) {c : Clipboard}
    (hanswer : TakeAnswer now d.clip m c) {ended : Went} (hend : ended = .on m c) {inbox : Bytes}
    (hd' : d' = (({ d with inbox }.went ended).piped ended).logged
      (did d.clip ended ++ Door.taken d.clip ended)) :
    Taking quoted left d' ∧ Clipped d'.clip := by
  have hlog := h.fresh hnone
  have hquiet : did d.clip ended = [] := by
    subst hend
    cases hanswer with
    | empty | refused why | held hsel htype hdata | asked hsel htype hdata => exact did_same rfl rfl
  rw [hquiet, nil_append] at hd'
  subst hend
  cases hanswer with
  | empty =>
    subst hd'
    refine ⟨⟨h.toLinked.replies hnone rfl rfl rfl rfl, .inl ⟨?_, .inr (.inl rfl)⟩, reading_replying⟩, hc⟩
    exact (append_nil _).trans hlog
  | refused why =>
    subst hd'
    refine ⟨⟨h.toLinked.replies hnone rfl rfl rfl rfl, .inl ⟨?_, .inr (.inr ⟨why, rfl⟩)⟩, reading_replying⟩, hc⟩
    exact (append_nil _).trans hlog
  | @held sel mime data hsel htype hdata =>
    subst hd'
    refine ⟨⟨h.toLinked.replies hnone rfl rfl rfl rfl, .inr ⟨d.clip.generation, mime, data, sel, rfl, ?_, ?_⟩,
      reading_replying⟩, hc⟩
    · exact congrArg (· ++ [Event.took d.clip.generation d.clip.generation mime data]) hlog
    · exact ⟨hc.past_now hsel, htype, .inl hdata, hc.held sel data hsel hdata⟩
  | @asked sel mime actions hsel htype hdata =>
    subst hd'
    refine ⟨⟨?_, .inl ⟨(append_nil _).trans hlog, .inl hnone⟩, ?_⟩, ⟨⟨hc.dated.length, hc.dated.now⟩, hc.held⟩⟩
    · refine ⟨?_, h.outbox⟩
      rintro _ ⟨⟩
      exact hnone
    · rintro _ ⟨⟩
      exact ⟨rfl, Nat.zero_le _, sel, hc.past_now hsel, htype, hdata⟩

lemma Taking.reads (h : Taking quoted left d) (hm : d.move = some m) (hstate : m.state = .taking mime gen data)
    (hread : Reading now gen mime data m d d') : Taking quoted left d' := by
  have hnone : d.answered = none := h.due_of hm hstate
  have hlog := h.fresh hnone
  have hpiping := h.reading m hm
  rw [hstate] at hpiping
  obtain ⟨hwritten, hshort, sel, hpast, htype, hdata⟩ := hpiping
  cases hread with
  | refused why =>
    exact ⟨h.toLinked.replies hnone rfl rfl rfl rfl, Or.inl ⟨hlog, Or.inr (Or.inr ⟨why, rfl⟩)⟩, reading_replying⟩
  | waits => exact h
  | more front rest hunread hmore =>
    refine ⟨⟨?_, h.outbox⟩, .inl ⟨hlog, .inl hnone⟩, ?_⟩
    · rintro _ ⟨⟩
      exact hnone
    · rintro _ ⟨⟩
      exact ⟨by rw [← hwritten, hunread, append_assoc], hmore, sel, hpast, htype, hdata⟩
  | took hunread hclosed hgen =>
    rw [hunread, append_nil] at hwritten
    refine ⟨h.toLinked.replies hnone rfl rfl rfl rfl, .inr ⟨gen, mime, data, sel, rfl, ?_, ?_⟩, reading_replying⟩
    · rw [hlog, hgen]
      rfl
    · exact ⟨hpast, htype, .inr ⟨hdata, hwritten.symm, hclosed⟩, hshort⟩

lemma Taking.keeps {left' : Bytes} (h : Taking quoted left d) (hlinked : Linked quoted Ask.take.request left' d')
    (hanswered : d'.answered = d.answered) (hlog : d'.log = d.log) (hpast : d.clip.past <+: d'.clip.past)
    (hpipe : d.closed = true → d'.written = d.written ∧ d'.closed = true)
    (hreading : ∀ m, d'.move = some m → Piping d'.clip.past d'.unread d'.written m.state) :
    Taking quoted left' d' := by
  refine ⟨hlinked, ?_, hreading⟩
  rw [hlog, hanswered]
  obtain hquiet | ⟨gen, mime, data, sel, hans, hevent, htaken⟩ := h.result
  · exact .inl hquiet
  · exact .inr ⟨gen, mime, data, sel, hans, hevent, htaken.mono hpast hpipe⟩

lemma Taking.beside (h : Taking quoted left d) (hb : Beside d d') : Taking quoted left d' := by
  have hlinked := h.toLinked.congr hb.move hb.inbox hb.outbox hb.answered
  refine h.keeps hlinked hb.answered hb.log hb.past hb.pipe fun m hm => ?_
  have hpiping := h.reading m (hb.move ▸ hm)
  cases hstate : m.state with
  | taking mime gen data =>
    rw [hstate] at hpiping
    obtain ⟨hwritten, hshort, sel, hsel, hfacts⟩ := hpiping
    exact ⟨hb.read data hwritten, hshort, sel, getElem?_extend hb.past hsel, hfacts⟩
  | request buf | replying reply => trivial

lemma Taking.sent {front : Bytes} (h : Taking quoted (front ++ left) d) :
    Taking quoted left { d with inbox := d.inbox ++ front } :=
  h.keeps h.toLinked.sent rfl rfl (prefix_refl _) (fun hclosed => ⟨rfl, hclosed⟩) h.reading

lemma Taking.writing (h : Taking quoted left d) (hlinked : Linked quoted Ask.take.request left d')
    (hd : Writing d d') : Taking quoted left d' := by
  refine h.keeps hlinked hd.answered hd.log ?_ (fun hclosed => ⟨hd.written, hd.closed.trans hclosed⟩) fun m hm => ?_
  · rw [hd.clip]
  · obtain hnone | hmove := hd.move
    · cases hnone.symm.trans hm
    · rw [hd.unread, hd.written, hd.clip]
      exact h.reading m (hmove.symm.trans hm)

lemma Taking.turn (h : Taking quoted left d) (hturn : d.Turn quoted now d') (hc : Clipped d.clip) :
    Taking quoted left d' ∧ Clipped d'.clip ∧ ∀ reply, d.answered = some reply → d'.answered = some reply := by
  obtain ⟨m, hm⟩ := hturn.move
  cases hstate : m.state with
  | replying reply =>
    obtain ⟨hlinked, hd⟩ := h.toLinked.turn hturn hm hstate
    exact ⟨h.writing hlinked hd, hd.clip ▸ hc, fun reply hr => hd.answered ▸ hr⟩
  | taking mime gen data =>
    have hnone : d.answered = none := h.due_of hm hstate
    have hread := hturn.reading hm hstate
    refine ⟨h.reads hm hstate hread, ?_, fun reply hr => absurd (hnone.symm.trans hr) (by simp)⟩
    cases hread with
    | refused why | waits | more | took => exact hc
  | request buf =>
    obtain ⟨hwhole, hnone⟩ := h.due_of hm hstate
    obtain ⟨np, rest, hcases⟩ := hturn.requested hm hstate fun p hp => parse_take (hp.trans ⟨left, hwhole⟩)
    suffices Taking quoted left d' ∧ Clipped d'.clip from
      ⟨this.1, this.2, fun reply hr => absurd (hnone.symm.trans hr) (by simp)⟩
    cases hcases with
    | closed => exact ⟨⟨h.toLinked.over rfl rfl rfl, Or.inl ⟨h.fresh hnone, Or.inl hnone⟩, by simp⟩, hc⟩
    | refused why =>
      exact ⟨⟨h.toLinked.replies hnone rfl rfl rfl rfl, Or.inl ⟨h.fresh hnone, Or.inr (Or.inr ⟨why, rfl⟩)⟩,
        reading_replying⟩, hc⟩
    | waits buf' hbuf =>
      refine ⟨⟨h.toLinked.waits hm hstate hbuf, .inl ⟨h.fresh hnone, .inl hnone⟩, ?_⟩, hc⟩
      rintro _ ⟨⟩
      trivial
    | answered hend =>
      exact h.answers hnone hc (takeAnswer_answerTake np now d.clip) hend rfl

lemma Taking.step (h : Taking quoted left d) (hc : Clipped d.clip) (hstir : d.Stir quoted d') :
    Taking quoted left d' ∧ Clipped d'.clip ∧ ∀ reply, d.answered = some reply → d'.answered = some reply := by
  cases hstir with
  | turn hturn => exact h.turn hturn hc
  | beside hb => exact ⟨h.beside hb, hb.clipped hc, fun _ hr => hb.answered.trans hr⟩

structure Giving (quoted : String → String) (gen : ℕ) (mime : String) (data left : Bytes) (d : Door) : Prop
    extends Errand quoted (Ask.give gen (utf8 mime) data).request left [] [.gave (Control.given mime data)] d where
  given : d.answered = some .done → some (given mime data) ∈ d.clip.past

lemma Giving.opened (hlog : d.log = []) (now : ℕ) :
    Giving quoted gen mime data (Ask.give gen (utf8 mime) data).request (d.opened now) := by
  refine ⟨Errand.opened hlog now, ?_⟩
  intro hdone
  exact absurd hdone (by simp [Door.opened])

lemma answers_give (clip : Clipboard) : Answers (.give mime data) now [] [.gave (Control.given mime data)] clip :=
  fun _ => Or.inl ⟨rfl, did_setSelection clip (reply .done now) (some _)⟩

lemma given_mem_past (clip : Clipboard) :
    some (Control.given mime data) ∈ (answer (.give mime data) np now clip).2.past := by
  exact mem_append_right _ mem_cons_self

lemma Giving.turn (h : Giving quoted gen mime data left d) (hmime : mime ∈ moveTypes)
    (hshort : data.length ≤ maxMoveBytes) (hturn : d.Turn quoted now d') :
    Giving quoted gen mime data left d' ∧ (d.answered = some .done → d'.answered = some .done) := by
  by_cases hdone : d.answered = some .done
  · obtain ⟨hlinked, hd⟩ := h.toLinked.answered hturn hdone
    refine ⟨⟨h.toErrand.writing hlinked hd, fun _ => ?_⟩, fun _ => hd.answered.trans hdone⟩
    rw [hd.clip]
    exact h.given hdone
  · obtain ⟨herrand, -, -, hclip⟩ := h.toErrand.turn hturn (fun p hp => parse_give hmime hshort hp) (answers_give d.clip)
    refine ⟨⟨herrand, fun hdone' => ?_⟩, fun h => absurd h hdone⟩
    obtain ⟨-, hwas⟩ | ⟨np, hclip, -⟩ := hclip
    · exact absurd (hwas hdone') hdone
    · rw [hclip]
      exact given_mem_past d.clip

lemma Giving.step (h : Giving quoted gen mime data left d) (hmime : mime ∈ moveTypes)
    (hshort : data.length ≤ maxMoveBytes) (hstir : d.Stir quoted d') :
    Giving quoted gen mime data left d' ∧ (d.answered = some .done → d'.answered = some .done) := by
  cases hstir with
  | turn hturn => exact h.turn hmime hshort hturn
  | beside hb =>
    refine ⟨⟨h.toErrand.beside hb, fun hdone => ?_⟩, hb.answered.trans⟩
    exact hb.past.mem (h.given (hb.answered.symm.trans hdone))

structure Clearing (quoted : String → String) (gen : ℕ) (mime : String) (data : Bytes) (sel : Selection) (left : Bytes)
    (d : Door) : Prop
    extends Errand quoted (Ask.clear gen (utf8 mime) data.length).request left [.took gen gen mime data]
      [.took gen gen mime data, .cleared gen (some sel)] d where
  taken : Taken gen mime data sel d
  cleared : d.answered = some .done → d.clip.past[gen + 1]? = some none

lemma answers_clear (hc : Clipped clip) (hpast : clip.past[gen]? = some (some sel)) (e : Event) :
    Answers (.clear gen) now [e] [e, .cleared gen (some sel)] clip := by
  intro np
  by_cases hgen : gen = clip.generation
  · refine .inl ⟨?_, ?_⟩
    · simp [answer, if_pos hgen]
    · have hsel : clip.selection = some sel := by
        rw [hgen, hc.dated.now] at hpast
        exact Option.some_inj.mp hpast
      simp only [answer, if_pos hgen, did_setSelection, hsel]
      rw [hgen]
      rfl
  · refine .inr ⟨⟨.changedSince, ?_⟩, ?_⟩
    · simp [answer, if_neg hgen]
    · simp [answer, if_neg hgen]

lemma clear_follows (hc : Clipped clip) :
    clip.past <+: (answer (.clear gen) np now clip).2.past ∧ Clipped (answer (.clear gen) np now clip).2 := by
  unfold answer
  dsimp only
  split
  · have hf := follows_setSelection clip none
    exact ⟨hf.past, hc.follows hf (by simp)⟩
  · exact ⟨prefix_refl _, hc⟩

lemma past_cleared (hc : Clipped clip) (hdone : (answer (.clear gen) np now clip).1 = reply .done now) :
    (answer (.clear gen) np now clip).2.past[gen + 1]? = some none := by
  unfold answer at hdone ⊢
  dsimp only at hdone ⊢
  split_ifs at hdone ⊢ with hgen
  · have hf := follows_setSelection clip none
    have hdated := hf.dated hc.dated
    have hnow := hdated.now
    rw [hf.selection] at hnow
    rw [hgen]
    exact hnow
  · cases hdone

lemma Clearing.step (h : Clearing quoted gen mime data sel left d) (hgen : gen < u64) (hc : Clipped d.clip)
    (hstir : d.Stir quoted d') :
    Clearing quoted gen mime data sel left d' ∧ Clipped d'.clip ∧
      (d.answered = some .done → d'.answered = some .done) := by
  cases hstir with
  | turn hturn =>
    obtain ⟨herrand, hwritten, hclosed, hclip⟩ := h.toErrand.turn hturn (fun p hp => parse_clear hgen hp)
      (answers_clear hc h.taken.past _)
    have hall : (d.clip.past <+: d'.clip.past ∧ Clipped d'.clip) ∧
        (d'.answered = some .done → d'.clip.past[gen + 1]? = some none) := by
      obtain ⟨hclip, hwas⟩ | ⟨np, hclip, hreply⟩ := hclip
      · rw [hclip]
        exact ⟨⟨prefix_refl _, hc⟩, fun hdone => h.cleared (hwas hdone)⟩
      · rw [hclip]
        exact ⟨clear_follows hc, fun hdone => past_cleared hc (hreply hdone)⟩
    obtain ⟨⟨hpast, hc'⟩, hcleared⟩ := hall
    refine ⟨⟨herrand, h.taken.mono hpast fun hd => ⟨hwritten, hclosed.trans hd⟩, hcleared⟩, hc', ?_⟩
    intro hdone
    exact (h.toLinked.answered hturn hdone).2.answered.trans hdone
  | beside hb =>
    refine ⟨⟨h.toErrand.beside hb, h.taken.mono hb.past hb.pipe, fun hdone => ?_⟩, hb.clipped hc, hb.answered.trans⟩
    exact getElem?_extend hb.past (h.cleared (hb.answered.symm.trans hdone))

def Idle (d : Door) : Prop := d.move = none ∧ d.log = []

lemma Idle.step (h : Idle d) (hstir : d.Stir quoted d') : Idle d' ∧ (Clipped d.clip → Clipped d'.clip) := by
  cases hstir with
  | turn hturn =>
    obtain ⟨m, hm⟩ := hturn.move
    rw [h.1] at hm
    exact absurd hm (by simp)
  | beside hb => exact ⟨⟨hb.move.trans h.1, hb.log.trans h.2⟩, hb.clipped⟩

end Kryptik.Desktop
