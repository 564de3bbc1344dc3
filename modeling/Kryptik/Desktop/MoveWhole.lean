import Kryptik.Desktop.Doors

namespace Kryptik.Desktop

open Wlproxy Wlproxy.Wire Wlproxy.Control List Gesture Relation

variable {quoted : String → String} {g g' : Gesture} {s t d d' : Door} {a : Ask} {gen : ℕ} {mime : String}
  {sel : Selection} {left left' front data p : Bytes} {l : Launch}

def Launch.Stopped (l : Launch) : Prop := ∃ o, l = .ended o ∧ ∀ n type, o ≠ .moved n type

structure Took (quoted : String → String) (left : Bytes) (gen : ℕ) (mime : String) (data : Bytes) (d : Door) : Prop
    extends Taking quoted left d where
  answered : d.answered = some (.taken gen mime data)

structure Gave (quoted : String → String) (gen : ℕ) (mime : String) (data left : Bytes) (d : Door) : Prop
    extends Giving quoted gen mime data left d where
  answered : d.answered = some .done

/-- What of the gesture each proxy has done, and where `kryptik-launch` is then if it has not stopped. -/
inductive Stage (quoted : String → String) (s t : Door) : Launch → Prop
  | idle (hs : Idle s) (ht : Idle t) : Stage quoted s t (.next .take)
  | taking {left : Bytes} (hs : Taking quoted left s) (ht : Idle t) : Stage quoted s t (.asking .take left)
  | took {left data : Bytes} {gen : ℕ} {mime : String} (hs : Took quoted left gen mime data s) (ht : Idle t) :
      Stage quoted s t (.next (.give gen (utf8 mime) data))
  | giving {left left' data : Bytes} {gen : ℕ} {mime : String} (hs : Took quoted left gen mime data s)
      (ht : Giving quoted gen mime data left' t) : Stage quoted s t (.asking (.give gen (utf8 mime) data) left')
  | gave {left left' data : Bytes} {gen : ℕ} {mime : String} (hs : Took quoted left gen mime data s)
      (ht : Gave quoted gen mime data left' t) : Stage quoted s t (.next (.clear gen (utf8 mime) data.length))
  | clearing {left left' data : Bytes} {gen : ℕ} {mime : String} {sel : Selection}
      (hs : Clearing quoted gen mime data sel left s) (ht : Gave quoted gen mime data left' t) :
      Stage quoted s t (.asking (.clear gen (utf8 mime) data.length) left)
  | moved {left left' data : Bytes} {gen : ℕ} {mime : String} {sel : Selection}
      (hs : Clearing quoted gen mime data sel left s) (ht : Gave quoted gen mime data left' t)
      (hdone : s.answered = some .done) : Stage quoted s t (.ended (.moved data.length (utf8 mime)))

lemma stopped_broker : Launch.Stopped (.ended .broker) := ⟨_, rfl, by simp⟩

lemma stopped_nothing (why : Bytes) : Launch.Stopped (.ended (.nothing why)) := ⟨_, rfl, by simp⟩

lemma stopped_copied (n : ℕ) (type why : Bytes) : Launch.Stopped (.ended (.copied n type why)) := ⟨_, rfl, by simp⟩

lemma Took.taken (h : Took quoted left gen mime data d) :
    ∃ sel, Taken gen mime data sel d ∧ d.log = [.took gen gen mime data] := by
  have hans := h.answered
  obtain ⟨-, hnone | hempty | ⟨why, hwhy⟩⟩ | ⟨gen', mime', data', sel, htaken, hlog, hfacts⟩ := h.result
  · cases hans.symm.trans hnone
  · cases hans.symm.trans hempty
  · cases hans.symm.trans hwhy
  · obtain ⟨rfl, rfl, rfl⟩ := Reply.taken.inj (Option.some_inj.mp (hans.symm.trans htaken))
    exact ⟨sel, hfacts, hlog⟩

lemma Taken.carried (h : Taken gen mime data sel d) : mime ∈ Policy.moveTypes := mem_of_find?_eq_some h.type

lemma Taken.counted (h : Taken gen mime data sel d) (hc : Clipped d.clip) (hcount : d.clip.generation < u64) :
    gen < u64 := by
  have hlt := (List.getElem?_eq_some_iff.mp h.past).1
  rw [hc.dated.length] at hlt
  omega

lemma Took.step (h : Took quoted left gen mime data d) (hc : Clipped d.clip) (hstir : d.Stir quoted d') :
    Took quoted left gen mime data d' ∧ Clipped d'.clip := by
  obtain ⟨htaking, hclip, hkept⟩ := h.toTaking.step hc hstir
  exact ⟨⟨htaking, hkept _ h.answered⟩, hclip⟩

lemma Gave.step (h : Gave quoted gen mime data left d) (htaken : Taken gen mime data sel s)
    (hstir : d.Stir quoted d') : Gave quoted gen mime data left d' := by
  obtain ⟨hgiving, hkept⟩ := h.toGiving.step htaken.carried htaken.short hstir
  exact ⟨hgiving, hkept h.answered⟩

lemma Stage.source (h : Stage quoted s t l) (hc : Clipped s.clip) (hcount : s.clip.generation < u64)
    (hstir : s.Stir quoted d) : Clipped d.clip ∧ Stage quoted d t l := by
  cases h with
  | idle hs ht =>
    obtain ⟨hs', hclip⟩ := hs.step hstir
    exact ⟨hclip hc, .idle hs' ht⟩
  | taking hs ht =>
    obtain ⟨hs', hclip, -⟩ := hs.step hc hstir
    exact ⟨hclip, .taking hs' ht⟩
  | took hs ht =>
    obtain ⟨hs', hclip⟩ := hs.step hc hstir
    exact ⟨hclip, .took hs' ht⟩
  | giving hs ht =>
    obtain ⟨hs', hclip⟩ := hs.step hc hstir
    exact ⟨hclip, .giving hs' ht⟩
  | gave hs ht =>
    obtain ⟨hs', hclip⟩ := hs.step hc hstir
    exact ⟨hclip, .gave hs' ht⟩
  | clearing hs ht =>
    obtain ⟨hs', hclip, -⟩ := hs.step (hs.taken.counted hc hcount) hc hstir
    exact ⟨hclip, .clearing hs' ht⟩
  | moved hs ht hdone =>
    obtain ⟨hs', hclip, hkept⟩ := hs.step (hs.taken.counted hc hcount) hc hstir
    exact ⟨hclip, .moved hs' ht (hkept hdone)⟩

lemma Stage.target (h : Stage quoted s t l) (hstir : t.Stir quoted d) : Stage quoted s d l := by
  cases h with
  | idle hs ht => exact .idle hs (ht.step hstir).1
  | taking hs ht => exact .taking hs (ht.step hstir).1
  | took hs ht => exact .took hs (ht.step hstir).1
  | giving hs ht =>
    obtain ⟨sel, htaken, -⟩ := hs.taken
    exact .giving hs (ht.step htaken.carried htaken.short hstir).1
  | gave hs ht =>
    obtain ⟨sel, htaken, -⟩ := hs.taken
    exact .gave hs (ht.step htaken hstir)
  | clearing hs ht => exact .clearing hs (ht.step hs.taken hstir)
  | moved hs ht hdone => exact .moved hs (ht.step hs.taken hstir) hdone

lemma Stage.stir {side : Side} (h : Stage quoted g.source g.target l) (hc : Clipped g.source.clip)
    (hcount : g.source.clip.generation < u64) (hstir : (g.door side).Stir quoted d) :
    Clipped (g.setDoor side d).source.clip ∧ Stage quoted (g.setDoor side d).source (g.setDoor side d).target l := by
  cases side with
  | source => exact h.source hc hcount hstir
  | target => exact ⟨hc, h.target hstir⟩

lemma Stage.connect (h : Stage quoted g.source g.target (.next a)) (now : ℕ) :
    Stage quoted (g.setDoor a.side ((g.door a.side).opened now)).source
      (g.setDoor a.side ((g.door a.side).opened now)).target (.asking a a.request) := by
  cases h with
  | idle hs ht => exact .taking (.opened hs.2 now) ht
  | took hs ht => exact .giving hs (.opened ht.2 now)
  | gave hs ht =>
    obtain ⟨sel, htaken, hlog⟩ := hs.taken
    refine .clearing ⟨.opened hlog now, htaken.mono (prefix_refl _) fun hclosed => ⟨rfl, hclosed⟩, fun hdone => ?_⟩ ht
    cases hdone

lemma Stage.send (h : Stage quoted g.source g.target (.asking a (front ++ left)))
    (hd : d = { g.door a.side with inbox := (g.door a.side).inbox ++ front }) :
    Stage quoted (g.setDoor a.side d).source (g.setDoor a.side d).target (.asking a left) := by
  subst hd
  generalize hall : front ++ left = all at h
  cases h with
  | taking hs ht => exact .taking (hall ▸ hs).sent ht
  | giving hs ht => exact .giving hs ⟨(hall ▸ ht).toErrand.sent, ht.given⟩
  | clearing hs ht =>
    refine .clearing ⟨(hall ▸ hs).toErrand.sent, ?_, hs.cleared⟩ ht
    exact hs.taken.mono (prefix_refl _) fun hclosed => ⟨rfl, hclosed⟩

lemma onAnswer_absent (a : Ask) : Launch.Stopped (onAnswer a none) := by
  cases a with
  | take => exact stopped_broker
  | give generation type data => exact stopped_nothing _
  | clear generation type length => exact stopped_copied _ _ _

lemma onAnswer_unsent (a : Ask) (memory : Bool) (received : Bytes) :
    Launch.Stopped (onAnswer a (some (answerOf false memory received))) := by
  cases a with
  | take | give generation type data => exact stopped_nothing _
  | clear generation type length => exact stopped_copied _ _ _

lemma stopped_give (gen : ℕ) {answer : Answer} {type : Bytes} (hline : answer.line ≠ utf8 "ok") :
    Launch.Stopped (onAnswer (.give gen type data) (some answer)) := by
  simp only [onAnswer, if_neg hline]
  exact stopped_nothing _

lemma stopped_clear (gen : ℕ) {answer : Answer} {type : Bytes} {n : ℕ} (hline : answer.line ≠ utf8 "ok") :
    Launch.Stopped (onAnswer (.clear gen type n) (some answer)) := by
  simp only [onAnswer, if_neg hline]
  exact stopped_copied _ _ _

lemma onAnswer_take (h : Taking quoted left d) (hc : Clipped d.clip) (hcount : d.clip.generation < u64) (memory : Bool)
    (hp : p <+: d.outbox) :
    Launch.Stopped (onAnswer .take (some (answerOf true memory p))) ∨
      ∃ gen mime data, d.answered = some (.taken gen mime data) ∧
        onAnswer .take (some (answerOf true memory p)) = .next (.give gen (utf8 mime) data) := by
  have hreply := hp.trans h.outbox
  by_cases hempty : (answerOf true memory p).line = utf8 "empty"
  · simp only [onAnswer, if_pos hempty]
    exact .inl stopped_broker
  · simp only [onAnswer, if_neg hempty]
    cases hdata : (answerOf true memory p).data with
    | none => exact .inl (stopped_nothing _)
    | some x =>
      obtain ⟨-, hnone⟩ | ⟨gen, mime, data, sel, hans, -, htaken⟩ := h.result
      · have hcut : ∃ rest, p <+: 101 :: rest := by
          obtain hnone | hnone | ⟨why, hnone⟩ := hnone
          · rw [hnone] at hreply
            exact ⟨[], hreply.trans nil_prefix⟩
          · rw [hnone] at hreply
            exact ⟨_, hreply⟩
          · rw [hnone] at hreply
            exact ⟨_, hreply⟩
        obtain ⟨rest, hcut⟩ := hcut
        rw [(heard_error hcut).1] at hdata
        exact absurd hdata (by simp)
      · have hreply : p <+: (Reply.taken gen mime data).bytes quoted := by
          rw [hans] at hreply
          exact hreply
        obtain ⟨rfl, rest, hscan⟩ := heard_taken htaken.carried (htaken.counted hc hcount) htaken.short hreply hdata
        rw [hscan]
        exact .inr ⟨gen, mime, _, hans, rfl⟩

lemma Errand.heard {request : Bytes} {undone done : List Event} (h : Errand quoted request left undone done d)
    {memory : Bool} (hp : p <+: d.outbox) (hline : (answerOf true memory p).line = utf8 "ok") :
    d.answered = some .done := by
  have hreply := hp.trans h.outbox
  obtain ⟨-, hdone⟩ | ⟨-, hnone | ⟨why, hwhy⟩⟩ := h.result
  · exact hdone
  · rw [hnone] at hreply
    have hnothing : p <+: 101 :: [] := hreply.trans nil_prefix
    exact absurd hline (heard_error hnothing).2
  · rw [hwhy] at hreply
    have hr := heard_done hline (.inr ⟨why, rfl⟩) hreply
    exact absurd hr (by simp)

lemma Stage.hear (h : Stage quoted g.source g.target (.asking a left)) (hc : Clipped g.source.clip)
    (hcount : g.source.clip.generation < u64) (memory : Bool) (hp : p <+: (g.door a.side).outbox) :
    Launch.Stopped (onAnswer a (some (answerOf true memory p))) ∨
      Stage quoted g.source g.target (onAnswer a (some (answerOf true memory p))) := by
  cases h with
  | taking hs ht =>
    obtain hstopped | ⟨gen, mime, data, hans, hnext⟩ := onAnswer_take hs hc hcount memory hp
    · exact .inl hstopped
    · exact .inr (hnext ▸ .took ⟨hs, hans⟩ ht)
  | @giving _ _ _ gen _ hs ht =>
    by_cases hline : (answerOf true memory p).line = utf8 "ok"
    · rw [onAnswer, if_pos hline]
      exact .inr (.gave hs ⟨ht, ht.toErrand.heard hp hline⟩)
    · exact .inl (stopped_give gen hline)
  | @clearing _ _ _ gen _ _ hs ht =>
    by_cases hline : (answerOf true memory p).line = utf8 "ok"
    · rw [onAnswer, if_pos hline]
      exact .inr (.moved hs ht (hs.toErrand.heard hp hline))
    · exact .inl (stopped_clear gen hline)

lemma Clipped.setDoor (hc : Clipped g.source.clip) (l : Launch) (side : Side)
    (hd : d.clip = (g.door side).clip) : Clipped ({ g with launch := l }.setDoor side d).source.clip := by
  cases side with
  | source =>
    have hsame : d.clip = g.source.clip := hd
    exact hsame ▸ hc
  | target => exact hc

lemma Gesture.launch_setDoor (g : Gesture) (side : Side) (d : Door) : (g.setDoor side d).launch = g.launch := by
  cases side <;> rfl

structure Carried (quoted : String → String) (g : Gesture) : Prop where
  clipped : Clipped g.source.clip
  counted : g.source.clip.generation < u64
  stage : ∃ l, Stage quoted g.source g.target l ∧ (g.launch = l ∨ g.launch.Stopped)

lemma Carried.start (h : g.Start) : Carried quoted g :=
  ⟨⟨h.dated, h.held⟩, h.counted, _, .idle h.source h.target, Or.inl h.launch⟩

lemma Carried.running (h : Carried quoted g) (hl : g.launch = l) (hrun : ∀ o, l ≠ .ended o) :
    Stage quoted g.source g.target l := by
  obtain ⟨l', hs, hl' | ⟨o, ho, -⟩⟩ := h.stage
  · obtain rfl : l = l' := hl.symm.trans hl'
    exact hs
  · exact absurd (hl.symm.trans ho) (hrun o)

lemma Carried.step (h : Carried quoted g) (hstep : g.Moves quoted g') : Carried quoted g' := by
  obtain ⟨hstep, hcount⟩ := hstep
  suffices ∃ l, (Clipped g'.source.clip ∧ Stage quoted g'.source g'.target l) ∧ (g'.launch = l ∨ g'.launch.Stopped) by
    obtain ⟨l, ⟨hclip, hs⟩, hl⟩ := this
    exact ⟨hclip, hcount, l, hs, hl⟩
  cases hstep with
  | @absent a hlaunch => exact ⟨_, ⟨h.clipped, h.running hlaunch (by simp)⟩, Or.inr (onAnswer_absent a)⟩
  | @connect a now hlaunch =>
    rw [launch_setDoor]
    have hs := Stage.connect (g := { g with launch := .asking a a.request }) (h.running hlaunch (by simp)) now
    exact ⟨_, ⟨h.clipped.setDoor _ _ rfl, hs⟩, Or.inl rfl⟩
  | send hlaunch =>
    rw [launch_setDoor]
    have hs := h.running hlaunch (by simp)
    exact ⟨_, ⟨h.clipped.setDoor _ _ rfl, Stage.send (g := { g with launch := _ }) hs rfl⟩, Or.inl rfl⟩
  | shut hlaunch =>
    rw [launch_setDoor]
    exact ⟨_, (h.running hlaunch (by simp)).stir h.clipped h.counted (.shut _), Or.inl hlaunch⟩
  | @unsent a _ memory received hlaunch =>
    rw [launch_setDoor]
    have hs := h.running hlaunch (by simp)
    exact ⟨_, Stage.stir (g := { g with launch := _ }) hs h.clipped h.counted (.shut _),
      .inr (onAnswer_unsent a memory received)⟩
  | hear memory hlaunch hreceived =>
    rw [launch_setDoor]
    have hs := h.running hlaunch (by simp)
    obtain hstopped | hnext := hs.hear h.clipped h.counted memory hreceived
    · exact ⟨_, Stage.stir (g := { g with launch := _ }) hs h.clipped h.counted (.shut _), .inr hstopped⟩
    · exact ⟨_, Stage.stir (g := { g with launch := _ }) hnext h.clipped h.counted (.shut _), .inl rfl⟩
  | door hdoor =>
    obtain ⟨l, hs, hl⟩ := h.stage
    rw [launch_setDoor]
    exact ⟨l, hs.stir h.clipped h.counted hdoor.stir, hl⟩

lemma Carried.run {g0 : Gesture} (h : Carried quoted g0) (hrun : ReflTransGen (Gesture.Moves quoted) g0 g) :
    Carried quoted g := by
  induction hrun with
  | refl => exact h
  | tail _ hstep ih => exact ih.step hstep

lemma Errand.logged {request : Bytes} {undone done : List Event} (h : Errand quoted request left undone done d)
    (hdone : d.answered = some .done) : d.log = done := by
  obtain ⟨hlog, -⟩ | ⟨-, hnone | ⟨why, hwhy⟩⟩ := h.result
  · exact hlog
  · cases hdone.symm.trans hnone
  · cases hdone.symm.trans hwhy

lemma Giving.log (h : Giving quoted gen mime data left d) :
    d.log = [] ∨ (d.log = [.gave (Control.given mime data)] ∧ some (Control.given mime data) ∈ d.clip.past) := by
  obtain ⟨hlog, hdone⟩ | ⟨hlog, -⟩ := h.result
  · exact .inr ⟨hlog, h.given hdone⟩
  · exact .inl hlog

lemma Gave.log (h : Gave quoted gen mime data left d) :
    d.log = [.gave (Control.given mime data)] ∧ some (Control.given mime data) ∈ d.clip.past :=
  ⟨h.toErrand.logged h.answered, h.given h.answered⟩

/-- A move is whole or not at all. In every run FROM's proxy took one selection at most, the one there was when
it answered; TO's made just those bytes its selection, in the type that was taken; only then did the move change FROM's
clipboard, and what it cleared was that selection, with none copied since. When the gesture says it moved, all three
were done. -/
theorem clipboard_move_whole {g0 : Gesture} (hstart : g0.Start)
    (hrun : ReflTransGen (Gesture.Moves quoted) g0 g) :
    (g.source.log = [] ∧ g.target.log = [] ∧ ∀ n type, g.launch ≠ .ended (.moved n type)) ∨
      ∃ gen mime data sel, g.source.clip.past[gen]? = some (some sel) ∧
        Policy.moveTypes.find? (· ∈ sel.mimes) = some mime ∧
        (sel.data = some data ∨ (sel.data = none ∧ g.source.written = data ∧ g.source.closed = true)) ∧
        ((g.source.log = [.took gen gen mime data] ∧
            (g.target.log = [] ∨
              (g.target.log = [.gave (given mime data)] ∧ some (given mime data) ∈ g.target.clip.past)) ∧
            ∀ n type, g.launch ≠ .ended (.moved n type)) ∨
          (g.source.log = [.took gen gen mime data, .cleared gen (some sel)] ∧
            g.source.clip.past[gen + 1]? = some none ∧ g.target.log = [.gave (given mime data)] ∧
            some (given mime data) ∈ g.target.clip.past ∧
            ∀ n type, g.launch = .ended (.moved n type) → n = data.length ∧ type = utf8 mime)) := by
  obtain ⟨-, -, l, hstage, hlaunch⟩ := (Carried.start hstart).run hrun
  have hquiet (hl : ∀ n type, l ≠ .ended (.moved n type)) (n : ℕ) (type : Bytes) : g.launch ≠ .ended (.moved n type) := by
    obtain rfl | ⟨o, ho, hne⟩ := hlaunch
    · exact hl n type
    · rw [ho]
      exact fun hmoved => hne n type (Launch.ended.inj hmoved)
  cases hstage with
  | idle hs ht => exact .inl ⟨hs.2, ht.2, hquiet (by simp)⟩
  | taking hs ht =>
    obtain ⟨hlog, -⟩ | ⟨gen, mime, data, sel, -, hlog, htaken⟩ := hs.result
    · exact .inl ⟨hlog, ht.2, hquiet (by simp)⟩
    · exact .inr ⟨gen, mime, data, sel, htaken.past, htaken.type, htaken.bytes,
        .inl ⟨hlog, .inl ht.2, hquiet (by simp)⟩⟩
  | @took _ data gen mime hs ht =>
    obtain ⟨sel, htaken, hlog⟩ := hs.taken
    exact .inr ⟨gen, mime, data, sel, htaken.past, htaken.type, htaken.bytes,
      .inl ⟨hlog, .inl ht.2, hquiet (by simp)⟩⟩
  | @giving _ _ data gen mime hs ht =>
    obtain ⟨sel, htaken, hlog⟩ := hs.taken
    exact .inr ⟨gen, mime, data, sel, htaken.past, htaken.type, htaken.bytes, .inl ⟨hlog, ht.log, hquiet (by simp)⟩⟩
  | @gave _ _ data gen mime hs ht =>
    obtain ⟨sel, htaken, hlog⟩ := hs.taken
    exact .inr ⟨gen, mime, data, sel, htaken.past, htaken.type, htaken.bytes,
      .inl ⟨hlog, .inr ht.log, hquiet (by simp)⟩⟩
  | @clearing _ _ data gen mime sel hs ht =>
    refine .inr ⟨gen, mime, data, sel, hs.taken.past, hs.taken.type, hs.taken.bytes, ?_⟩
    obtain ⟨hlog, hdone⟩ | ⟨hlog, -⟩ := hs.result
    · exact .inr ⟨hlog, hs.cleared hdone, ht.log.1, ht.log.2, fun n type hl => absurd hl (hquiet (by simp) n type)⟩
    · exact .inl ⟨hlog, .inr ht.log, hquiet (by simp)⟩
  | @moved _ _ data gen mime sel hs ht hdone =>
    refine .inr ⟨gen, mime, data, sel, hs.taken.past, hs.taken.type, hs.taken.bytes, .inr ?_⟩
    refine ⟨hs.toErrand.logged hdone, hs.cleared hdone, ht.log.1, ht.log.2, fun n type hl => ?_⟩
    obtain hl' | ⟨o, ho, hne⟩ := hlaunch
    · exact Outcome.moved.inj (Launch.ended.inj (hl.symm.trans hl'))
    · exact absurd (Launch.ended.inj (ho.symm.trans hl)) (hne n type)

def Door.replied (d : Door) (reply : Reply) (c : Clipboard) (events : List Event) : Door :=
  { d.opened 0 with
    clip := c, move := some (Control.reply reply 0), answered := some reply, log := d.log ++ events }

def Door.heard (quoted : String → String) (d : Door) : Door :=
  { d with move := none, outbox := (d.answered.map (Reply.bytes quoted)).getD [], shut := true }

section

variable {r : Request} {reply : Reply} {c : Clipboard} {events : List Event}

lemma turn_replied (hparse : parse a.request = .ok (some r)) (hne : a.request ≠ [])
    (hanswer : answer r none 0 d.clip = (Control.reply reply 0, c))
    (hevents : events = Door.did d.clip (.on (Control.reply reply 0) c) ++
      Door.taken d.clip (.on (Control.reply reply 0) c)) :
    Door.Turn quoted 0 { d.opened 0 with inbox := a.request } (d.replied reply c events) := by
  have hend : .on (Control.reply reply 0) c =
      (stepOnce { conn := [.got a.request], newPipe := none } 0 (Control.new 0) d.clip).1 := by
    simp [stepOnce, Control.new, onRequest, hparse, hanswer]
  have hturn : Door.Turn quoted 0 { d.opened 0 with inbox := a.request } _ :=
    .request none rfl rfl (.got hne (append_nil _).symm) hend
  rw [hevents]
  exact hturn

lemma turn_written (d : Door) (reply : Reply) (c : Clipboard) (events : List Event) :
    (d.replied reply c events).Turn quoted 0
      { d.replied reply c events with move := none, outbox := reply.bytes quoted } := by
  have hend : .over = (stepOnce { out := [.wrote (decide ([] ++ reply.bytes quoted = reply.bytes quoted))] } 0
      (Control.reply reply 0) c).1 := by
    simp [stepOnce, Control.reply, onReplying]
  have hturn : (d.replied reply c events).Turn quoted 0 _ :=
    .replying (m := Control.reply reply 0) rfl rfl (.wrote (prefix_refl ([] ++ reply.bytes quoted))) hend
  have hquiet : Door.did (d.replied reply c events).clip .over = [] := rfl
  rw [hquiet, Door.logged_nil] at hturn
  exact hturn

def Gesture.at (g : Gesture) (side : Side) (l : Launch) (d : Door) : Gesture := { g with launch := l }.setDoor side d

lemma ask_heard (hlaunch : g.launch = .next a) (hd : g.door a.side = d) (hfree : d.move = none)
    (hparse : parse a.request = .ok (some r)) (hne : a.request ≠ [])
    (hanswer : answer r none 0 d.clip = (Control.reply reply 0, c))
    (hevents : events = Door.did d.clip (.on (Control.reply reply 0) c) ++
      Door.taken d.clip (.on (Control.reply reply 0) c))
    (hcount : g.source.clip.generation < u64) (hnew : c.generation < u64)
    (hnext : onAnswer a (some (answerOf true true (reply.bytes quoted))) = l) :
    ReflTransGen (Gesture.Moves quoted) g (g.at a.side l ((d.replied reply c events).heard quoted)) := by
  subst hnext hd
  have hdoor {d d' : Door} (h : d.Turn quoted 0 d') (hd' : d'.clip = c) :
      (g.at a.side (.asking a []) d).Moves quoted (g.at a.side (.asking a []) d') := by
    subst hd'
    cases a with
    | take | clear generation type length => exact ⟨@Gesture.Step.door quoted _ .source _ (.turn h), hnew⟩
    | give generation type data => exact ⟨@Gesture.Step.door quoted _ .target _ (.turn h), hcount⟩
  have hreplied := hdoor (turn_replied hparse hne hanswer hevents) rfl
  have hwritten := hdoor (turn_written (g.door a.side) reply c events) rfl
  have hasking (d : Door) : (g.at a.side (.asking a []) d).launch = .asking a [] := by
    cases a <;> rfl
  have hsent : Launch.asking a a.request = .asking a (a.request ++ []) := by rw [append_nil]
  cases a with
  | take | give generation type data | clear generation type length =>
    have hopen : g.Moves quoted _ := ⟨.connect 0 hlaunch hfree, hcount⟩
    refine .head hopen (.head ⟨.send hsent, hcount⟩ (.head hreplied (.head hwritten (.single ?_))))
    exact ⟨.hear true (hasking _) (prefix_refl _), hwritten.2⟩

end

def brought : Gesture where
  launch := .next .take
  source := ⟨⟨none, some (given "text/plain" [104, 105]), 1, [], [none, some (given "text/plain" [104, 105])]⟩,
    none, [], false, [], [], false, none, [], []⟩
  target := ⟨{}, none, [], false, [], [], false, none, [], []⟩

lemma brought_start : brought.Start := by
  refine ⟨rfl, ⟨rfl, rfl⟩, ⟨rfl, rfl⟩, ?_, ⟨rfl, rfl⟩, by decide⟩
  intro sel data hsel hdata
  cases hsel
  cases hdata
  decide

lemma brought_moved : ∃ g, ReflTransGen (Gesture.Moves id) brought g ∧
    g.launch = .ended (.moved 2 (utf8 "text/plain")) := by
  have htake : ReflTransGen (Gesture.Moves id) brought
      (brought.at .source (.next (.give 1 (utf8 "text/plain") [104, 105]))
        ((brought.source.replied (.taken 1 "text/plain" [104, 105]) brought.source.clip _).heard id)) :=
    ask_heard (a := .take) (r := .take) rfl rfl rfl (by decide) (by decide) rfl rfl (by decide) (by decide) (by decide)
  generalize hg : Gesture.at _ _ _ _ = g1 at htake
  have hgive : ReflTransGen (Gesture.Moves id) g1
      (g1.at .target (.next (.clear 1 (utf8 "text/plain") 2)) ((g1.target.replied .done _ _).heard id)) :=
    ask_heard (a := .give 1 (utf8 "text/plain") [104, 105]) (r := .give "text/plain" [104, 105])
      (by rw [← hg]; rfl) rfl (by rw [← hg]; rfl) (by decide) (by decide) rfl rfl (by rw [← hg]; decide)
      (by rw [← hg]; decide) (by decide)
  generalize hg' : Gesture.at _ _ _ _ = g2 at hgive
  have hclear : ReflTransGen (Gesture.Moves id) g2
      (g2.at .source (.ended (.moved 2 (utf8 "text/plain"))) ((g2.source.replied .done _ _).heard id)) :=
    ask_heard (a := .clear 1 (utf8 "text/plain") 2) (r := .clear 1)
      (by rw [← hg']; rfl) rfl (by rw [← hg', ← hg]; rfl) (by decide) (by decide) (by rw [← hg', ← hg]; rfl) rfl
      (by rw [← hg', ← hg]; decide) (by decide) (by decide)
  exact ⟨_, (htake.trans hgive).trans hclear, rfl⟩

theorem clipboard_move_whole_brought : ∃ g, ReflTransGen (Gesture.Moves id) brought g ∧
    g.launch = .ended (.moved 2 (utf8 "text/plain")) ∧
    ∃ gen mime data sel, g.source.log = [.took gen gen mime data, .cleared gen (some sel)] ∧
      g.source.clip.past[gen + 1]? = some none ∧ g.target.log = [.gave (given mime data)] ∧ data.length = 2 := by
  obtain ⟨g, hrun, hmoved⟩ := brought_moved
  refine ⟨g, hrun, hmoved, ?_⟩
  obtain ⟨-, -, hne⟩ | ⟨gen, mime, data, sel, -, -, -, ⟨-, -, hne⟩ | ⟨hsource, hnone, htarget, -, hlen⟩⟩ :=
    clipboard_move_whole brought_start hrun
  · exact absurd hmoved (hne _ _)
  · exact absurd hmoved (hne _ _)
  · exact ⟨gen, mime, data, sel, hsource, hnone, htarget, (hlen _ _ hmoved).1.symm⟩

end Kryptik.Desktop
