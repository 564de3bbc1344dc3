import Kryptik.Desktop.Gesture
import Kryptik.Desktop.MoveText

namespace Kryptik.Desktop

open Wlproxy Wlproxy.Wire Wlproxy.Control List Door

variable {quoted : String → String} {now n gen : ℕ} {d d' : Door} {request left data type rest whole : Bytes}
  {mime : String} {sel : Selection} {r : Request} {np : Option Fd} {m : Control} {clip : Clipboard}

/-- How a turn on a request can end that asks for `r` once it has all come. -/
inductive Requested (np : Option Fd) (now : ℕ) (r : Request) (m : Control) (whole rest : Bytes) (d : Door) :
    Door → Prop
  | closed : Requested np now r m whole rest d { d with inbox := rest, move := none }
  | refused (why : Refusal) : Requested np now r m whole rest d
      { d with inbox := rest, move := some (refuse why now), answered := some (.refused why) }
  | waits (buf : Bytes) (hbuf : buf ++ rest = whole) : Requested np now r m whole rest d
      { d with inbox := rest, move := some { m with state := .request buf } }
  | answered {ended : Went} (hend : ended = .on (answer r np now d.clip).1 (answer r np now d.clip).2) :
      Requested np now r m whole rest d
        ((({ d with inbox := rest }.went ended).piped ended).logged (did d.clip ended ++ Door.taken d.clip ended))

lemma Door.logged_nil (d : Door) : d.logged [] = d := by
  simp [Door.logged]

variable {buf : Bytes} {ended : Went}

lemma requested_onRequest (np : Option Fd) (now : ℕ) (d : Door) (eof : Bool)
    (hparse : parse buf = .ok none ∨ parse buf = .ok (some r)) (hbuf : buf ++ rest = whole)
    (hend : ended = onRequest m buf eof np now d.clip) :
    Requested np now r m whole rest d ((({ d with inbox := rest }.went ended).piped ended).logged
      (did d.clip ended ++ Door.taken d.clip ended)) := by
  unfold onRequest at hend
  obtain hparse | hparse := hparse
  · rw [hparse] at hend
    split_ifs at hend
    · rw [hend]
      exact (logged_nil _).symm ▸ .closed
    · rw [hend, refuse, did_same rfl rfl]
      exact (logged_nil _).symm ▸ .refused .lateRequest
    · rw [hend, refuse, did_same rfl rfl]
      exact (logged_nil _).symm ▸ .refused .overBound
    · rw [hend]
      exact (logged_nil _).symm ▸ .waits buf hbuf
  · rw [hparse] at hend
    exact .answered hend

lemma requested_turn {np : Option Fd} {read : Read} (hstate : m.state = .request buf)
    (hread : Reads d.inbox d.shut read rest)
    (hparse : ∀ p, p <+: buf ++ d.inbox → parse p = .ok none ∨ parse p = .ok (some r))
    (hend : ended = (stepOnce { conn := [read], newPipe := np } now m d.clip).1) :
    Requested np now r m (buf ++ d.inbox) rest d ((({ d with inbox := rest }.went ended).piped ended).logged
      (did d.clip ended ++ Door.taken d.clip ended)) := by
  have hbuf := hparse buf (prefix_append _ _)
  simp only [stepOnce, hstate] at hend
  cases hread with
  | wouldBlock => exact requested_onRequest np now d false hbuf rfl hend
  | failed =>
    rw [hend]
    exact (logged_nil _).symm ▸ .closed
  | eof hempty _ => exact requested_onRequest np now d true hbuf (by rw [hempty]) hend
  | got hfront hstream =>
    rw [hstream, ← append_assoc] at hparse
    have hmore := hparse _ (prefix_append _ rest)
    exact requested_onRequest np now d false hmore (by rw [hstream, append_assoc]) hend

lemma Door.Turn.move (hturn : d.Turn quoted now d') : ∃ m, d.move = some m := by
  cases hturn with
  | request _ hm | taking hm | replying hm => exact ⟨_, hm⟩

lemma Door.Turn.requested (hturn : d.Turn quoted now d') (hm : d.move = some m)
    (hstate : m.state = .request buf)
    (hparse : ∀ p, p <+: buf ++ d.inbox → parse p = .ok none ∨ parse p = .ok (some r)) :
    ∃ np rest, Requested np now r m (buf ++ d.inbox) rest d d' := by
  cases hturn with
  | request newPipe hm' hstate' hread hend =>
    cases hm.symm.trans hm'
    obtain rfl := State.request.inj (hstate.symm.trans hstate')
    exact ⟨_, _, requested_turn hstate hread hparse hend⟩
  | taking hm' hstate' | replying hm' hstate' =>
    cases hm.symm.trans hm'
    exact absurd (hstate.symm.trans hstate') (by simp)

/-- What is so of the answer, and of the request, in a state of the move. -/
def Due (request left inbox : Bytes) (answered : Option Reply) : State → Prop
  | .request buf => buf ++ inbox ++ left = request ∧ answered = none
  | .taking .. => answered = none
  | .replying reply => answered = some reply

/-- The request comes through the connection, and the answer goes back through it. -/
structure Linked (quoted : String → String) (request left : Bytes) (d : Door) : Prop where
  due : ∀ m, d.move = some m → Due request left d.inbox d.answered m.state
  outbox : d.outbox <+: (d.answered.map (Reply.bytes quoted)).getD []

lemma Linked.due_of (h : Linked quoted request left d) (hm : d.move = some m) {state : State} (hstate : m.state = state) :
    Due request left d.inbox d.answered state := hstate ▸ h.due m hm

lemma Linked.opened (now : ℕ) : Linked quoted request request (d.opened now) := by
  refine ⟨fun m hm => ?_, nil_prefix⟩
  cases hm
  exact ⟨rfl, rfl⟩

lemma Linked.congr (h : Linked quoted request left d) (hmove : d'.move = d.move) (hinbox : d'.inbox = d.inbox)
    (houtbox : d'.outbox = d.outbox) (hanswered : d'.answered = d.answered) : Linked quoted request left d' := by
  refine ⟨?_, ?_⟩
  · rw [hmove, hinbox, hanswered]
    exact h.due
  · rw [houtbox, hanswered]
    exact h.outbox

lemma Linked.sent {front : Bytes} (h : Linked quoted request (front ++ left) d) :
    Linked quoted request left { d with inbox := d.inbox ++ front } := by
  refine ⟨fun m hm => ?_, h.outbox⟩
  have hdue := h.due m hm
  revert hdue
  cases m.state <;> simp [Due]

lemma Linked.over (h : Linked quoted request left d) (hmove : d'.move = none) (houtbox : d'.outbox = d.outbox)
    (hanswered : d'.answered = d.answered) : Linked quoted request left d' := by
  refine ⟨fun m hm => absurd (hmove.symm.trans hm) (by simp), ?_⟩
  rw [houtbox, hanswered]
  exact h.outbox

lemma Linked.replies (h : Linked quoted request left d) (hnone : d.answered = none) {reply : Reply}
    (hmove : d'.move = some m) (hstate : m.state = .replying reply) (houtbox : d'.outbox = d.outbox)
    (hanswered : d'.answered = some reply) : Linked quoted request left d' := by
  have hempty : d.outbox = [] := by
    have := h.outbox
    rw [hnone] at this
    exact prefix_nil.mp this
  refine ⟨fun m' hm => ?_, ?_⟩
  · cases hmove.symm.trans hm
    rw [hstate]
    exact hanswered
  · rw [houtbox, hempty]
    exact nil_prefix

lemma replying_turn {reply : Reply} {out : Bytes} {write : Write} (hstate : m.state = .replying reply)
    (hwrite : Writes (reply.bytes quoted) d.outbox write out)
    (hend : ended = (stepOnce { out := [write] } now m clip).1) :
    ended = .over ∨ ended = .waits m ∨ ended = .on m clip := by
  rw [hend]
  simp only [stepOnce, hstate]
  cases hwrite with
  | wouldBlock =>
    simp only [headD_cons, onReplying]
    split_ifs
    · exact .inl rfl
    · exact .inr (.inl rfl)
  | failed => exact .inl rfl
  | wrote hfront =>
    simp only [headD_cons, onReplying]
    split_ifs
    · exact .inl rfl
    · exact .inr (.inr rfl)

structure Writing (d d' : Door) : Prop where
  clip : d'.clip = d.clip
  answered : d'.answered = d.answered
  log : d'.log = d.log
  written : d'.written = d.written
  unread : d'.unread = d.unread
  closed : d'.closed = d.closed
  move : d'.move = none ∨ d'.move = d.move

lemma Linked.writes {reply : Reply} {out : Bytes} {write : Write} (h : Linked quoted request left d)
    (hm : d.move = some m) (hstate : m.state = .replying reply)
    (hwrite : Writes (reply.bytes quoted) d.outbox write out)
    (hend : ended = (stepOnce { out := [write] } now m d.clip).1) :
    Linked quoted request left (({ d with outbox := out }.went ended).logged (did d.clip ended)) ∧
      Writing d (({ d with outbox := out }.went ended).logged (did d.clip ended)) := by
  have hanswered : d.answered = some reply := h.due_of hm hstate
  have hout : out <+: (d.answered.map (Reply.bytes quoted)).getD [] := by
    have houtbox := h.outbox
    rw [hanswered] at houtbox ⊢
    cases hwrite with
    | wouldBlock | failed => exact houtbox
    | wrote hfront => exact hfront
  have hlinked : Linked quoted request left { d with outbox := out } := by
    refine ⟨fun m' hm' => ?_, hout⟩
    cases hm.symm.trans hm'
    rw [hstate]
    exact hanswered
  have hquiet : did d.clip ended = [] := by
    obtain rfl | rfl | rfl := replying_turn hstate hwrite hend
    · rfl
    · rfl
    · exact did_same rfl rfl
  rw [hquiet, logged_nil]
  obtain rfl | rfl | rfl := replying_turn hstate hwrite hend
  · exact ⟨hlinked.over rfl rfl rfl, rfl, rfl, rfl, rfl, rfl, rfl, .inl rfl⟩
  · exact ⟨hlinked.congr hm.symm rfl rfl rfl, rfl, rfl, rfl, rfl, rfl, rfl, .inr hm.symm⟩
  · have hsame : { d with outbox := out }.went (.on m d.clip) = { d with outbox := out } := by
      simp [went, hstate, ← hanswered, ← hm]
    rw [hsame]
    exact ⟨hlinked, rfl, rfl, rfl, rfl, rfl, rfl, Or.inr rfl⟩

lemma Linked.turn (h : Linked quoted request left d) (hturn : d.Turn quoted now d') {reply : Reply}
    (hm : d.move = some m) (hstate : m.state = .replying reply) : Linked quoted request left d' ∧ Writing d d' := by
  cases hturn with
  | request _ hm' hstate' | taking hm' hstate' =>
    cases hm.symm.trans hm'
    exact absurd (hstate.symm.trans hstate') (by simp)
  | replying hm' hstate' hwrite hend => exact h.writes hm' hstate' hwrite hend

lemma Linked.answered (h : Linked quoted request left d) (hturn : d.Turn quoted now d') {reply : Reply}
    (hanswered : d.answered = some reply) : Linked quoted request left d' ∧ Writing d d' := by
  obtain ⟨m, hm⟩ := hturn.move
  cases hstate : m.state with
  | request buf => exact absurd ((h.due_of hm hstate).2.symm.trans hanswered) (by simp)
  | taking mime generation data => exact absurd ((h.due_of hm hstate : d.answered = none).symm.trans hanswered) (by simp)
  | replying reply' => exact h.turn hturn hm hstate

lemma Linked.waits (h : Linked quoted request left d) {buf' : Bytes} (hm : d.move = some m)
    (hstate : m.state = .request buf) (hbuf : buf' ++ rest = buf ++ d.inbox) :
    Linked quoted request left { d with inbox := rest, move := some { m with state := .request buf' } } := by
  obtain ⟨hwhole, hnone⟩ := h.due_of hm hstate
  refine ⟨fun m' hm' => ?_, h.outbox⟩
  cases hm'
  exact ⟨by rw [← hwhole, ← hbuf], hnone⟩

def Plain (move : Option Control) : Prop :=
  ∀ m mime generation data, move = some m → m.state ≠ .taking mime generation data

lemma plain_reply (reply : Reply) (now : ℕ) : Plain (some (Control.reply reply now)) := by
  rintro _ _ _ _ ⟨⟩ ⟨⟩

lemma plain_request (deadline : ℕ) (buf : Bytes) : Plain (some ⟨deadline, .request buf⟩) := by
  rintro _ _ _ _ ⟨⟩ ⟨⟩

/-- A give or a clear: it is done, and its event logged, when that is what is answered. -/
structure Errand (quoted : String → String) (request left : Bytes) (undone done : List Event) (d : Door) : Prop
    extends Linked quoted request left d where
  plain : Plain d.move
  result : (d.log = done ∧ d.answered = some .done) ∨
    (d.log = undone ∧ (d.answered = none ∨ ∃ why, d.answered = some (.refused why)))

variable {undone done : List Event}

lemma Errand.opened (hlog : d.log = undone) (now : ℕ) : Errand quoted request request undone done (d.opened now) :=
  ⟨Linked.opened now, plain_request _ _, Or.inr ⟨hlog, Or.inl rfl⟩⟩

lemma Errand.writing (h : Errand quoted request left undone done d) (hlinked : Linked quoted request left d')
    (hd : Writing d d') : Errand quoted request left undone done d' := by
  refine ⟨hlinked, ?_, ?_⟩
  · obtain hnone | hmove := hd.move
    · simp [Plain, hnone]
    · exact hmove ▸ h.plain
  · rw [hd.log, hd.answered]
    exact h.result

def Answers (r : Request) (now : ℕ) (undone done : List Event) (clip : Clipboard) : Prop :=
  ∀ np, ((answer r np now clip).1 = reply .done now ∧
      undone ++ did clip (.on (answer r np now clip).1 (answer r np now clip).2) = done) ∨
    ((∃ why, (answer r np now clip).1 = refuse why now) ∧ (answer r np now clip).2 = clip)

lemma Errand.turn (h : Errand quoted request left undone done d) (hturn : d.Turn quoted now d')
    (hparse : ∀ p, p <+: request → parse p = .ok none ∨ parse p = .ok (some r))
    (hanswer : Answers r now undone done d.clip) :
    Errand quoted request left undone done d' ∧ d'.written = d.written ∧ d'.closed = d.closed ∧
      ((d'.clip = d.clip ∧ (d'.answered = some .done → d.answered = some .done)) ∨
        ∃ np, d'.clip = (answer r np now d.clip).2 ∧
          (d'.answered = some .done → (answer r np now d.clip).1 = reply .done now)) := by
  obtain ⟨m, hm⟩ := hturn.move
  cases hstate : m.state with
  | taking mime generation data => exact absurd hstate (h.plain m mime generation data hm)
  | replying reply =>
    obtain ⟨hlinked, hd⟩ := h.toLinked.turn hturn hm hstate
    exact ⟨h.writing hlinked hd, hd.written, hd.closed, Or.inl ⟨hd.clip, fun hdone => hd.answered ▸ hdone⟩⟩
  | request buf =>
    obtain ⟨hwhole, hnone⟩ := h.due_of hm hstate
    have hlog : d.log = undone := by
      obtain ⟨-, hdone⟩ | ⟨hlog, -⟩ := h.result
      · rw [hnone] at hdone
        exact absurd hdone (by simp)
      · exact hlog
    obtain ⟨np, rest, hcases⟩ := hturn.requested hm hstate fun p hp => hparse p (hp.trans ⟨left, hwhole⟩)
    cases hcases with
    | closed => exact ⟨⟨h.toLinked.over rfl rfl rfl, by simp [Plain], h.result⟩, rfl, rfl, Or.inl ⟨rfl, id⟩⟩
    | refused why =>
      exact ⟨⟨h.toLinked.replies hnone rfl rfl rfl rfl, plain_reply _ _, Or.inr ⟨hlog, Or.inr ⟨why, rfl⟩⟩⟩, rfl, rfl,
        .inl ⟨rfl, by simp⟩⟩
    | waits buf' hbuf =>
      exact ⟨⟨h.toLinked.waits hm hstate hbuf, plain_request _ _, h.result⟩, rfl, rfl, Or.inl ⟨rfl, id⟩⟩
    | answered hend =>
      obtain ⟨hdone, hevents⟩ | ⟨⟨why, hwhy⟩, hclip⟩ := hanswer np
      · rw [hdone] at hend hevents
        subst hend
        refine ⟨⟨h.toLinked.replies hnone rfl rfl rfl rfl, plain_reply _ _, .inl ⟨?_, rfl⟩⟩, rfl, rfl,
          .inr ⟨np, rfl, fun _ => hdone⟩⟩
        rw [← hevents, ← hlog]
        exact congrArg (d.log ++ ·) (append_nil _)
      · rw [hwhy, hclip] at hend
        rw [hend, refuse, did_same rfl rfl]
        refine ⟨⟨h.toLinked.replies hnone rfl rfl rfl rfl, plain_reply _ _,
          .inr ⟨(append_nil _).trans hlog, .inr ⟨why, rfl⟩⟩⟩, rfl, rfl, .inl ⟨rfl, fun hdone => ?_⟩⟩
        change some (Reply.refused why) = some .done at hdone
        cases hdone

lemma Errand.sent {front : Bytes} (h : Errand quoted request (front ++ left) undone done d) :
    Errand quoted request left undone done { d with inbox := d.inbox ++ front } :=
  ⟨h.toLinked.sent, h.plain, h.result⟩

end Kryptik.Desktop
