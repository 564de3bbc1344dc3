import Kryptik.Desktop.Launch
import Kryptik.Wlproxy.Copies

namespace Kryptik.Desktop

open Wlproxy Wlproxy.Wire Wlproxy.Control

/-- What a proxy did for the gesture. A take is dated by the generation there was when it was answered. A turn that
leaves another selection or generation than there was has given what is now selected, or cleared what was. -/
inductive Event
  | took (during generation : ℕ) (mime : String) (data : Bytes)
  | gave (selection : Selection)
  | cleared (generation : ℕ) (selection : Option Selection)

/-- A zone's proxy as the gesture meets it: its clipboard, the move it serves, what lies in the move's
connection and in the copying client's pipe. The rest is history: the reply to the move, all that was
written into its pipe, and what the proxy did. -/
structure Door where
  clip : Clipboard
  move : Option Control
  inbox : Bytes
  shut : Bool
  outbox : Bytes
  unread : Bytes
  closed : Bool
  answered : Option Reply
  written : Bytes
  log : List Event

inductive Reads (stream : Bytes) (closed : Bool) : Read → Bytes → Prop
  | wouldBlock : Reads stream closed .wouldBlock stream
  | failed : Reads stream closed .failed stream
  | eof (hempty : stream = []) (hclosed : closed = true) : Reads stream closed .eof []
  | got {front rest : Bytes} (hfront : front ≠ []) (hstream : stream = front ++ rest) :
      Reads stream closed (.got front) rest

/-- A write of what is left of a reply, and what the other end then has of it. -/
inductive Writes (whole out : Bytes) : Write → Bytes → Prop
  | wouldBlock : Writes whole out .wouldBlock out
  | failed : Writes whole out .failed out
  | wrote {front : Bytes} (hfront : out ++ front <+: whole) :
      Writes whole out (.wrote (decide (out ++ front = whole))) (out ++ front)

namespace Door

def opened (d : Door) (now : ℕ) : Door :=
  { d with move := some (Control.new now), inbox := [], shut := false, outbox := [], answered := none }

def went (d : Door) : Went → Door
  | .over => { d with move := none }
  | .waits m => { d with move := some m }
  | .on m clip =>
    let d := { d with move := some m, clip }
    match m.state with
    | .replying reply => { d with answered := some reply }
    | _ => d

def piped (d : Door) : Went → Door
  | .on ⟨_, .taking _ _ _⟩ _ => { d with unread := [], closed := false, written := [] }
  | _ => d

/-- What an observer sees of the clipboard that was `clip` before the turn. -/
def did (clip : Clipboard) : Went → List Event
  | .on _ c =>
    if c.generation = clip.generation ∧ c.selection = clip.selection then []
    else match c.selection with
      | none => [.cleared clip.generation clip.selection]
      | some sel => [.gave sel]
  | _ => []

lemma did_same {c c' : Clipboard} {m : Control} (hgen : c'.generation = c.generation)
    (hsel : c'.selection = c.selection) : did c (.on m c') = [] := if_pos ⟨hgen, hsel⟩

lemma did_setSelection (c : Clipboard) (m : Control) (sel : Option Selection) :
    did c (.on m (c.setSelection sel)) =
      match sel with
      | none => [.cleared c.generation c.selection]
      | some sel => [.gave sel] :=
  if_neg fun h => Nat.succ_ne_self _ h.1

def taken (clip : Clipboard) : Went → List Event
  | .on ⟨_, .replying (.taken generation mime data)⟩ _ => [.took clip.generation generation mime data]
  | _ => []

def logged (d : Door) (events : List Event) : Door := { d with log := d.log ++ events }

/-- A turn of the loop of `step` on the move. -/
inductive Turn (quoted : String → String) (now : ℕ) (d : Door) : Door → Prop
  | request {m : Control} {buf rest : Bytes} {read : Read} (newPipe : Option Fd) (hm : d.move = some m)
      (hstate : m.state = .request buf) (hread : Reads d.inbox d.shut read rest) {ended : Went}
      (hend : ended = (stepOnce { conn := [read], newPipe } now m d.clip).1) :
      Turn quoted now d
        ((({ d with inbox := rest }.went ended).piped ended).logged (did d.clip ended ++ taken d.clip ended))
  | taking {m : Control} {mime : String} {generation : ℕ} {data rest : Bytes} {read : Read} (hm : d.move = some m)
      (hstate : m.state = .taking mime generation data) (hread : Reads d.unread d.closed read rest) {ended : Went}
      (hend : ended = (stepOnce { pipe := [read] } now m d.clip).1) :
      Turn quoted now d (({ d with unread := rest }.went ended).logged (did d.clip ended ++ taken d.clip ended))
  | replying {m : Control} {reply : Reply} {out : Bytes} {write : Write} (hm : d.move = some m)
      (hstate : m.state = .replying reply) (hwrite : Writes (reply.bytes quoted) d.outbox write out) {ended : Went}
      (hend : ended = (stepOnce { out := [write] } now m d.clip).1) :
      Turn quoted now d (({ d with outbox := out }.went ended).logged (did d.clip ended))

end Door

/-- What happens at a zone's clipboard between the turns of the move: a copy, a source its client destroyed,
a session's end, and whatever leaves the selection alone. -/
inductive Changes (c : Clipboard) : Clipboard → Prop
  | copy (sel : Option Selection) (hsel : ∀ s, sel = some s → s.owner ≠ own ∧ s.data = none) :
      Changes c (c.setSelection sel)
  | sourceGone (owner source : ℕ) : Changes c (c.sourceGone owner source)
  | sessionGone (id : ℕ) : Changes c (c.sessionGone id)
  | other (focus : Option ℕ) (actions : List Action) : Changes c { c with focus, actions }

/-- One step at a zone's proxy: of the move, of the clipboard, or of the copying client's pipe. -/
inductive Door.Step (quoted : String → String) (d : Door) : Door → Prop
  | turn {now : ℕ} {d' : Door} (hturn : d.Turn quoted now d') : Step quoted d d'
  | change {c : Clipboard} (hchange : Changes d.clip c) : Step quoted d { d with clip := c }
  | write (bytes : Bytes) (hopen : d.closed = false) :
      Step quoted d { d with unread := d.unread ++ bytes, written := d.written ++ bytes }
  | close : Step quoted d { d with closed := true }

inductive Side
  | source
  | target

def Ask.side : Ask → Side
  | .give _ _ _ => .target
  | _ => .source

structure Gesture where
  launch : Launch
  source : Door
  target : Door

namespace Gesture

def door (g : Gesture) : Side → Door
  | .source => g.source
  | .target => g.target

def setDoor (g : Gesture) (side : Side) (d : Door) : Gesture :=
  match side with
  | .source => { g with source := d }
  | .target => { g with target := d }

/-- One step of `kryptik-launch`, of either proxy, or of the clients there. -/
inductive Step (quoted : String → String) (g : Gesture) : Gesture → Prop
  | absent {a : Ask} (hlaunch : g.launch = .next a) : Step quoted g { g with launch := onAnswer a none }
  | connect {a : Ask} (now : ℕ) (hlaunch : g.launch = .next a) (hfree : (g.door a.side).move = none) :
      Step quoted g
        ({ g with launch := .asking a a.request }.setDoor a.side ((g.door a.side).opened now))
  | send {a : Ask} {front left : Bytes} (hlaunch : g.launch = .asking a (front ++ left)) :
      Step quoted g ({ g with launch := .asking a left }.setDoor a.side
        { g.door a.side with inbox := (g.door a.side).inbox ++ front })
  | shut {a : Ask} (hlaunch : g.launch = .asking a []) :
      Step quoted g (g.setDoor a.side { g.door a.side with shut := true })
  | unsent {a : Ask} {left : Bytes} (memory : Bool) (received : Bytes) (hlaunch : g.launch = .asking a left) :
      Step quoted g ({ g with launch := onAnswer a (some (answerOf false memory received)) }.setDoor a.side
        { g.door a.side with shut := true })
  | hear {a : Ask} (memory : Bool) {received : Bytes} (hlaunch : g.launch = .asking a [])
      (hreceived : received <+: (g.door a.side).outbox) :
      Step quoted g ({ g with launch := onAnswer a (some (answerOf true memory received)) }.setDoor a.side
        { g.door a.side with shut := true })
  | door {side : Side} {d : Door} (hdoor : (g.door side).Step quoted d) : Step quoted g (g.setDoor side d)

/-- A step after which the generation is still a `u64`. -/
def Moves (quoted : String → String) (g g' : Gesture) : Prop :=
  g.Step quoted g' ∧ g'.source.clip.generation < u64

/-- Before the gesture: no proxy serves a move, and what one holds itself a move brought. -/
structure Start (g : Gesture) : Prop where
  launch : g.launch = .next .take
  source : g.source.move = none ∧ g.source.log = []
  target : g.target.move = none ∧ g.target.log = []
  held : ∀ sel data, g.source.clip.selection = some sel → sel.data = some data → data.length ≤ Policy.maxMoveBytes
  dated : g.source.clip.Dated
  counted : g.source.clip.generation < u64

end Gesture

end Kryptik.Desktop
