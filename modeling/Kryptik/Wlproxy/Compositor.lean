import Kryptik.Lib.IdReuse
import Kryptik.Wlproxy.Identity

namespace Kryptik.Wlproxy

open Lib Prog Tables Wire Protocol View IdReuse

/-- The compositor's end of a session: the objects it has, the slots of ids it has used, and the objects that ended
there whose ids no other has taken since. -/
structure Compositor where
  map : Names
  slots : ℕ
  destroyed : List ℕ

namespace Compositor

def start : Compositor where
  map := .start
  slots := 2
  destroyed := []

variable (c : Compositor)

def create (id : ℕ) (i : Interface) : Compositor where
  map := Function.update c.map id (some i)
  slots := max c.slots (id + 1)
  destroyed := c.destroyed.filter (· ≠ id)

def spend (id : ℕ) : Compositor := { c with slots := max c.slots (id + 1), destroyed := id :: c.destroyed }

def destroy (id : ℕ) : Compositor :=
  { c with map := Function.update c.map id none, destroyed := id :: c.destroyed }

end Compositor

/-- A message on its way to the proxy, the id it is about and whether it answers a placeholder there. -/
structure Coming where
  tag : Tag
  id : ℕ
  bytes : Bytes

namespace Coming

def done (id data : ℕ) : Bytes := ((MessageWriter.new id 0).u32 data).bytes

def deleteId (id : ℕ) : Bytes := ((MessageWriter.new wlDisplay wlDisplayDeleteId).u32 id).bytes

def answers (origin : Origin) (id data : ℕ) : List Coming :=
  if origin = .placeholder then [⟨.answer, id, done id data⟩, ⟨.answered, id, deleteId id⟩]
  else [⟨.event, id, done id data⟩, ⟨.deleted, id, deleteId id⟩]

end Coming

/-- A session and its compositor: how many of the messages to it are taken there, the messages from it the proxy has
not taken, and the bytes of these that have not arrived. -/
structure Linked where
  session : Session
  compositor : Compositor
  taken : ℕ
  flight : List Coming
  loose : Bytes

namespace Linked

variable (x : Linked)

def ahead : List Sent := x.session.core.sentUp.drop x.taken

/-- The compositor takes a request. A new object is made at once, and a callback of wl_display.sync also answered
and destroyed. -/
def take (sent : Sent) (call : Call) (data : ℕ) : Option Linked :=
  match call.created with
  | none => some { x with taken := x.taken + 1 }
  | some (new, name) => match find name with
    | none => none
    | some i =>
      if call.iface = .wlDisplay ∧ call.request = "sync" then
        some { x with
          compositor := x.compositor.spend new
          taken := x.taken + 1
          flight := x.flight ++ Coming.answers sent.origin new data
          loose := x.loose ++ (Coming.answers sent.origin new data).flatMap Coming.bytes }
      else some { x with compositor := x.compositor.create new i, taken := x.taken + 1 }

def send (e : Coming) (c : Compositor) : Linked :=
  { x with compositor := c, flight := x.flight ++ [e], loose := x.loose ++ e.bytes }

/-- What of the compositor's messages is left when the proxy has taken the next one in a direction. -/
def left (dir : Dir) : List Coming :=
  match dir, Session.next x.session.core dir (x.session.inbound dir) with
  | .serverToClient, .skip _ | .serverToClient, .take .. => x.flight.tail
  | _, _ => x.flight

/-- What can happen: the proxy takes a message of either side, or anything else befalls it; bytes arrive; the
compositor takes the next message to it, sends an event of an object it has, or destroys one. -/
inductive Step : Linked → Linked → Prop
  | turn {x : Linked} {s' : Session} {more : Bool} {clip' : Clipboard} (k : Kernel) (dir : Dir) (clip : Clipboard) :
      Session.pumpOnce k dir (x.session, clip) = .ok more (s', clip') →
      Step x { x with session := s', flight := x.left dir }
  | input {x : Linked} {s' : Session} (i : Session.Input) : (∀ k dir clip, i ≠ .pump k dir clip) →
      (∀ bytes fds, i ≠ .arrive .serverToClient bytes fds) → i.run x.session = .ok () s' →
      Step x { x with session := s' }
  | deliver {x : Linked} (bytes later : Bytes) (fds : List Fd) : x.loose = bytes ++ later →
      Step x { x with session := x.session.arrive .serverToClient bytes fds, loose := later }
  | take {x x' : Linked} {sent : Sent} {rest : List Sent} {call : Call} (data : ℕ) : x.ahead = sent :: rest →
      x.compositor.map.call sent.bytes = some call → x.take sent call data = some x' → Step x x'
  | event {x : Linked} (id : ℕ) (i : Interface) (msg : Bytes) (h : Header) : x.compositor.map id = some i →
      Header.parse msg = .ok h → h.size = msg.length → h.object = id →
      ¬ (id = wlDisplay ∧ h.opcode = wlDisplayDeleteId) → Step x (x.send ⟨.event, id, msg⟩ x.compositor)
  | destroy {x : Linked} (id : ℕ) (i : Interface) : x.compositor.map id = some i → id ≠ wlDisplay →
      Step x (x.send ⟨.deleted, id, Coming.deleteId id⟩ (x.compositor.destroy id))

end Linked

end Kryptik.Wlproxy
