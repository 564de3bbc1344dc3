import Kryptik.Wlproxy.Control
import Kryptik.Wlproxy.SessionRun

namespace Kryptik.Wlproxy

open Lib Prog Tables Wire

inductive Resource
  | bytes
  | pools
  | toplevels

abbrev Charge := Resource → ℕ

def Resource.all : List Resource := [.bytes, .pools, .toplevels]

def zoneBound : Charge
  | .bytes => Policy.maxShmBytesPerZone
  | .pools => Policy.maxShmPoolsPerZone
  | .toplevels => Policy.maxToplevelsPerZone

def Session.charge (s : Session) : Charge
  | .bytes => s.core.shm.poolBytes
  | .pools => s.core.shm.poolCount
  | .toplevels => s.core.toplevels

inductive Why
  | vanished
  | clientGone
  | clientRead
  | compositorGone
  | compositorRead
  | session (e : SessionError)
  | budget
  | compositorWrite (e : SessionError)
  | clientWrite (e : SessionError)
  deriving DecidableEq

/-- How the step of a session stops: its connection ends, or the proxy does. -/
inductive Halt
  | ended (why : Why)
  | fault (f : Fault)

def Fault.halt (why : SessionError → Why) : Fault → Halt
  | .refused e => .ended (why e)
  | f => .fault f

abbrev StepM := EStateM Halt (Session × Clipboard)

def orEnd {σ α : Type} (why : SessionError → Why) (x : EStateM Fault σ α) : EStateM Halt σ α := fun s =>
  match x s with
  | .ok a s => .ok a s
  | .error f s => .error (f.halt why) s

lemma wp_orEnd {σ α : Type} {Q : α → σ → Prop} {E : Halt → σ → Prop} {s : σ} (why : SessionError → Why)
    (x : EStateM Fault σ α) : wp (orEnd why x) Q E s ↔ wp x Q (fun f => E (f.halt why)) s := by
  simp only [wp, orEnd]
  cases x s <;> rfl

/-- What the poll and the kernel have for a session in one turn. -/
structure SessionIo where
  vanished : Bool := false
  client : Option Recv := none
  server : Option Recv := none
  up : Kernel := .willing
  down : Kernel := .willing
  toServer : List SendResult := []
  toClient : List SendResult := []

def hear (msgs : List MessageWriter) (fds : List Fd) : Option Recv :=
  some (.got (msgs.flatMap MessageWriter.bytes) fds false)

namespace Session

def readSide (dir : Dir) (gone failed : Why) : Option Recv → StepM Unit
  | none => pure ()
  | some r => do
    let (s, clip) ← get
    set (s.setInbound ((s.inbound dir).read r).2 dir, clip)
    match ((s.inbound dir).read r).1 with
    | .eof => throw (.ended gone)
    | .failed => throw (.ended failed)
    | .wouldBlock | .got _ => pure ()

lemma wp_readSide {dir : Dir} {gone failed : Why} {r : Option Recv} {x : Session × Clipboard}
    {Q : Unit → Session × Clipboard → Prop} {E : Halt → Session × Clipboard → Prop} (hnone : r = none → Q () x)
    (hread : ∀ a, r = some a → Q () (x.1.setInbound ((x.1.inbound dir).read a).2 dir, x.2))
    (hend : ∀ a why, r = some a → why = gone ∨ why = failed →
      E (.ended why) (x.1.setInbound ((x.1.inbound dir).read a).2 dir, x.2)) :
    wp (readSide dir gone failed r) Q E x := by
  cases r with
  | none => exact hnone rfl
  | some r =>
    unfold readSide
    simp only [wp_bind, wp_get, wp_set]
    split
    · exact hend r gone rfl (.inl rfl)
    · exact hend r failed rfl (.inr rfl)
    · exact hread r rfl
    · exact hread r rfl

/-- Whether the zone is past one of its bounds with what the session now has. -/
def overBudget (zone old : Charge) (s : Session) : Bool :=
  Resource.all.any (fun r => zoneBound r < zone r + s.charge r - old r)

def flushServer (results : List SendResult) : EStateM Fault (Session × Clipboard) Bool :=
  zoom (fun x => x.1.core.server) (fun o x => ({ x.1 with core.server := o }, x.2)) (Outbound.flush results)

def flushClient (results : List SendResult) : EStateM Fault (Session × Clipboard) Bool :=
  zoom (fun x => x.1.core.client) (fun o x => ({ x.1 with core.client := o }, x.2)) (Outbound.flush results)

def step (io : SessionIo) (zone old : Charge) : StepM Unit := do
  if io.vanished then throw (.ended .vanished) else
    readSide .clientToServer .clientGone .clientRead io.client
    readSide .serverToClient .compositorGone .compositorRead io.server
    orEnd .session (pump io.up .clientToServer)
    orEnd .session (pump io.down .serverToClient)
    if overBudget zone old (← get).1 then throw (.ended .budget) else
      let _ ← orEnd .compositorWrite (flushServer io.toServer)
      let _ ← orEnd .clientWrite (flushClient io.toClient)

def refuse (s : Session) : Session :=
  { s with core.client := s.core.client.closeAll, core.server := s.core.server.closeAll }

def takePools (s : Session) : List (Fd × ℕ) := s.core.shm.pools.entries.map (fun e => (e.2.fd, e.2.range))

end Session

structure Gone where
  fd : Fd
  size : ℕ
  due : ℕ

/-- History of a connection that ended: the zone's charge without what it did in that turn,
and its own before and after. -/
structure Ended where
  id : ℕ
  why : Why
  zone : Charge
  before : Charge
  after : Charge

/-- The proxy of a zone. `closed` has the sessions that ended in this turn and are still in
the list; the last three fields are history. -/
structure Proxy where
  zone : String
  holdAwake : Bool
  maxClients : ℕ
  sessions : List Session := []
  closed : List ℕ := []
  clip : Clipboard := {}
  nextId : ℕ := 1
  gone : List Gone := []
  moving : Option Control := none
  writers : List Writer := []
  ended : List Ended := []
  dropped : List Session := []
  written : List Writer := []

abbrev ProxyM := EStateM Fault Proxy

/-- Milliseconds the pools of a connection that ended wait to be punched. -/
def poolGrace : ℕ := 1000

structure TurnIo where
  sessions : ℕ → SessionIo := fun _ => {}
  /-- A connection to the control socket, and whether its peer is the session's user. -/
  mover : Option Bool := none
  control : Control.Io := {}
  writers : Fd → List SendResult := fun _ => []
  connects : Bool := false
  now : ℕ
  later : ℕ

namespace Proxy

def goneCharge (p : Proxy) : Charge
  | .bytes => (p.gone.map Gone.size).sum
  | .pools => p.gone.length
  | .toplevels => 0

def charge (p : Proxy) : Charge := fun r => (p.sessions.map (fun s => s.charge r)).sum + p.goneCharge r

def close (p : Proxy) (i : ℕ) (s : Session) (e : Ended) : Proxy :=
  { p with
    sessions := p.sessions.set i s.refuse
    closed := p.closed ++ [s.core.id]
    ended := p.ended ++ [e] }

def stepSession (io : ℕ → SessionIo) (i : ℕ) (zone : Charge) : ProxyM Charge := fun p =>
  match p.sessions[i]? with
  | none => .ok zone p
  | some s =>
    match Session.step (io s.core.id) zone s.charge (s, p.clip) with
    | .ok _ (s', clip) =>
      .ok (fun r => zone r - s.charge r + s'.charge r) { p with sessions := p.sessions.set i s', clip := clip }
    | .error (.ended why) (s', clip) =>
      .ok zone ({ p with clip := clip }.close i s' ⟨s.core.id, why, zone, s.charge, s'.charge⟩)
    | .error (.fault f) _ => .error f p

def stepSessions (io : ℕ → SessionIo) : List ℕ → Charge → ProxyM Unit
  | [], _ => pure ()
  | i :: rest, zone => do
    let zone ← stepSession io i zone
    stepSessions io rest zone

def acceptMove (io : TurnIo) (p : Proxy) : Proxy :=
  if io.mover = some true ∧ p.moving = none then { p with moving := some (.new io.now) } else p

def stepMove (io : TurnIo) : ProxyM Unit := fun p =>
  match p.moving with
  | none => .ok () p
  | some m => match m.step io.control io.now p.clip with
    | .ok (moving, clip) => .ok () { p with moving := moving, clip := clip }
    | .error f => .error f p

/-- A paste of the selection the proxy holds is written by the proxy itself. -/
def paste (now : ℕ) (a : Action) (p : Proxy) : Proxy :=
  match a, p.clip.selection.bind Selection.data with
  | .send _ _ mime fd asked, some data =>
    if p.writers.length < Control.maxWriters then
      { p with writers := p.writers ++ [.new fd data now mime asked] }
    else p
  | _, _ => p

def deliver (now : ℕ) (a : Action) : ProxyM Unit := fun p =>
  if a.session = own then .ok () (p.paste now a)
  else match p.sessions.findIdx? (fun s => s.core.id = a.session) with
    | none => .ok () p
    | some i =>
      if a.session ∈ p.closed then .ok () p
      else match p.sessions[i]? with
        | none => .ok () p
        | some s => match Core.act p.clip a s.core with
          | .ok _ core => .ok () { p with sessions := p.sessions.set i { s with core := core } }
          | .error (.refused e) core =>
            let s' := { s with core := core }
            .ok () (p.close i s' ⟨s.core.id, .session e, p.charge, s.charge, s'.charge⟩)
          | .error f _ => .error f p

def drop (now : ℕ) (p : Proxy) (s : Session) : Proxy :=
  { p with
    gone := p.gone ++ s.takePools.map (fun pool => ⟨pool.1, pool.2, now + poolGrace⟩)
    clip := p.clip.sessionGone s.core.id
    dropped := p.dropped ++ [s] }

def dropClosed (now : ℕ) (p : Proxy) : Proxy :=
  { ((p.sessions.filter (fun s => s.core.id ∈ p.closed)).reverse.foldl (drop now) p) with
    sessions := p.sessions.filter (fun s => s.core.id ∉ p.closed)
    closed := [] }

/-- What the turns asked of other sessions. A session that ends hands back its selection,
which may be news to the keyboard's. -/
def settle (now : ℕ) : ℕ → ProxyM Unit
  | 0 => throw .diverged
  | n + 1 => do
    let p ← get
    set { p with clip.actions := [] }
    p.clip.actions.forM (deliver now)
    let p ← get
    if p.closed = [] then return
    else
      set (p.dropClosed now)
      settle now n

def stepWriters (io : TurnIo) (p : Proxy) : Proxy :=
  let stepped := p.writers.map (fun w => w.step io.later (io.writers w.fd))
  { p with
    writers := (stepped.filter (fun x => !x.1)).map Prod.snd
    written := p.written ++ (stepped.filter Prod.fst).map Prod.snd }

def punchGone (io : TurnIo) (p : Proxy) : Proxy := { p with gone := p.gone.filter (fun g => io.later < g.due) }

/-- Accept last. `polled` is how many sessions there were at the poll. -/
def accept (io : TurnIo) (polled : ℕ) (p : Proxy) : Proxy :=
  if io.connects ∧ polled < p.maxClients then
    { p with sessions := p.sessions ++ [.opened p.zone p.holdAwake p.nextId], nextId := p.nextId + 1 }
  else p

def turn (io : TurnIo) : ProxyM Unit := do
  let p ← get
  let polled := p.sessions.length
  stepSessions io.sessions (List.range polled) p.charge
  modify (acceptMove io)
  stepMove io
  settle io.now (polled + 1)
  modify (fun p => accept io polled (punchGone io (stepWriters io p)))

def start (zone : String) (holdAwake : Bool) (maxClients : ℕ) : Proxy :=
  { zone := zone, holdAwake := holdAwake, maxClients := maxClients }

section Rules

variable {p : Proxy} {now i : ℕ} {a : Action} {E : Fault → Proxy → Prop}

lemma wp_stepSession {Q : Charge → Proxy → Prop} {io : ℕ → SessionIo} {zone : Charge} {s : Session}
    (hs : p.sessions[i]? = some s)
    (hok : ∀ s' clip, Session.step (io s.core.id) zone s.charge (s, p.clip) = .ok () (s', clip) →
      Q (fun r => zone r - s.charge r + s'.charge r) { p with sessions := p.sessions.set i s', clip := clip })
    (hended : ∀ why s' clip, Session.step (io s.core.id) zone s.charge (s, p.clip) = .error (.ended why) (s', clip) →
      Q zone ({ p with clip := clip }.close i s' ⟨s.core.id, why, zone, s.charge, s'.charge⟩))
    (hfault : ∀ f x, Session.step (io s.core.id) zone s.charge (s, p.clip) = .error (.fault f) x → E f p) :
    wp (stepSession io i zone) Q E p := by
  unfold wp stepSession
  simp only [hs]
  cases hx : Session.step (io s.core.id) zone s.charge (s, p.clip) with
  | ok u x => exact hok x.1 x.2 hx
  | error halt x =>
    cases halt with
    | ended why => exact hended why x.1 x.2 hx
    | fault f => exact hfault f x hx

lemma paste_cases (now : ℕ) (a : Action) (p : Proxy) : p.paste now a = p ∨
    ∃ s source mime fd asked sel data, a = .send s source mime fd asked ∧ p.clip.selection = some sel ∧
      sel.data = some data ∧
      p.paste now a = { p with writers := p.writers ++ [.new fd data now mime asked] } := by
  unfold paste
  split
  · rename_i s source mime fd asked data hdata
    obtain ⟨sel, hsel, hdata⟩ := Option.bind_eq_some_iff.mp hdata
    split
    · exact .inr ⟨s, source, mime, fd, asked, sel, data, rfl, hsel, hdata, rfl⟩
    · exact .inl rfl
  · exact .inl rfl

lemma wp_deliver {Q : Unit → Proxy → Prop} (hown : a.session = own → Q () (p.paste now a)) (hskip : Q () p)
    (hact : ∀ i s core, p.sessions[i]? = some s → s.core.id = a.session → a.session ∉ p.closed →
      Core.act p.clip a s.core = .ok () core →
      Q () { p with sessions := p.sessions.set i { s with core := core } })
    (hclose : ∀ i s core e, p.sessions[i]? = some s → s.core.id = a.session → a.session ∉ p.closed →
      Core.act p.clip a s.core = .error (.refused e) core →
      Q () (p.close i { s with core := core }
        ⟨s.core.id, .session e, p.charge, s.charge, { s with core := core }.charge⟩))
    (hfault : ∀ (i : ℕ) (s : Session) core f, p.sessions[i]? = some s → Core.act p.clip a s.core = .error f core →
      (∀ e, f ≠ .refused e) → E f p) :
    wp (deliver now a) Q E p := by
  unfold wp deliver
  by_cases ha : a.session = own
  · simpa only [if_pos ha] using hown ha
  simp only [if_neg ha]
  cases hi : p.sessions.findIdx? (fun s => s.core.id = a.session) with
  | none => exact hskip
  | some i =>
    by_cases hclosed : a.session ∈ p.closed
    · simpa only [if_pos hclosed] using hskip
    simp only [if_neg hclosed]
    cases hs : p.sessions[i]? with
    | none => exact hskip
    | some s =>
      have hid : s.core.id = a.session := by
        obtain ⟨hlt, hfound, -⟩ := List.findIdx?_eq_some_iff_getElem.mp hi
        obtain ⟨_, rfl⟩ := List.getElem?_eq_some_iff.mp hs
        simpa using hfound
      dsimp only
      cases hx : Core.act p.clip a s.core with
      | ok u core => exact hact i s core hs hid hclosed hx
      | error f core =>
        cases f with
        | refused e => exact hclose i s core e hs hid hclosed hx
        | panic | diverged => exact hfault i s core _ hs hx (by simp)

end Rules

end Proxy

end Kryptik.Wlproxy
