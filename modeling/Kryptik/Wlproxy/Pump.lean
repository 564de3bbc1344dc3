import Kryptik.Wlproxy.Session

namespace Kryptik.Wlproxy

open Lib Prog Tables Wire Protocol
open Wlproxy.Core (register queueUp queueDown emit placeholder endPlaceholder offerSelection)

/-- What policy makes of a message: whether it goes on, what goes out in its
place, and a message of the proxy's own right behind it. -/
structure Verdict where
  forward : Bool := true
  rewritten : Option Bytes := none
  stamp : Option Bytes := none

namespace Request

/-- A bind is held to the advertised global and both version caps. The result
says whether it goes to the compositor. -/
def bindGlobal (body : Bytes) (d : Decoded) : CoreM Bool := do
  match d.newObject, d.bindVersion with
  | some (id, name), some version =>
    let c ← get
    let max ← orRefuse (.hiddenInterface name) (Policy.allowedVersion name c.holdAwake <|> Policy.ownVersion name)
    let gname ← liftWire (readArgs ArgReader.u32 body)
    let (advertised, cap) ← orRefuse
      (.hiddenInterface (name ++ " (global " ++ toString gname ++ " not advertised)"))
      (c.globals.lookup gname)
    if advertised ≠ name ∨ version = 0 then
      fail (.hiddenInterface (name ++ " v" ++ toString version ++ " (global " ++ toString gname ++
        " advertises " ++ advertised ++ " v" ++ toString cap ++ ")"))
    else if min max cap < version then fail (.versionTooHigh name version (min max cap))
    else
      if name = "wl_output" then set { c with outputs := c.outputs.insert id gname } else pure ()
      return !Policy.served name
  | _, _ => fail (.wire .argOverrun)

def identity (h : Header) (iface : Interface) (m : Message) (d : Decoded) : CoreM (Option Bytes) := do
  if iface = .xdgToplevel ∧ (m.name = "set_title" ∨ m.name = "set_app_id") then
    match d.strings.head? with
    | none => return none
    | some (_, s) =>
      let c ← get
      let new := if m.name = "set_title" then Policy.titleFor c.zone s else Policy.appIdFor c.zone s
      let rebuilt ← orRefuse (.wire (.badSize h.size)) ((MessageWriter.new h.object h.opcode).string new).finish
      set { c with rewritten := c.rewritten + 1 }
      return some rebuilt
  else return none

def account (k : Kernel) (h : Header) (iface : Interface) (m : Message) (body : Bytes)
    (fds : List Fd) (d : Decoded) : ShmM Unit := do
  if iface = .wlShm ∧ m.name = "create_pool" then
    let (id, size) ← liftWire (readArgs (do return (← ArgReader.u32, ← ArgReader.u32)) body)
    Shm.createPool k id size fds.head?
  else if iface = .wlShmPool ∧ m.name = "resize" then
    let size ← liftWire (readArgs ArgReader.u32 body)
    Shm.resize h.object size
  else if iface = .wlShmPool ∧ m.name = "create_buffer" then
    let (id, _) ← orRefuse (.wire .argOverrun) d.newObject
    Shm.createBuffer h.object id
  else if iface = .wlSurface ∧ m.name = "attach" then
    let buffer ← liftWire (readArgs ArgReader.u32 body)
    Shm.attach h.object buffer
  else if iface = .wlSurface ∧ m.name = "commit" then Shm.commit k h.object
  else if iface = .wlSubcompositor ∧ m.name = "get_subsurface" then
    let t ← get
    if Policy.maxSubsurfacesPerSession ≤ size t.subsurfaces then
      fail (.resourceLimit "too many subsurfaces in one session")
    else
      let (id, surface, parent) ← liftWire
        (readArgs (do return (← ArgReader.u32, ← ArgReader.u32, ← ArgReader.u32)) body)
      Shm.getSubsurface id surface parent
  else if iface = .wlSubsurface ∧ m.name = "set_sync" then Shm.setSync h.object
  else if iface = .wlSubsurface ∧ m.name = "set_desync" then Shm.setDesync k h.object
  else if iface = .wlSubsurface ∧ m.name = "destroy" then Shm.destroySubsurface k h.object
  else pure ()

/-- The opcode of xdg_toplevel.set_app_id, looked up in the tables. -/
def setAppId : Option ℕ :=
  (find "xdg_toplevel").bind (fun i => i.requests.findIdx? (fun r => r.name == "set_app_id"))

def stamp (iface : Interface) (m : Message) (d : Decoded) : CoreM (Option Bytes) := do
  if iface = .xdgSurface ∧ m.name = "get_toplevel" then
    match d.newObject with
    | none => return none
    | some (id, _) =>
      let opcode ← orRefuse (.forbidden "no xdg_toplevel.set_app_id in the tables") setAppId
      let c ← get
      let appId ← orRefuse (.forbidden "the zone's app_id does not fit a message")
        ((MessageWriter.new id opcode).string (Policy.appIdFor c.zone "")).finish
      return some appId
  else return none

def checkBind (h : Header) (iface : Interface) (body : Bytes) (d : Decoded) : CoreM Bool :=
  if iface = .wlRegistry ∧ h.opcode = wlRegistryBind then bindGlobal body d else pure true

def answer (h : Header) (iface : Interface) (m : Message) (body : Bytes) (fds : List Fd) (forward : Bool) : M Bool :=
  if Policy.served iface.name then do
    serve iface m.name h.object body fds
    return false
  else pure forward

def policy (k : Kernel) (h : Header) (iface : Interface) (m : Message) (body : Bytes)
    (fds : List Fd) (d : Decoded) : M Verdict := do
  let forward ← onCore (checkBind h iface body d)
  let forward ← answer h iface m body fds forward
  let rewritten ← onCore (identity h iface m d)
  onCore (onShm (account k h iface m body fds d))
  let stamp ← onCore (stamp iface m d)
  return { forward := forward, rewritten := rewritten, stamp := stamp }

end Request

namespace Event

/-- A global the zone may bind is advertised at most at the version the proxy
parses; any other is hidden. -/
def global (h : Header) (iface : Interface) (body : Bytes) : CoreM Verdict := do
  if iface = .wlRegistry ∧ h.opcode = wlRegistryGlobal then
    let (gname, iname, version) ← liftWire (readArgs (do
      return (← ArgReader.u32, (← ArgReader.string).getD "", ← ArgReader.u32)) body)
    let c ← get
    match Policy.allowedVersion iname c.holdAwake with
    | some allowed =>
      let cap := min allowed version
      set { c with
        globals := c.globals.insert gname (((find iname).map Interface.name).getD "?", cap) }
      return { rewritten := if cap ≠ version then
          (((MessageWriter.new h.object h.opcode).u32 gname).string iname |>.u32 cap).finish
        else none }
    | none =>
      set { c with hiddenCount := c.hiddenCount + 1 }
      return { forward := false }
  else return {}

def globalRemove (h : Header) (iface : Interface) (body : Bytes) (v : Verdict) : CoreM Verdict := do
  if iface = .wlRegistry ∧ h.opcode = wlRegistryGlobalRemove then
    let gname ← liftWire (readArgs ArgReader.u32 body)
    let c ← get
    return { v with forward := decide (gname ∈ c.globals) }
  else return v

/-- The arguments of wl_output.geometry but its make and model. -/
def geometry (w : MessageWriter) : ArgReader MessageWriter := do
  let x ← ArgReader.u32
  let y ← ArgReader.u32
  let mmW ← ArgReader.u32
  let mmH ← ArgReader.u32
  let subpixel ← ArgReader.u32
  let _ ← ArgReader.string
  let _ ← ArgReader.string
  let transform ← ArgReader.u32
  return ((((((w.u32 x).u32 y).u32 mmW).u32 mmH).u32 subpixel).string "" |>.string "").u32 transform

/-- What a zone is told of a monitor in the place of its make, model, name and
description: nothing, or the number of its global. -/
def blanked (c : Core) (h : Header) (m : Message) (body : Bytes) : Except WireError MessageWriter :=
  let w := MessageWriter.new h.object h.opcode
  if m.name = "geometry" then readArgs (geometry w) body
  else .ok (w.string ("output-" ++ toString ((c.outputs.lookup h.object).getD 0)))

def output (h : Header) (iface : Interface) (m : Message) (body : Bytes) (v : Verdict) : CoreM Verdict := do
  if iface = .wlOutput ∧ (m.name = "geometry" ∨ m.name = "name" ∨ m.name = "description") then
    let c ← get
    let w ← liftWire (blanked c h m body)
    let rebuilt ← orRefuse (.wire (.badSize h.size)) w.finish
    return { v with rewritten := some rebuilt }
  else return v

/-- The keyboard's place follows its enter and leave events; the selection is
offered just before the keyboard enters. -/
def keyboard (iface : Interface) (m : Message) : M Unit := do
  if iface = .wlKeyboard ∧ m.name = "enter" then
    let w ← get
    onClip (fun clip => { clip with focus := some w.core.id })
    let w ← get
    onCore (offerSelection w.clip w.core.devices)
  else if iface = .wlKeyboard ∧ m.name = "leave" then
    let w ← get
    if w.clip.focus = some w.core.id then onClip (fun clip => { clip with focus := none })
    else pure ()
  else pure ()

def deleteObject (k : Kernel) (id : ℕ) : CoreM Unit := do
  let c ← get
  match (c.objects.get id).map Prod.fst with
  | some .xdgToplevel =>
    let n ← checkedSub c.toplevels 1
    set { c with toplevels := n }
  | some .xdgPopup =>
    let n ← checkedSub c.popups 1
    set { c with popups := n }
  | _ => pure ()
  modify (fun c => { c with outputs := c.outputs.erase id })
  onShm (Shm.deleteId k id)
  onObjects (Objects.remove id)

def deleteId (k : Kernel) (h : Header) (body : Bytes) (v : Verdict) : CoreM Verdict := do
  if h.object = wlDisplay ∧ h.opcode = wlDisplayDeleteId then
    let id ← liftWire (readArgs ArgReader.u32 body)
    if ← endPlaceholder id then return { v with forward := false }
    else
      deleteObject k id
      return v
  else return v

def policy (k : Kernel) (h : Header) (iface : Interface) (m : Message) (body : Bytes) : M Verdict := do
  let v ← onCore (global h iface body)
  let v ← onCore (globalRemove h iface body v)
  let v ← onCore (output h iface m body v)
  keyboard iface m
  onCore (deleteId k h body v)

end Event

def advertiseOwn (id : ℕ) : CoreM Unit :=
  Policy.ownGlobals.zipIdx.forM (fun ((name, v), i) => do
    let gname := Policy.ownGlobalBase + i
    modify (fun c => { c with globals := c.globals.insert gname (name, v) })
    emit (((MessageWriter.new id wlRegistryGlobal).u32 gname).string name |>.u32 v).finish [])

/-- A served object's creation reaches the compositor as a placeholder only; a
new data device is offered the selection if the keyboard is here. -/
def serveNew (id : ℕ) (name : String) : M Unit := do
  onCore (placeholder id)
  let w ← get
  if name = "wl_data_device" ∧ w.clip.focus = some w.core.id then
    onCore (offerSelection w.clip [id])
  else return

/-- The object a message creates. A bind picks its version; any other inherits
its parent's. A new registry hears of the proxy's own globals first. -/
def registerNew (dir : Dir) (forward : Bool) (d : Decoded) (version : ℕ) : M Unit := do
  match d.newObject with
  | none => return
  | some (id, name) =>
    onCore (register id name (d.bindVersion.getD version) dir)
    onCore (if name = "wl_registry" then advertiseOwn id else pure ())
    if dir = .clientToServer ∧ !forward then serveNew id name else return

/-- The outbound half a message of this direction leaves by. -/
def Core.dst (c : Core) : Dir → Outbound
  | .clientToServer => c.server
  | .serverToClient => c.client

def passOn (dir : Dir) (msg : Bytes) (fds : List Fd) (stamp : Option Bytes) : CoreM Unit := do
  let c ← get
  let extra := (stamp.map List.length).getD 0
  if Policy.maxPendingBytes < (c.dst dir).pendingOut + msg.length + extra then
    fail (.tooMuchPending dir)
  else if Policy.maxPendingFds < (c.dst dir).pendingFds + fds.length then fail .tooManyFds
  else match dir with
    | .clientToServer =>
      queueUp .request msg fds
      match stamp with
      | none => pure ()
      | some s =>
        queueUp .stamp s []
        modify (fun c => { c with rewritten := c.rewritten + 1 })
      modify (fun c => { c with forwardedC2s := c.forwardedC2s + 1 })
    | .serverToClient =>
      queueDown .event msg fds
      modify (fun c => { c with forwardedS2c := c.forwardedS2c + 1 })

def policy (k : Kernel) (dir : Dir) (h : Header) (iface : Interface) (m : Message) (body : Bytes)
    (fds : List Fd) (d : Decoded) : M Verdict :=
  match dir with
  | .clientToServer => Request.policy k h iface m body fds d
  | .serverToClient => Event.policy k h iface m body

def handle (k : Kernel) (dir : Dir) (h : Header) (iface : Interface) (m : Message) (version : ℕ)
    (msg : Bytes) (fds : List Fd) : M Unit := do
  let d ← liftWire (decode m (msg.drop headerLen))
  let v ← policy k dir h iface m (msg.drop headerLen) fds d
  registerNew dir v.forward d version
  onCore (if v.forward then passOn dir (v.rewritten.getD msg) fds v.stamp else pure ())

structure Session where
  core : Core
  clientIn : Inbound := {}
  serverIn : Inbound := {}

namespace Session

def inbound (s : Session) : Dir → Inbound
  | .clientToServer => s.clientIn
  | .serverToClient => s.serverIn

def setInbound (s : Session) (i : Inbound) : Dir → Session
  | .clientToServer => { s with clientIn := i }
  | .serverToClient => { s with serverIn := i }

def arrive (s : Session) (dir : Dir) (bytes : Bytes) (fds : List Fd) : Session :=
  s.setInbound ((s.inbound dir).append bytes fds) dir

abbrev PumpM := EStateM Fault (Session × Clipboard)

/-- What `pump` makes of the front of its input: wait for more, refuse it, skip
the bytes of a placeholder's answer, or take a message of a live object. -/
inductive Next
  | wait
  | refuse (e : SessionError)
  | skip (n : ℕ)
  | take (h : Header) (iface : Interface) (m : Message) (version : ℕ)

def next (c : Core) (dir : Dir) (src : Inbound) : Next :=
  if src.pendingIn.length < headerLen then .wait
  else match Header.parse src.pendingIn with
    | .error e => .refuse (.wire e)
    | .ok h =>
      if src.pendingIn.length < h.size then .wait
      else if dir = .serverToClient ∧ h.object ∈ c.placeholders then .skip h.size
      else match c.lookup h.object dir h.opcode with
        | .error e => .refuse e
        | .ok (iface, m, version) =>
          if src.inFds.length < m.fds then .wait else .take h iface m version

def handled (s : Session) (dir : Dir) (rest : Inbound) (w : World) : Session × Clipboard :=
  ({ s with core := w.core }.setInbound rest dir, w.clip)

def msg (s : Session) (dir : Dir) (h : Header) : Bytes := ((s.inbound dir).take h.size).1

def fds (s : Session) (dir : Dir) (h : Header) (m : Message) : List Fd :=
  (((s.inbound dir).take h.size).2.takeFds m.fds).1

def rest (s : Session) (dir : Dir) (h : Header) (m : Message) : Inbound :=
  (((s.inbound dir).take h.size).2.takeFds m.fds).2

/-- One turn of the loop of `pump`: false when more input is needed. -/
def pumpOnce (k : Kernel) (dir : Dir) : PumpM Bool := fun (s, clip) =>
  match next s.core dir (s.inbound dir) with
  | .wait => .ok false (s, clip)
  | .refuse e => .error (.refused e) (s, clip)
  | .skip n => .ok true (s.setInbound ((s.inbound dir).take n).2 dir, clip)
  | .take h iface m version =>
    match handle k dir h iface m version (s.msg dir h) (s.fds dir h m) ⟨s.core, clip⟩ with
    | .ok _ w => .ok true (s.handled dir (s.rest dir h m) w)
    | .error e w => .error e (s.handled dir (s.rest dir h m) w)

lemma wp_pumpOnce {k : Kernel} {dir : Dir} {Q : Bool → Session × Clipboard → Prop}
    {E : Fault → Session × Clipboard → Prop} {s : Session} {clip : Clipboard}
    (hwait : next s.core dir (s.inbound dir) = .wait → Q false (s, clip))
    (hrefuse : ∀ e, next s.core dir (s.inbound dir) = .refuse e → E (.refused e) (s, clip))
    (hskip : ∀ n, next s.core dir (s.inbound dir) = .skip n →
      Q true (s.setInbound ((s.inbound dir).take n).2 dir, clip))
    (htake : ∀ h iface m version, next s.core dir (s.inbound dir) = .take h iface m version →
      wp (handle k dir h iface m version (s.msg dir h) (s.fds dir h m))
        (fun _ w => Q true (s.handled dir (s.rest dir h m) w))
        (fun e w => E e (s.handled dir (s.rest dir h m) w)) ⟨s.core, clip⟩) :
    wp (pumpOnce k dir) Q E (s, clip) := by
  unfold wp pumpOnce
  cases hn : next s.core dir (s.inbound dir) with
  | wait => simpa only [hn] using hwait hn
  | refuse e => simpa only [hn] using hrefuse e hn
  | skip n => simpa only [hn] using hskip n hn
  | take h iface m version =>
    have hh := htake h iface m version hn
    simp only [hn]
    unfold wp at hh
    split at hh <;> rename_i hr <;> simpa only [hr] using hh

def pumpLoop (k : Kernel) (dir : Dir) : ℕ → PumpM Unit
  | 0 => throw .diverged
  | n + 1 => do if ← pumpOnce k dir then pumpLoop k dir n else return

/-- Process every complete message in one direction. Each turn takes at least a
header, so the pending bytes bound the turns. -/
def pump (k : Kernel) (dir : Dir) : PumpM Unit := do
  let (s, _) ← get
  pumpLoop k dir ((s.inbound dir).pendingIn.length + 1)

end Session

end Kryptik.Wlproxy
