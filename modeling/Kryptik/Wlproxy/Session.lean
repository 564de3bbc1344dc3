import Kryptik.Wlproxy.Clipboard
import Kryptik.Wlproxy.Objects
import Kryptik.Wlproxy.Shm

namespace Kryptik.Wlproxy

open Lib Prog Tables Wire Protocol

/-- Where a queued message comes from. Towards the compositor: a request passed
on, the placeholder of a served object, or the app id stamped on a new toplevel.
Towards the client: an event passed on, or a message of the proxy's own. -/
inductive Origin
  | request
  | placeholder
  | stamp
  | event
  | own
  deriving DecidableEq

structure Sent where
  origin : Origin
  bytes : Bytes
  objects : Objects

/-- A data source's types; `birth` is history and tells it from another one
made under its id. -/
structure Source where
  types : List String
  birth : ℕ

/-- History of a descriptor handed to a data source with a send event. -/
structure Handed where
  source : ℕ
  birth : ℕ
  mime : String
  fd : Fd
  asked : Option ℕ

/-- A session without the inbound halves of its endpoints, which only `pump`
itself touches: what one message works on. The last four fields are history. -/
structure Core where
  zone : String
  holdAwake : Bool := false
  id : ℕ := 0
  client : Outbound := {}
  server : Outbound := {}
  objects : Objects := .new (.wlDisplay, 1)
  shm : Shm := {}
  toplevels : ℕ := 0
  popups : ℕ := 0
  globals : Table ℕ (String × ℕ) := ∅
  outputs : Table ℕ ℕ := ∅
  sources : Table ℕ Source := ∅
  devices : List ℕ := []
  offers : Table ℕ ℕ := ∅
  placeholders : Table ℕ ℕ := ∅
  hiddenCount : ℕ := 0
  forwardedC2s : ℕ := 0
  forwardedS2c : ℕ := 0
  rewritten : ℕ := 0
  sentUp : List Sent := []
  sentDown : List Sent := []
  births : ℕ := 0
  handed : List Handed := []

abbrev CoreM := EStateM Fault Core

/-- What a message works on: its session and the zone's clipboard. -/
structure World where
  core : Core
  clip : Clipboard

abbrev M := EStateM Fault World

variable {α : Type}

def onObjects (x : EStateM Fault Objects α) : CoreM α :=
  zoom Core.objects (fun o c => { c with objects := o }) x

def onShm (x : ShmM α) : CoreM α := zoom Core.shm (fun t c => { c with shm := t }) x

def onCore (x : CoreM α) : M α := zoom World.core (fun c w => { w with core := c }) x

def readArgs (x : ArgReader α) (body : Bytes) : Except WireError α := (x body).map Prod.fst

lemma readArgs_ok {x : ArgReader α} {body : Bytes} {a : α} (h : readArgs x body = .ok a) :
    ∃ left, x body = .ok (a, left) := by
  unfold readArgs at h
  cases hx : x body with
  | error e => simp [hx, Except.map] at h
  | ok r =>
    obtain ⟨a', left⟩ := r
    obtain rfl : a' = a := by simpa [hx, Except.map] using h
    exact ⟨left, rfl⟩

def wlDisplay : ℕ := 1
def wlDisplaySync : ℕ := 0
def wlDisplayDeleteId : ℕ := 1
def wlDataOfferOffer : ℕ := 0
def wlDataSourceSend : ℕ := 1
def wlDataSourceCancelled : ℕ := 2
def wlDataDeviceDataOffer : ℕ := 0
def wlDataDeviceSelection : ℕ := 5
def wlRegistryBind : ℕ := 0
def wlRegistryGlobal : ℕ := 0
def wlRegistryGlobalRemove : ℕ := 1

def Protocol.Interface.table (i : Interface) : Dir → List Message
  | .clientToServer => i.requests
  | .serverToClient => i.events

namespace Core

def lookup (c : Core) (id : ℕ) (dir : Dir) (opcode : ℕ) : Except SessionError (Interface × Message × ℕ) :=
  match c.objects.get id with
  | none => .error (.unknownObject id)
  | some (iface, version) => match (iface.table dir)[opcode]? with
    | none => .error (.unknownOpcode iface opcode)
    | some m =>
      if version < m.since then
        .error (.versionTooHigh (iface.name ++ "." ++ m.name) m.since version)
      else .ok (iface, m, version)

def inRange (id : ℕ) : Dir → Bool
  | .clientToServer => id < serverIdBase
  | .serverToClient => !(id < serverIdBase)

def register (id : ℕ) (name : String) (version : ℕ) (dir : Dir) : CoreM Unit := do
  if !inRange id dir || id = 0 then fail (.idOutOfRange id dir) else
    let iface ← orRefuse (.hiddenInterface name) (find name)
    let c ← get
    if iface = .xdgToplevel ∧ Policy.maxToplevelsPerSession ≤ c.toplevels then
      fail (.resourceLimit "too many toplevels in one session")
    else if iface = .xdgPopup ∧ Policy.maxPopupsPerSession ≤ c.popups then
      fail (.resourceLimit "too many popups in one session")
    else
      let objects ← liftSession (c.objects.insert id (iface, version))
      set { c with
        objects := objects
        toplevels := if iface = Interface.xdgToplevel then c.toplevels + 1 else c.toplevels
        popups := if iface = Interface.xdgPopup then c.popups + 1 else c.popups }

def queueUp (origin : Origin) (msg : Bytes) (fds : List Fd) : CoreM Unit :=
  modify (fun c => { c with
    server := c.server.queue msg fds
    sentUp := c.sentUp ++ [⟨origin, msg, c.objects⟩] })

def queueDown (origin : Origin) (msg : Bytes) (fds : List Fd) : CoreM Unit :=
  modify (fun c => { c with
    client := c.client.queue msg fds
    sentDown := c.sentDown ++ [⟨origin, msg, c.objects⟩] })

def emit (msg : Option Bytes) (fds : List Fd) : CoreM Unit := do
  let msg ← orRefuse (.resourceLimit "a message of the proxy's own does not fit") msg
  let c ← get
  if Policy.maxPendingBytes < c.client.pendingOut + msg.length then
    fail (.tooMuchPending .serverToClient)
  else if Policy.maxPendingFds < c.client.pendingFds + fds.length then fail .tooManyFds
  else queueDown .own msg fds

/-- The compositor is sent a wl_display.sync on the id of an object the proxy
serves, so the ids it sees stay dense. -/
def placeholder (id : ℕ) : CoreM Unit := do
  let m ← orRefuse (.resourceLimit "a placeholder does not fit")
    ((MessageWriter.new wlDisplay wlDisplaySync).u32 id).finish
  let c ← get
  if Policy.maxPendingBytes < c.server.pendingOut + m.length then
    fail (.tooMuchPending .clientToServer)
  else
    queueUp .placeholder m []
    modify (fun c => { c with
      placeholders := c.placeholders.insert id ((c.placeholders.lookup id).getD 0 + 1) })

def endPlaceholder (id : ℕ) : CoreM Bool := do
  let c ← get
  match c.placeholders.lookup id with
  | none => return false
  | some n =>
    let n ← checkedSub n 1
    set { c with
      placeholders := if n = 0 then c.placeholders.erase id else c.placeholders.insert id n }
    return true

def servedGone (id : ℕ) : CoreM Unit := do
  onObjects (Objects.remove id)
  emit ((MessageWriter.new wlDisplay wlDisplayDeleteId).u32 id).finish []

def cancel (source : ℕ) : CoreM Unit :=
  emit (MessageWriter.new source wlDataSourceCancelled).finish []

/-- The zone's selection offered to one data device: a new wl_data_offer with
each type, then the selection event naming it, or naming none. -/
def offerTo (clip : Clipboard) (dev : ℕ) : CoreM Unit := do
  let c ← get
  match c.objects.get dev with
  | none => return
  | some (_, version) => match clip.selection with
    | none => emit ((MessageWriter.new dev wlDataDeviceSelection).u32 0).finish []
    | some sel =>
      let offer ← orRefuse .tooManyObjects c.objects.freeServerId
      register offer "wl_data_offer" version .serverToClient
      modify (fun c => { c with offers := c.offers.insert offer clip.generation })
      emit ((MessageWriter.new dev wlDataDeviceDataOffer).u32 offer).finish []
      sel.mimes.forM (fun t => emit ((MessageWriter.new offer wlDataOfferOffer).string t).finish [])
      emit ((MessageWriter.new dev wlDataDeviceSelection).u32 offer).finish []

def offerSelection (clip : Clipboard) (devices : List ℕ) : CoreM Unit :=
  devices.forM (offerTo clip)

def act (clip : Clipboard) (a : Action) : CoreM Unit := do
  let c ← get
  match a with
  | .offer _ => if clip.focus = some c.id then offerSelection clip c.devices else return
  | .cancel _ source => if source ∈ c.sources then cancel source else return
  | .send _ source mime fd asked => match c.sources.lookup source with
    | none => return
    | some src =>
      emit ((MessageWriter.new source wlDataSourceSend).string mime).finish [fd]
      modify (fun c => { c with handed := c.handed ++ [⟨source, src.birth, mime, fd, asked⟩] })

end Core

open Wlproxy.Core

def onClip (f : Clipboard → Clipboard) : M Unit := modify (fun w => { w with clip := f w.clip })

namespace Serve

def createDataSource (body : Bytes) : M Unit := onCore do
  let c ← get
  if Policy.maxDataSourcesPerSession ≤ size c.sources then
    fail (.resourceLimit "too many data sources in one session")
  else
    let id ← liftWire (readArgs ArgReader.u32 body)
    set { c with sources := c.sources.insert id ⟨[], c.births⟩, births := c.births + 1 }

def getDataDevice (body : Bytes) : M Unit := onCore do
  let id ← liftWire (readArgs ArgReader.u32 body)
  modify (fun c => { c with devices := c.devices ++ [id] })

def sourceOffer (object : ℕ) (body : Bytes) : M Unit := onCore do
  let mime := (← liftWire (readArgs ArgReader.string body)).getD ""
  let c ← get
  let src ← orRefuse (.unknownObject object) (c.sources.lookup object)
  if Policy.maxMimeTypes ≤ src.types.length ∨ Policy.maxMimeBytes < mime.utf8ByteSize then
    fail (.resourceLimit "a data source's types")
  else if mime ∈ src.types then return
  else set { c with sources := c.sources.insert object { src with types := src.types ++ [mime] } }

def sourceDestroy (object : ℕ) : M Unit := do
  let w ← get
  onCore (modify (fun c => { c with sources := c.sources.erase object }))
  onClip (fun clip => clip.sourceGone w.core.id object)
  onCore (servedGone object)

def setSelection (body : Bytes) : M Unit := do
  let source ← liftWire (readArgs ArgReader.u32 body)
  let w ← get
  if source ≠ 0 ∧ source ∉ w.core.sources then
    fail (.forbidden "set_selection names no data source of this client's")
  else if w.clip.focus = some w.core.id then
    if source = 0 then onClip (fun clip => clip.setSelection none)
    else
      let src ← unwrap (w.core.sources.lookup source)
      onClip (fun clip => clip.setSelection (some {
        owner := w.core.id, source := source, mimes := src.types, data := none,
        birth := src.birth }))
  else if source ≠ 0 ∧ ¬ w.clip.holds w.core.id source then onCore (cancel source)
  else return

def startDrag (body : Bytes) : M Unit := onCore do
  let source ← liftWire (readArgs ArgReader.u32 body)
  let c ← get
  if source ∈ c.sources then cancel source else return

def deviceRelease (object : ℕ) : M Unit := onCore do
  modify (fun c => { c with devices := c.devices.filter (· ≠ object) })
  servedGone object

/-- A paste, passed to the copy's client. An older selection's offer or a type
not offered drops the descriptor, and the reader gets end of file. -/
def receive (object : ℕ) (body : Bytes) (fds : List Fd) : M Unit := do
  let mime := (← liftWire (readArgs ArgReader.string body)).getD ""
  let w ← get
  match w.clip.selection, fds.getLast? with
  | some sel, some fd =>
    if w.core.offers.lookup object = some w.clip.generation ∧ mime ∈ sel.mimes then
      onClip (fun clip => { clip with
        actions := clip.actions ++ [.send sel.owner sel.source mime fd (w.core.offers.lookup object)] })
    else return
  | _, _ => return

def offerDestroy (object : ℕ) : M Unit := onCore do
  modify (fun c => { c with offers := c.offers.erase object })
  onObjects (Objects.remove object)

end Serve

def serve (iface : Interface) (request : String) (object : ℕ) (body : Bytes) (fds : List Fd) : M Unit :=
  if iface = .wlDataDeviceManager ∧ request = "create_data_source" then Serve.createDataSource body
  else if iface = .wlDataDeviceManager ∧ request = "get_data_device" then Serve.getDataDevice body
  else if iface = .wlDataSource ∧ request = "offer" then Serve.sourceOffer object body
  else if iface = .wlDataSource ∧ request = "destroy" then Serve.sourceDestroy object
  else if iface = .wlDataDevice ∧ request = "set_selection" then Serve.setSelection body
  else if iface = .wlDataDevice ∧ request = "start_drag" then Serve.startDrag body
  else if iface = .wlDataDevice ∧ request = "release" then Serve.deviceRelease object
  else if iface = .wlDataOffer ∧ request = "receive" then Serve.receive object body fds
  else if iface = .wlDataOffer ∧ request = "destroy" then Serve.offerDestroy object
  else pure ()

end Kryptik.Wlproxy
