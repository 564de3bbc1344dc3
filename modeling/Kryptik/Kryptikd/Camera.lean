import Kryptik.Kryptikd.ZoneSound
import Kryptik.Lib.Prog

namespace Kryptik.Kryptikd.Camera

open Lib Lib.Prog Lib.Text

structure Grant where
  zone : String
  node : String
  name : String
  device : String
  seqnum : ℕ

def isZoneName (s : List Char) : Bool :=
  !s.isEmpty && byteLen s ≤ 12 && s.all (fun c => isAsciiLowercase c || isAsciiDigit c || c == '-')

def isNode (s : List Char) : Bool :=
  match s.dropPrefix? "video".toList with
  | some n => !n.isEmpty && byteLen n ≤ 4 && n.all isAsciiDigit
  | none => false

def isDevpath (s : List Char) : Bool :=
  (s.dropPrefix? "/devices/".toList).isSome && byteLen s ≤ 512 && s.all isAsciiGraphic &&
    !(splitBy (· == '/') s).contains "..".toList

def isSysName (s : List Char) : Bool :=
  !s.isEmpty && byteLen s ≤ 64 && s != ".".toList && s != "..".toList &&
    s.all (fun c => isAsciiGraphic c && c != '/')

def Grant.recordLines (g : Grant) : List (List Char) :=
  ["zone ".toList ++ g.zone.toList, "node ".toList ++ g.node.toList, "name ".toList ++ g.name.toList,
    "device ".toList ++ g.device.toList, "seqnum ".toList ++ Nat.toDigits 10 g.seqnum]

def Grant.render (g : Grant) : List Char := g.recordLines.flatMap (· ++ ['\n'])

/-- What `Grant::parse` has read so far. -/
structure Fields where
  zone : Option String := none
  node : Option String := none
  name : Option String := none
  device : Option String := none
  seqnum : Option ℕ := none

def Fields.read (f : Fields) (line : List Char) : Option Fields :=
  match splitOnce ' ' line with
  | some (key, value) =>
    if key = "zone".toList ∧ isZoneName value then some { f with zone := some (String.ofList value) }
    else if key = "node".toList ∧ isNode value then some { f with node := some (String.ofList value) }
    else if key = "name".toList then some { f with name := some (String.ofList value) }
    else if key = "device".toList ∧ isDevpath value then
      some { f with device := some (String.ofList value) }
    else if key = "seqnum".toList then
      (parseUnsigned (2 ^ 64 - 1) value).map (fun n => { f with seqnum := some n })
    else none
  | none => none

def Fields.grant (f : Fields) : Option Grant := do
  let zone ← f.zone
  let node ← f.node
  let name ← f.name
  let device ← f.device
  let seqnum ← f.seqnum
  return { zone, node, name, device, seqnum }

def Grant.parse (text : List Char) : Option Grant :=
  ((Text.lines text).foldlM Fields.read {}) >>= Fields.grant

def Grant.endedBy (g : Grant) (devpath : String) (seqnum : ℕ) : Bool :=
  g.device == devpath && g.seqnum < seqnum

structure DeviceNode where
  major : ℕ
  minor : ℕ
  owner : ℕ
  deriving DecidableEq

/-- RUN_DIR: the node in each zone's directory, the grant's record, and the notes a grant's end leaves. -/
structure Host where
  nodes : String → Option DeviceNode
  record : Option (List Char)
  letGo : Option (List Char)
  stayed : Bool

def Host.fresh : Host := { nodes := fun _ => none, record := none, letGo := none, stayed := false }

def Host.holder (h : Host) : Option Grant := h.record.bind Grant.parse

def Host.setNode (h : Host) (zone : String) (node : Option DeviceNode) : Host :=
  { h with nodes := Function.update h.nodes zone node }

/-- What `/sys/class/video4linux` holds. -/
structure VideoClass where
  entries : List (String × Option (List Char))
  dev : String → Option (List Char)
  name : String → Option (List Char)

def u32Max : ℕ := 2 ^ 32 - 1

def VideoClass.found (sys : VideoClass) : List (ℕ × String) :=
  sys.entries.filterMap (fun (n, index) =>
    ((n.toList.dropPrefix? "video".toList).bind (parseUnsigned u32Max)).bind (fun num =>
      if isNode n.toList ∧ index = some "0".toList then some (num, n) else none))

def lowest (l : List (ℕ × String)) : Option (ℕ × String) :=
  (l.mergeSort (fun a b => a.1 < b.1 || (a.1 == b.1 && a.2 ≤ b.2))).head?

structure Found where
  node : String
  major : ℕ
  minor : ℕ
  name : String

def cameraName (text : Option (List Char)) : List Char :=
  let name := (((text.getD []).filter (fun c => isAsciiGraphic c || c == ' ')).take 48)
  if trim name = [] then "a camera".toList else trim name

def cameraIn (sys : VideoClass) : Option Found := do
  let (_, node) ← lowest sys.found
  let dev ← sys.dev node
  let (major, minor) ← splitOnce ':' dev
  let name := cameraName (sys.name node)
  let major ← parseUnsigned u32Max major
  let minor ← parseUnsigned u32Max minor
  return { node, major, minor, name := String.ofList name }

inductive Fault
  | refused
  | noUid
  | lock
  | zoneDir
  | kept
  | modprobe
  | noCamera
  | node
  | moved
  | unbind
  | letGo
  | record

abbrev CameraM := EStateM Fault Host

/-- What the end of a grant meets: the device behind the node, and which of its steps succeed. -/
structure EndIo where
  device : Option (List Char × List Char)
  unbind : Bool
  openLetGo : Bool
  writeLetGo : Bool
  unload : Bool
  writeStayed : Bool
  removeRecord : Bool

structure Ended where
  zone : String
  stayed : Bool

def require (done : Bool) (fault : Fault) : CameraM Unit := if done then pure () else throw fault

def letGoOf (io : EndIo) : CameraM Unit :=
  match io.device with
  | none => pure ()
  | some (bus, name) => do
    require io.unbind .unbind
    if isSysName bus ∧ isSysName name then
      require io.openLetGo .letGo
      modify (fun h => { h with
        letGo := some (h.letGo.getD [] ++ if io.writeLetGo then bus ++ ' ' :: name ++ ['\n'] else []) })

def endGrant (io : EndIo) (g : Grant) : CameraM Ended := do
  modify (Host.setNode · g.zone none)
  letGoOf io
  let stayed := !io.unload
  modify (fun h => { h with stayed := h.stayed || (stayed && io.writeStayed) })
  require io.removeRecord .record
  modify (fun h => { h with record := none })
  return { zone := g.zone, stayed }

structure GrantIo where
  locked : Bool
  ending : EndIo
  /-- the directory is there, or made, and is root's -/
  zoneDir : Bool
  /-- the module's reference count, where it reads -/
  refcnt : Option (List Char)
  load : Bool
  removeStayed : Bool
  removeLetGo : Bool
  /-- the looks at sysfs within the three seconds -/
  looks : List VideoClass
  mknod : Bool
  chown : Bool
  devpath : Option String
  seqnum : Option (List Char)
  write : Bool

def zoneDir (io : GrantIo) (zone : String) : CameraM Unit := do
  require io.zoneDir .zoneDir
  modify (fun h => if h.holder.all (fun g => g.zone != zone) then h.setNode zone none else h)

def kept (io : GrantIo) (h : Host) : Bool := h.letGo.isSome && io.refcnt.any (· != "0".toList)

def makeNode (io : GrantIo) (zone : String) (found : Found) (uid : ℕ) : CameraM Unit := do
  modify (Host.setNode · zone none)
  require io.mknod .node
  modify (Host.setNode · zone (some { major := found.major, minor := found.minor, owner := 0 }))
  if io.chown then
    modify (Host.setNode · zone (some { major := found.major, minor := found.minor, owner := uid }))
  else
    modify (Host.setNode · zone none)
    throw .node

def recordGrant (io : GrantIo) (zone : String) (found : Found) : CameraM Grant :=
  match io.devpath, io.seqnum.bind (parseUnsigned (2 ^ 64 - 1)) with
  | some device, some seqnum => do
    let g : Grant := { zone, node := found.node, name := found.name, device, seqnum }
    if io.write then
      modify (fun h => { h with record := some g.render })
      return g
    else
      modify (Host.setNode · zone none)
      throw .record
  | _, _ => do
    modify (Host.setNode · zone none)
    throw .moved

def grantAnew (io : GrantIo) (zone : String) (uid : ℕ) : CameraM Grant := do
  zoneDir io zone
  let h ← get
  require (!kept io h) .kept
  require io.load .modprobe
  modify (fun h => { h with
    stayed := h.stayed && !io.removeStayed, letGo := if io.removeLetGo then none else h.letGo })
  match io.looks.findSome? cameraIn with
  | none => throw .noCamera
  | some found => do
    makeNode io zone found uid
    recordGrant io zone found

def grant (io : GrantIo) (zone : Zone) : CameraM Grant := do
  require zone.camera .refused
  match zone.uidBase with
  | none => throw .noUid
  | some uid => do
    require io.locked .lock
    let h ← get
    match h.holder with
    | some g =>
      if g.zone = zone.name then return g
      else do
        let _ ← endGrant io.ending g
        grantAnew io zone.name uid
    | none => grantAnew io zone.name uid

/-- `revoke`, `revoke_from` and `gone` end the grant in force if it is one they mean. -/
def endIf (locked : Bool) (io : EndIo) (meant : Grant → Bool) : CameraM (Option Ended) := do
  require locked .lock
  let h ← get
  match h.holder with
  | some g => if meant g then some <$> endGrant io g else return none
  | none => return none

def revoke (locked : Bool) (io : EndIo) : CameraM (Option Ended) := endIf locked io (fun _ => true)

def revokeFrom (locked : Bool) (io : EndIo) (zone : String) : CameraM (Option Ended) :=
  endIf locked io (fun g => g.zone == zone)

def gone (locked : Bool) (io : EndIo) (devpath : String) (seqnum : ℕ) : CameraM (Option Ended) :=
  endIf locked io (fun g => g.endedBy devpath seqnum)

end Kryptik.Kryptikd.Camera
