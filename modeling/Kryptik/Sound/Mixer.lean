import Kryptik.Lib.Scanf
import Kryptik.Lib.Slots

namespace Kryptik.Sound

open Lib Lib.Scanf

def frame : ℕ := 4
def period : ℕ := 480
def ringSize : ℕ := period * 8 * frame
def maxConns : ℕ := 64
def perZone : ℕ := 8
def controlSlots : ℕ := 8
def helloMs : ℤ := 2000
def lineSize : ℕ := 128

inductive Kind
  | hello
  | play
  | record
  | control
  deriving DecidableEq

structure Zone where
  name : List UInt8
  uid : ℕ
  volume : ℤ
  muted : Bool

/-- A connection of a zone, or, with no zone, of control. `peer` is the uid the kernel asserts. -/
structure Conn where
  fd : ℕ
  kind : Kind
  zone : Option ℕ
  peer : Option ℕ
  line : List UInt8
  since : ℤ
  ring : List UInt8
  hup : Bool

/-- Captured bytes written to a peer, and the zone that held the microphone then. -/
structure Heard where
  granted : Option ℕ
  peer : Option ℕ
  bytes : List UInt8

structure Mixer where
  zones : List Zone
  conns : List (Option Conn)
  granted : Option ℕ
  master : ℤ
  masterMuted : Bool
  /-- the card is open for capture -/
  capturing : Bool
  /-- what the file at HOLDER_PATH holds -/
  holder : List UInt8
  heard : List Heard

namespace Mixer

variable (m : Mixer)

def conn (i : ℕ) : Option Conn := Slots.get m.conns i

def setConn (i : ℕ) (c : Option Conn) : Mixer := { m with conns := m.conns.set i c }

def endConn (i : ℕ) : Mixer := m.setConn i none

def streamsOf (zone : Option ℕ) : ℕ :=
  Slots.count (fun c => c.kind != .control && (zone == none || c.zone == zone)) m.conns

/-- The first free slot takes the connection; descriptor 0 leaves its slot free. -/
def newConn (c : Conn) : Mixer :=
  match m.conns.findIdx? Option.isNone with
  | some i => m.setConn i (if c.fd = 0 then none else some c)
  | none => m

/-- `accept_on`, once `accept4` gave `fd`; `cred` is what SO_PEERCRED says, if it can be asked. -/
def acceptOn (zone : Option ℕ) (fd : ℕ) (cred : Option ℕ) (now : ℤ) : Mixer :=
  let c : Conn := { fd, kind := .hello, zone, peer := cred, line := [], since := now, ring := [], hup := false }
  match zone with
  | none => m.newConn { c with kind := .control }
  | some z =>
    if cred = none ∨ cred ≠ m.zones[z]?.map Zone.uid then m
    else if perZone ≤ m.streamsOf (some z) ∨ maxConns - controlSlots ≤ m.streamsOf none then m
    else m.newConn c

def zoneNamed (name : List UInt8) : Option ℕ := m.zones.findIdx? (fun z => z.name == name)

def unlessRecords (keep : Option ℕ) (c : Conn) : Option Conn :=
  if c.kind = .record ∧ c.zone ≠ keep then none else some c

def endRecords (keep : Option ℕ) : Mixer :=
  { m with conns := m.conns.map (fun slot => slot.bind (unlessRecords keep)) }

def holderText : List UInt8 :=
  match m.granted.bind (m.zones[·]?) with
  | some z => z.name ++ [10]
  | none => []

end Mixer

/-- How a file written whole and renamed into place fares: its text cut where the disk is full, or
nothing put in place. -/
inductive Put
  | whole
  | cut (n : ℕ)
  | failed

def Mixer.recordHolder (m : Mixer) : Put → Mixer
  | .whole => { m with holder := m.holderText }
  | .cut n => { m with holder := m.holderText.take n }
  | .failed => m

/-- `sscanf(line, "%15s %39s %15s")`: the words it converts. -/
def scanLine (line : List UInt8) : List (List UInt8) :=
  match scanWord 15 line with
  | none => []
  | some (a, rest) => match scanWord 39 rest with
    | none => [a]
    | some (b, rest) => match scanWord 15 rest with
      | none => [a, b]
      | some (d, _) => [a, b, d]

def text (s : String) : List UInt8 := s.toList.map (fun c => UInt8.ofNat c.toNat)

def digits (s : List UInt8) : Option ℤ :=
  if s = [] ∨ !s.all isDigit then none
  else some (s.foldl (fun n c => 10 * n + ((c.toNat : ℤ) - 48)) 0)

/-- `level`: a number, or a step from `now`, kept within 0 and 100. -/
def level (s : List UInt8) (now : ℤ) : Option ℤ :=
  let signed (sign : ℤ) (s : List UInt8) := ((digits s).filter (· ≤ 100)).map (fun v => sign * v + now)
  let v := match s with
    | 43 :: rest => signed 1 rest
    | 45 :: rest => signed (-1) rest
    | _ => (digits s).filter (· ≤ 100)
  v.map (fun v => max 0 (min 100 v))

def switched (s : List UInt8) (now : Bool) : Option Bool :=
  if s = text "on" then some true
  else if s = text "off" then some false
  else if s = text "toggle" then some !now
  else none

inductive Answer
  | ok
  | status
  | noZone
  | usage
  | notGranted
  | inUse
  | playOrRecord
  | noMemory

namespace Mixer

variable (m : Mixer)

def setZone (z : ℕ) (f : Zone → Zone) : Mixer := { m with zones := m.zones.modify z f }

def control (put : Put) (line : List UInt8) : Mixer × Answer :=
  match scanLine line with
  | [a] =>
    if a = text "status" then (m, .status)
    else if a = text "revoke" then
      if m.granted.isSome then ({ m.endRecords none with granted := none }.recordHolder put, .ok)
      else (m, .ok)
    else (m, .usage)
  | [a, b] =>
    if a = text "grant" then
      match m.zoneNamed b with
      | none => (m, .noZone)
      | some z => ({ m.endRecords (some z) with granted := some z }.recordHolder put, .ok)
    else if a = text "revoke" then
      match m.zoneNamed b with
      | none => (m, .noZone)
      | some z =>
        if m.granted = some z then ({ m.endRecords none with granted := none }.recordHolder put, .ok)
        else (m, .ok)
    else if a = text "volume" then
      match level b m.master with
      | some v => ({ m with master := v }, .ok)
      | none => (m, .usage)
    else if a = text "mute" then
      match switched b m.masterMuted with
      | some v => ({ m with masterMuted := v }, .ok)
      | none => (m, .usage)
    else (m, .usage)
  | [a, b, d] =>
    if a = text "volume" ∨ a = text "mute" then
      match m.zoneNamed b with
      | none => (m, .noZone)
      | some z =>
        if a = text "volume" then
          match (m.zones[z]?.bind fun zone => level d zone.volume) with
          | some v => (m.setZone z ({ · with volume := v }), .ok)
          | none => (m, .usage)
        else
          match (m.zones[z]?.bind fun zone => switched d zone.muted) with
          | some v => (m.setZone z ({ · with muted := v }), .ok)
          | none => (m, .usage)
    else (m, .usage)
  | _ => (m, .usage)

def controlLine (i : ℕ) (put : Put) (line : List UInt8) : Mixer × Answer :=
  let (m, answer) := m.control put line
  (m.endConn i, answer)

def recording : Bool := m.conns.any (fun slot => slot.any (fun c => c.kind == .record))

def refusal (c : Conn) (memory : Bool) (line : List UInt8) : Option Answer :=
  if line = text "record" ∧ m.granted ≠ c.zone then some .notGranted
  else if line = text "record" ∧ m.recording then some .inUse
  else if line ≠ text "play" ∧ line ≠ text "record" then some .playOrRecord
  else if !memory then some .noMemory
  else none

def helloLine (i : ℕ) (c : Conn) (memory : Bool) (line : List UInt8) : Mixer × Answer :=
  match m.refusal c memory line with
  | some answer => (m.endConn i, answer)
  | none => (m.setConn i (some { c with kind := if line = text "play" then .play else .record, ring := [] }), .ok)

end Mixer

/-- What a turn of the loop finds at a connection: the bytes there, whether its end (or an error) is
behind them, and how the calls made for it fare. -/
structure ReadyIo where
  bytes : List UInt8
  closed : Bool
  hangUp : Bool
  memory : Bool
  put : Put

def cString (line : List UInt8) : List UInt8 := line.takeWhile (· != 0)

namespace Mixer

variable (m : Mixer)

/-- `read_line`: byte by byte up to a newline. -/
def readLine (io : ReadyIo) (i : ℕ) : List UInt8 → Conn → Mixer
  | [], c => if io.closed then m.endConn i else m.setConn i (some c)
  | ch :: rest, c =>
    if ch = 10 then
      let said := { c with line := [] }
      let m := m.setConn i (some said)
      if c.kind = .control then (m.controlLine i io.put (cString c.line)).1
      else (m.helloLine i said io.memory (cString c.line)).1
    else if lineSize ≤ c.line.length + 1 then m.endConn i
    else readLine io i rest { c with line := c.line ++ [ch] }

/-- `read_play`: as much as the ring holds; a stream that ends there has hung up. -/
def readPlay (io : ReadyIo) (i : ℕ) (c : Conn) : Mixer :=
  let room := ringSize - c.ring.length
  let ring := c.ring ++ io.bytes.take room
  if io.bytes.length < room ∧ io.closed then
    if ring.length < frame then m.endConn i
    else m.setConn i (some { c with ring, hup := true })
  else m.setConn i (some { c with ring })

/-- One connection that `poll` names: what its kind has read, or its end seen. -/
def ready (io : ReadyIo) (i : ℕ) : Mixer :=
  match m.conn i with
  | none => m
  | some c => match c.kind with
    | .play => m.readPlay io i c
    | .hello | .control => m.readLine io i io.bytes c
    | .record => if io.hangUp then m.endConn i else m

def expire (i : ℕ) (now : ℤ) : Mixer :=
  match m.conn i with
  | none => m
  | some c =>
    if (c.kind = .hello ∨ c.kind = .control) ∧ helloMs < now - c.since then m.endConn i else m

def mixed (c : Conn) : Option Conn :=
  if c.kind = .play then
    let taken := min (c.ring.length / frame) period * frame
    let ring := c.ring.drop taken
    if c.hup ∧ ring.length < frame then none else some { c with ring }
  else some c

def mix : Mixer := { m with conns := m.conns.map (fun slot => slot.bind mixed) }

end Mixer

/-- What the card and the recording zone's socket do in one `record_in`: whether the card opens, the
periods captured, whether it stopped behind them, how many bytes the socket takes, and whether it then
fails. -/
structure CaptureIo where
  opens : Bool
  periods : List (List UInt8)
  stopped : Bool
  takes : ℕ
  fails : Bool

namespace Mixer

variable (m : Mixer)

def isRecord (slot : Option Conn) : Bool := slot.any (fun c => c.kind == .record)

def recorder : Option (ℕ × Conn) :=
  match (m.conns.reverse.findIdx? isRecord) with
  | none => none
  | some k =>
    let i := m.conns.length - 1 - k
    (m.conn i).map (fun c => (i, c))

def capture (ring bytes : List UInt8) : List UInt8 :=
  if ringSize < ring.length + bytes.length then ring else ring ++ bytes

def hear (c : Conn) (bytes : List UInt8) : Mixer :=
  let heard : Heard := { granted := m.granted, peer := c.peer, bytes }
  { m with heard := m.heard ++ [heard] }

def recordIn (io : CaptureIo) : Mixer :=
  match m.recorder with
  | none => { m with capturing := false }
  | some (i, c) =>
    if !m.capturing ∧ !io.opens then m.endConn i
    else
      let m := { m with capturing := true }
      let ring := io.periods.foldl capture c.ring
      if io.stopped then { m.endConn i with capturing := false }
      else
        let sent := ring.take io.takes
        let left := ring.drop io.takes
        let m := m.hear c sent
        if left ≠ [] ∧ io.fails then m.endConn i
        else m.setConn i (some { c with ring := left })

end Mixer

inductive Event
  | accept (zone : Option ℕ) (fd : ℕ) (cred : Option ℕ) (now : ℤ)
  | expire (i : ℕ) (now : ℤ)
  | ready (i : ℕ) (io : ReadyIo)
  | mix
  | capture (io : CaptureIo)

def Mixer.step (m : Mixer) : Event → Mixer
  | .accept zone fd cred now => m.acceptOn zone fd cred now
  | .expire i now => m.expire i now
  | .ready i io => m.ready io i
  | .mix => m.mix
  | .capture io => m.recordIn io

/-- The mixer once it has read its zones and written, as `put` fared, that no zone may record. -/
def Mixer.start (zones : List Zone) (holder : List UInt8) (master : ℤ) (masterMuted : Bool) (put : Put) : Mixer :=
  let m : Mixer :=
    { zones, conns := List.replicate maxConns none, granted := none, master, masterMuted, capturing := false,
      holder, heard := [] }
  m.recordHolder put

end Kryptik.Sound
