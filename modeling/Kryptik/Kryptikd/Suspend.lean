import Mathlib

namespace Kryptik.Kryptikd.Suspend

/-- A device-mapper mapping: with its key, suspended without it, or failing every access. -/
inductive Mapping
  | keyed
  | suspended
  | failed
  deriving DecidableEq

/-- A zone's leaf: none recorded in kryptikd's tree, one that is gone, or one with its
`cgroup.freeze` and the `frozen` line of its `cgroup.events`. -/
inductive Cgroup
  | unrecorded
  | gone
  | live (freeze frozen : Bool)
  deriving DecidableEq

structure Entry where
  running : Bool
  cgroup : Cgroup

structure Host where
  /-- `registry::names()`. -/
  names : List String
  zones : String → Entry
  /-- `volume::mappings()`. -/
  mapped : List String
  volumes : String → Mapping
  state : Mapping
  syncOnSuspend : Bool
  leftWaiting : ℕ

def Host.volume (h : Host) (zone : String) : Option Mapping :=
  if zone ∈ h.mapped then some (h.volumes zone) else none

/-- The host, and each zone whose `cgroup.freeze` was written 0, with its volume's mapping then. -/
structure Machine where
  host : Host
  thaws : List (String × Option Mapping)

def Host.leaf (h : Host) (zone : String) : Cgroup :=
  if (h.zones zone).running then (h.zones zone).cgroup else .unrecorded

def Host.setCgroup (h : Host) (zone : String) (c : Cgroup) : Host :=
  { h with zones := Function.update h.zones zone { h.zones zone with cgroup := c } }

@[simp] lemma Host.setCgroup_self (h : Host) (zone : String) (c : Cgroup) :
    (h.setCgroup zone c).zones zone = { h.zones zone with cgroup := c } := Function.update_self ..

@[simp] lemma Host.setCgroup_of_ne (h : Host) {zone z : String} (c : Cgroup) (hz : z ≠ zone) :
    (h.setCgroup zone c).zones z = h.zones z := Function.update_of_ne hz ..

def Cgroup.setFreeze (on : Bool) : Cgroup → Cgroup
  | .live _ frozen => .live on (on && frozen)
  | c => c

def Host.setVolume (h : Host) (zone : String) (v : Mapping) : Host :=
  { h with volumes := Function.update h.volumes zone v }

def Machine.freeze (m : Machine) (zone : String) : Machine :=
  { m with host := m.host.setCgroup zone ((m.host.zones zone).cgroup.setFreeze true) }

def Machine.thaw (m : Machine) (zone : String) : Machine where
  host := m.host.setCgroup zone ((m.host.zones zone).cgroup.setFreeze false)
  thaws := m.thaws ++ [(zone, m.host.volume zone)]

inductive Refusal
  | updating
  | noCgroup (zone : String)
  | freezeFailed (zone e : String)
  | slowFreeze (zone : String)
  | syncOnSuspend (e : String)
  | volumeFailed (zone e : String)
  | stateFailed (e : String)

/-- The reads of `thaw`: which looks at a mapping's `suspended` and which at a leaf's
`cgroup.freeze` succeed. -/
structure Looks where
  suspended : String → Bool
  held : String → Bool

/-- The zones whose volume waits, as far as the looks succeed. -/
def Host.waiting (h : Host) (looks : Looks) : List String :=
  h.mapped.filter (fun zone => looks.suspended zone && h.volumes zone = .suspended)

/-- `held`: a read that fails, and one of a leaf that is gone, says no. -/
def Host.held (h : Host) (looks : Looks) (zone : String) : Bool :=
  match h.leaf zone with
  | .live freeze _ => looks.held zone && freeze
  | _ => false

def thawEach (looks : Looks) (waiting : List String) : List String → Machine → Machine
  | [], m => m
  | zone :: zones, m =>
    if zone ∈ waiting then thawEach looks waiting zones m
    else if m.host.held looks zone then thawEach looks waiting zones (m.thaw zone)
    else thawEach looks waiting zones m

/-- `thaw()`: every zone a suspend froze but those whose volume waits. -/
def thaw (looks : Looks) (m : Machine) : Machine :=
  thawEach looks (m.host.waiting looks) m.host.names m

def undo (done : List String) (m : Machine) : Machine := done.foldl Machine.thaw m

structure SealAnswers where
  locked : Bool
  freeze : String → Except String Unit
  /-- Whether a zone says in time that it is frozen. -/
  frozen : String → Bool
  syncOnSuspend : Except String Unit
  looks : String → Bool
  suspend : String → Except String Unit
  suspendState : Except String Unit
  thaw : Looks
  /-- Whether `left-waiting` can be written. -/
  count : Bool

section Seal

variable (a : SealAnswers)

def freezeEach : List String → List String → Machine → Machine × Except Refusal (List String)
  | [], done, m => (m, .ok done)
  | zone :: zones, done, m =>
    if (m.host.zones zone).running then
      match (m.host.zones zone).cgroup with
      | .unrecorded => (undo done m, .error (.noCgroup zone))
      | .gone => freezeEach zones done m
      | .live _ _ =>
        match a.freeze zone with
        | .ok () => freezeEach zones (done ++ [zone]) (m.freeze zone)
        | .error e => (undo done m, .error (.freezeFailed zone e))
    else freezeEach zones done m

def Machine.settleFrozen (m : Machine) (zone : String) : Machine :=
  { m with host := m.host.setCgroup zone (.live true true) }

def freezeAll (m : Machine) : Machine × Except Refusal (List String) :=
  match freezeEach a m.host.names [] m with
  | (m, .error why) => (m, .error why)
  | (m, .ok done) =>
    match done.find? (fun zone => !a.frozen zone) with
    | some zone => (undo done m, .error (.slowFreeze zone))
    | none => (done.foldl Machine.settleFrozen m, .ok done)

def countLeftWaiting (wiped : Bool) (m : Machine) : Machine :=
  if wiped && a.count then { m with host := { m.host with leftWaiting := m.host.leftWaiting + 1 } } else m

/-- Suspend the mapped volumes in turn; whether a key was wiped. -/
def suspendEach : List String → Bool → Machine → Machine × Bool × Except Refusal Unit
  | [], wiped, m => (m, wiped, .ok ())
  | zone :: zones, wiped, m =>
    if a.looks zone && m.host.volumes zone = .suspended then suspendEach zones wiped m
    else match a.suspend zone with
      | .error e => (m, wiped, .error (.volumeFailed zone e))
      | .ok () => suspendEach zones true { m with host := m.host.setVolume zone .suspended }

def suspendAll (m : Machine) : Machine × Bool × Except Refusal Unit :=
  match a.syncOnSuspend with
  | .error e => (m, false, .error (.syncOnSuspend e))
  | .ok () =>
    let m := { m with host := { m.host with syncOnSuspend := false } }
    match suspendEach a m.host.mapped false m with
    | (m, wiped, .error why) => (m, wiped, .error why)
    | (m, wiped, .ok ()) =>
      match a.suspendState with
      | .error e => (m, wiped, .error (.stateFailed e))
      | .ok () => ({ m with host := { m.host with state := .suspended } }, wiped, .ok ())

def sealAll (m : Machine) : Machine × Except Refusal (List String) :=
  if a.locked then (m, .error .updating)
  else match freezeAll a m with
    | (m, .error why) => (m, .error why)
    | (m, .ok zones) =>
      match suspendAll a m with
      | (m, wiped, .error why) => (countLeftWaiting a wiped (thaw a.thaw m), .error why)
      | (m, _, .ok ()) => (m, .ok zones)

end Seal

/-- What `cryptsetup luksResume` or `dmsetup wipe_table` comes to; one that fails may still
have done its work. -/
inductive Ran
  | ok
  | wrong
  | failed (done : Bool)

inductive ResumeError
  | wrong
  | failed

/-- `resume_state`, with whether `sync_on_suspend` can be written. -/
def resumeState (ran : Ran) (sync : Bool) (looks : Looks) (m : Machine) : Machine × Except ResumeError Unit :=
  match ran with
  | .ok =>
    let host := { m.host with state := .keyed, syncOnSuspend := m.host.syncOnSuspend || sync }
    (thaw looks { m with host }, .ok ())
  | .wrong => (m, .error .wrong)
  | .failed done =>
    ({ m with host := { m.host with state := if done then .keyed else m.host.state } }, .error .failed)

def thawZone (looks : Looks) (zone : String) (m : Machine) : Machine :=
  if m.host.held looks zone then m.thaw zone else m

/-- `resume_zone`, with whether the look at the state partition's mapping succeeds. -/
def resumeZone (zone : String) (lookState : Bool) (ran : Ran) (looks : Looks) (m : Machine) :
    Machine × Except ResumeError Unit :=
  if lookState && m.host.state = .suspended then (m, .error .failed)
  else if zone ∉ m.host.waiting looks then (m, .error .failed)
  else match ran with
    | .ok => (thawZone looks zone { m with host := m.host.setVolume zone .keyed }, .ok ())
    | .wrong => (m, .error .wrong)
    | .failed done =>
      (if done then { m with host := m.host.setVolume zone .keyed } else m, .error .failed)

def giveUpZone (zone : String) (ran : Ran) (looks : Looks) (m : Machine) : Machine × Bool :=
  match ran with
  | .ok => (thawZone looks zone { m with host := m.host.setVolume zone .failed }, true)
  | .wrong => (m, false)
  | .failed done => (if done then { m with host := m.host.setVolume zone .failed } else m, false)

end Kryptik.Kryptikd.Suspend
