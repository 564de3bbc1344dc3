import Kryptik.Lib.LockFile

namespace Kryptik.Kryptikd.Registry

open Lib.LockFile

/-- Who looks at an entry or reclaims it: a call of its own, or an attempt of a claim. -/
inductive Caller
  | alone
  | claim (attempt : ℕ)
  deriving DecidableEq

inductive Purpose
  | claim (attempt : ℕ)
  | reclaim (caller : Caller)
  deriving DecidableEq

inductive Sweeper
  | drop
  | reclaim (caller : Caller)
  deriving DecidableEq

/-- What comes next in a call, one filesystem step at a time, with the descriptor it has open. -/
inductive Pc
  | idle
  /-- `claim` -/
  | createDir (attempt : ℕ)
  | setMode (attempt : ℕ)
  /-- `state` -/
  | stateExists (caller : Caller)
  | stateFields (caller : Caller)
  | heldOpen (caller : Caller) (launcher : Bool)
  | heldLock (caller : Caller) (launcher : Bool) (fd : ℕ)
  | heldClose (caller : Caller) (launcher : Bool) (fd : ℕ) (held : Bool)
  /-- `reclaim` -/
  | reclaimExists (caller : Caller)
  | reclaimLocked (caller : Caller) (fd : ℕ)
  | reclaimClose (caller : Caller) (fd : ℕ) (ok : Bool)
  /-- `lock_owner` and `try_lock` -/
  | openLock (purpose : Purpose) (tries : ℕ)
  | flock (purpose : Purpose) (tries fd : ℕ)
  | closeBusy (purpose : Purpose) (tries fd : ℕ)
  | sameInode (purpose : Purpose) (fd : ℕ)
  | closeGone (purpose : Purpose) (fd : ℕ)
  /-- A `Handle`, at rest and in its `write`; `first` is the write of `started` in `claim`. -/
  | handle (fd : ℕ)
  | writeOpen (first : Bool) (fd : ℕ) (name : String)
  | writeText (first : Bool) (fd : ℕ) (name : String)
  /-- `sweep` -/
  | umount (sweeper : Sweeper) (fd : ℕ)
  | readDir (sweeper : Sweeper) (fd : ℕ)
  | removeEach (sweeper : Sweeper) (fd : ℕ) (names : List String)
  | removeLock (sweeper : Sweeper) (fd : ℕ)
  | removeDir (sweeper : Sweeper) (fd : ℕ)
  /-- The end of a `Handle`'s drop. -/
  | dropUnlock (fd : ℕ)
  | dropClose (fd : ℕ)
  deriving DecidableEq

/-- What a step meets: whether its call fails for a reason of its own, whether the entry names
a launcher that decodes, what the directory lists, and the text written. -/
structure Answer where
  fails : Bool
  launcher : Bool
  names : List String
  text : String

def nextAttempt (attempt : ℕ) : Pc := if attempt + 1 < 3 then .createDir (attempt + 1) else .idle

def reclaimed : Caller → Pc
  | .alone => .idle
  | .claim attempt => nextAttempt attempt

def notRunning : Caller → Pc
  | .alone => .idle
  | .claim attempt => if attempt = 0 then .reclaimExists (.claim attempt) else .idle

def running (launcher : Bool) : Caller → Pc
  | .alone => .idle
  | .claim attempt => if launcher = false ∧ attempt = 0 then nextAttempt attempt else .idle

def gone : Purpose → Pc
  | .claim attempt => nextAttempt attempt
  | .reclaim caller => reclaimed caller

def busy (purpose : Purpose) : ℕ → Pc
  | 0 => .idle
  | tries + 1 => .openLock purpose tries

def heldBy (fd : ℕ) : Purpose → Pc
  | .claim _ => .writeOpen true fd "started"
  | .reclaim caller => .reclaimLocked caller fd

/-- How a `write` that failed ends: the first one drops the `Handle`. -/
def writeFailed (first : Bool) (fd : ℕ) : Pc := if first then .umount .drop fd else .handle fd

def swept (fd : ℕ) (ok : Bool) : Sweeper → Pc
  | .drop => .dropUnlock fd
  | .reclaim caller => .reclaimClose caller fd ok

variable {P : Type} [DecidableEq P]

def go (p : P) (a : Answer) (d : Disk P) : Pc → Pc × Disk P
  | .idle => (.idle, d)
  | .createDir attempt =>
    if a.fails then (.idle, d)
    else match d.mkdir with
      | some d' => (.setMode attempt, d')
      | none => (.stateExists (.claim attempt), d)
  | .setMode attempt =>
    if a.fails ∨ d.dir = none then (.idle, d) else (.openLock (.claim attempt) 20, d)
  | .stateExists caller =>
    if a.fails ∨ d.dir = none then (notRunning caller, d) else (.stateFields caller, d)
  | .stateFields caller => (.heldOpen caller a.launcher, d)
  | .heldOpen caller launcher =>
    if a.fails then (.idle, d)
    else match d.lock with
      | some fd => (.heldLock caller launcher fd, d)
      | none => (notRunning caller, d)
  | .heldLock caller launcher fd =>
    if a.fails then (.heldClose caller launcher fd true, d)
    else match d.lockShared p fd with
      | some d' => (.heldClose caller launcher fd false, d')
      | none => (.heldClose caller launcher fd true, d)
  | .heldClose caller launcher fd held =>
    (if held then running launcher caller else notRunning caller, d.release p fd)
  | .reclaimExists caller =>
    if a.fails ∨ d.dir = none then (reclaimed caller, d) else (.openLock (.reclaim caller) 20, d)
  | .openLock purpose tries =>
    if a.fails then (.idle, d)
    else match d.create with
      | some (fd, d') => (.flock purpose tries fd, d')
      | none => (gone purpose, d)
  | .flock purpose tries fd =>
    if a.fails then (.closeBusy purpose tries fd, d)
    else match d.lockExclusive p fd with
      | some d' => (.sameInode purpose fd, d')
      | none => (.closeBusy purpose tries fd, d)
  | .closeBusy purpose tries fd => (busy purpose tries, d.release p fd)
  | .sameInode purpose fd =>
    if a.fails = false ∧ d.lock = some fd then (heldBy fd purpose, d) else (.closeGone purpose fd, d)
  | .closeGone purpose fd => (gone purpose, d.release p fd)
  | .reclaimLocked caller fd => (.umount (.reclaim caller) fd, d)
  | .reclaimClose caller fd ok => (if ok then reclaimed caller else .idle, d.release p fd)
  | .handle fd => (.handle fd, d)
  | .writeOpen first fd name =>
    if a.fails then (writeFailed first fd, d) else (.writeText first fd name, d.write name "")
  | .writeText first fd name =>
    (if a.fails then writeFailed first fd else .handle fd, d.write name a.text)
  | .umount sweeper fd => (.readDir sweeper fd, d)
  | .readDir sweeper fd =>
    if d.dir = none then (swept fd true sweeper, d)
    else if a.fails then (swept fd false sweeper, d)
    else (.removeEach sweeper fd (a.names.filter (· ≠ "lock")), d)
  | .removeEach sweeper fd [] => (.removeLock sweeper fd, d)
  | .removeEach sweeper fd (name :: names) =>
    (.removeEach sweeper fd names, if a.fails then d else d.unlink name)
  | .removeLock sweeper fd => (.removeDir sweeper fd, if a.fails then d else d.unlinkLock)
  | .removeDir sweeper fd =>
    if d.dir = none then (swept fd true sweeper, d)
    else if a.fails then (swept fd false sweeper, d)
    else match d.rmdir with
      | some d' => (swept fd true sweeper, d')
      | none => (swept fd false sweeper, d)
  | .dropUnlock fd => (.dropClose fd, d.release p fd)
  | .dropClose fd => (.idle, d.release p fd)

inductive Call
  | claim
  | state
  | reclaim
  deriving DecidableEq

def Call.entry : Call → Pc
  | .claim => .createDir 0
  | .state => .stateExists .alone
  | .reclaim => .reclaimExists .alone

inductive Act
  | call (c : Call)
  | go (a : Answer)
  | write (name : String)
  | drop
  | crash

/-- A thread of a process stands for itself: locks of two descriptors conflict in one process
as in two. -/
structure System (P : Type) where
  disk : Disk P
  pc : P → Pc

def System.put (s : System P) (p : P) (pc : Pc) (d : Disk P) : System P :=
  ⟨d, Function.update s.pc p pc⟩

def System.step (s : System P) (p : P) (act : Act) : System P :=
  match act, s.pc p with
  | .call c, .idle => s.put p c.entry s.disk
  | .go a, pc => s.put p (go p a s.disk pc).1 (go p a s.disk pc).2
  | .write name, .handle fd => s.put p (.writeOpen false fd name) s.disk
  | .drop, .handle fd => s.put p (.umount .drop fd) s.disk
  | .crash, _ => s.put p .idle (s.disk.exit p)
  | _, _ => s

def System.run (s : System P) (acts : List (P × Act)) : System P :=
  acts.foldl (fun s act => s.step act.1 act.2) s

def System.start (left : Option Dir) : System P where
  disk :=
    { dir := left
      next := ((left.bind Dir.lock).map (· + 1)).getD 0
      exclusive := fun _ => none
      shared := fun _ => [] }
  pc := fun _ => .idle

/-- A `Handle`, up to the step of its drop that takes the lock file away. -/
def Pc.live : Pc → Option ℕ
  | .handle fd | .writeOpen _ fd _ | .writeText _ fd _ => some fd
  | .umount .drop fd | .readDir .drop fd | .removeEach .drop fd _ | .removeLock .drop fd => some fd
  | _ => none

end Kryptik.Kryptikd.Registry
