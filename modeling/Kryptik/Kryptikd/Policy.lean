import Kryptik.Kryptikd.Seccomp
import Kryptik.Kryptikd.Zone

namespace Kryptik.Kryptikd

open Lib.Text

namespace Caps

def chown : ℕ := 0
def dacReadSearch : ℕ := 2
def fowner : ℕ := 3
def fsetid : ℕ := 4
def kill : ℕ := 5
def setgid : ℕ := 6
def setuid : ℕ := 7
def netBindService : ℕ := 10
def netBroadcast : ℕ := 11
def netAdmin : ℕ := 12
def netRaw : ℕ := 13
def ipcLock : ℕ := 14
def sysChroot : ℕ := 18
def sysNice : ℕ := 23

def keep : ℕ := netBindService

def keepable : List ℕ := [
  netBindService, netAdmin, netRaw, netBroadcast, sysNice, ipcLock, kill, chown, fowner, fsetid,
  dacReadSearch, setuid, setgid, sysChroot]

def privsep : List ℕ := [setuid, setgid, sysChroot]

def nicOnly : List ℕ := [netAdmin, netRaw, setuid, setgid, sysChroot]

def capNames : List (String × ℕ) := [
  ("CAP_CHOWN", 0), ("CAP_DAC_OVERRIDE", 1), ("CAP_DAC_READ_SEARCH", 2), ("CAP_FOWNER", 3),
  ("CAP_FSETID", 4), ("CAP_KILL", 5), ("CAP_SETGID", 6), ("CAP_SETUID", 7), ("CAP_SETPCAP", 8),
  ("CAP_LINUX_IMMUTABLE", 9), ("CAP_NET_BIND_SERVICE", 10), ("CAP_NET_BROADCAST", 11),
  ("CAP_NET_ADMIN", 12), ("CAP_NET_RAW", 13), ("CAP_IPC_LOCK", 14), ("CAP_IPC_OWNER", 15),
  ("CAP_SYS_MODULE", 16), ("CAP_SYS_RAWIO", 17), ("CAP_SYS_CHROOT", 18), ("CAP_SYS_PTRACE", 19),
  ("CAP_SYS_PACCT", 20), ("CAP_SYS_ADMIN", 21), ("CAP_SYS_BOOT", 22), ("CAP_SYS_NICE", 23),
  ("CAP_SYS_RESOURCE", 24), ("CAP_SYS_TIME", 25), ("CAP_SYS_TTY_CONFIG", 26), ("CAP_MKNOD", 27),
  ("CAP_LEASE", 28), ("CAP_AUDIT_WRITE", 29), ("CAP_AUDIT_CONTROL", 30), ("CAP_SETFCAP", 31),
  ("CAP_MAC_OVERRIDE", 32), ("CAP_MAC_ADMIN", 33), ("CAP_SYSLOG", 34), ("CAP_WAKE_ALARM", 35),
  ("CAP_BLOCK_SUSPEND", 36), ("CAP_AUDIT_READ", 37), ("CAP_PERFMON", 38), ("CAP_BPF", 39),
  ("CAP_CHECKPOINT_RESTORE", 40)]

def capByName (name : String) : Option ℕ := (capNames.find? (fun e => e.1 == name)).map Prod.snd

end Caps

inductive Warning
  | allowed (line : ℕ) (arg : String)
  | kept (line : ℕ) (arg : String)

structure Policy where
  source : String
  extraSyscalls : List ℤ := []
  extraSyscallNames : List String := []
  sockets : Seccomp.SocketPolicy := {}
  socketNames : List String := []
  netlinkNames : List String := []
  keepCaps : List ℕ := []
  keepCapNames : List String := []
  warnings : List Warning := []

inductive LineFault
  | argumentCount (directive : String)
  | duplicate (directive arg : String)
  | unknownSyscall (arg : String)
  | deniedSyscall (arg : String)
  | unknownFamily (arg : String)
  | unknownProtocol (arg : String)
  | unknownCapability (arg : String)
  | notKeepable (arg : String)
  | unknownDirective (directive : String)
  | privsepApart
  | nicOnly (cap zone : String) (mode : NetworkMode)
  deriving DecidableEq

structure PolicyError where
  path : String
  line : ℕ
  fault : LineFault
  deriving DecidableEq

namespace Policy

section Directives

variable (p : Policy) (lineno : ℕ) (arg : String)

def allowSyscall : Except LineFault Policy :=
  match Seccomp.syscallByName arg with
  | none => .error (.unknownSyscall arg)
  | some nr =>
    if Seccomp.isDenied nr then .error (.deniedSyscall arg)
    else if nr ∈ Seccomp.baseAllowlist then
      .ok { p with warnings := p.warnings ++ [.allowed lineno arg] }
    else .ok { p with
      extraSyscalls := p.extraSyscalls ++ [nr]
      extraSyscallNames := p.extraSyscallNames ++ [arg] }

def allowSocket : Except LineFault Policy :=
  match Seccomp.socketFamilyByName arg with
  | none => .error (.unknownFamily arg)
  | some fam =>
    if fam = Seccomp.afNetlink then .ok { p with
      sockets := { p.sockets with netlinkAll := true }
      socketNames := p.socketNames ++ [arg] }
    else if fam ∈ Seccomp.baseSocketFamilies then
      .ok { p with warnings := p.warnings ++ [.allowed lineno arg] }
    else .ok { p with
      sockets := { p.sockets with families := p.sockets.families ++ [fam] }
      socketNames := p.socketNames ++ [arg] }

def allowNetlink : Except LineFault Policy :=
  match Seccomp.netlinkProtocolByName arg with
  | none => .error (.unknownProtocol arg)
  | some proto =>
    if proto = Seccomp.netlinkRoute then
      .ok { p with warnings := p.warnings ++ [.allowed lineno arg] }
    else .ok { p with
      sockets := { p.sockets with netlinkProtocols := p.sockets.netlinkProtocols ++ [proto] }
      netlinkNames := p.netlinkNames ++ [arg] }

def keepCapability : Except LineFault Policy :=
  match Caps.capByName arg with
  | none => .error (.unknownCapability arg)
  | some c =>
    if c ∉ Caps.keepable then .error (.notKeepable arg)
    else if c = Caps.keep then .ok { p with warnings := p.warnings ++ [.kept lineno arg] }
    else .ok { p with
      keepCaps := p.keepCaps ++ [c]
      keepCapNames := p.keepCapNames ++ [arg] }

def direct (directive : String) : Except LineFault Policy :=
  if directive = "allow-syscall" then p.allowSyscall lineno arg
  else if directive = "allow-socket" then p.allowSocket lineno arg
  else if directive = "allow-netlink" then p.allowNetlink lineno arg
  else if directive = "keep-capability" then p.keepCapability lineno arg
  else .error (.unknownDirective directive)

end Directives

/-- The directive and the argument of a line, `none` where nothing stands before a `#`. -/
def words (raw : List Char) : Except LineFault (Option (String × String)) :=
  let line := trim (raw.takeWhile (· ≠ '#'))
  if line.isEmpty then .ok none
  else match splitWhitespace line with
    | [directive, arg] => .ok (some (String.ofList directive, String.ofList arg))
    | directive :: _ => .error (.argumentCount (String.ofList directive))
    | [] => .error (.argumentCount "")

structure Parsing where
  p : Policy
  seen : List (String × String)

def parseLine (st : Parsing) (numbered : List Char × ℕ) : Except LineFault Parsing := do
  let found ← words numbered.1
  match found with
  | none => pure st
  | some (directive, arg) =>
    if (directive, arg) ∈ st.seen then .error (.duplicate directive arg)
    else do
      let p ← st.p.direct numbered.2 arg directive
      pure ⟨p, (directive, arg) :: st.seen⟩

def privsepKept (keepCaps : List ℕ) : ℕ := (Caps.privsep.filter (fun c => c ∈ keepCaps)).length

def parse (text source : String) : Except PolicyError Policy := do
  let st ← ((lines text.toList).zipIdx 1).foldlM
    (fun st numbered => (parseLine st numbered).mapError (fun fault => ⟨source, numbered.2, fault⟩))
    ⟨{ source }, []⟩
  if privsepKept st.p.keepCaps ≠ 0 ∧ privsepKept st.p.keepCaps ≠ Caps.privsep.length then
    .error ⟨source, 0, .privsepApart⟩
  else pure st.p

def checkForZone (p : Policy) (zone : Zone) : Except PolicyError Unit :=
  if zone.network = .nic then .ok ()
  else match (p.keepCaps.zip p.keepCapNames).find? (fun e => e.1 ∈ Caps.nicOnly) with
    | some (_, name) => .error ⟨p.source, 0, .nicOnly name zone.name zone.network⟩
    | none => .ok ()

end Policy

end Kryptik.Kryptikd
