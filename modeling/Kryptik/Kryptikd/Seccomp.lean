import Kryptik.Lib.Bpf
import Kryptik.Kryptikd.Syscalls

namespace Kryptik.Kryptikd.Seccomp

open Lib Bpf

def auditArchX8664 : Word := 0xc000003e#32
def x32SyscallBit : Word := 0x40000000#32

def retKillProcess : Word := 0x80000000#32
def retAllow : Word := 0x7fff0000#32
def retErrno : Word := 0x00050000#32
def retUserNotif : Word := 0x7fc00000#32

def offNr : Word := 0#32
def offArch : Word := 4#32

def argLo (i : ℕ) : Word := BitVec.ofNat 32 (16 + 8 * i)

def cloneNsMask : Word := 0x7e020000#32
def tiocsti : Word := 0x5412#32
def tioclinux : Word := 0x541c#32
def siocethtool : Word := 0x8946#32
def siocsmiireg : Word := 0x8949#32
def siocdevprivate : Word := 0x89f0#32

def afUnix : Word := 1#32
def afInet : Word := 2#32
def afInet6 : Word := 10#32
def afNetlink : Word := 16#32
def netlinkRoute : Word := 0#32
def eafnosupport : Word := 97#32
def enosys : Word := 38#32
def eperm : Word := 1#32

def baseSocketFamilies : List Word := [afUnix, afInet, afInet6, afNetlink]

def socketFamilyNames : List (String × Word) := [
  ("AF_UNIX", afUnix), ("AF_INET", afInet), ("AF_INET6", afInet6), ("AF_NETLINK", afNetlink),
  ("AF_PACKET", 17), ("AF_KEY", 15), ("AF_RDS", 21), ("AF_CAN", 29), ("AF_TIPC", 30),
  ("AF_BLUETOOTH", 31), ("AF_ALG", 38), ("AF_VSOCK", 40), ("AF_XDP", 44)]

def netlinkProtocolNames : List (String × Word) := [
  ("NETLINK_ROUTE", netlinkRoute), ("NETLINK_XFRM", 6), ("NETLINK_AUDIT", 9),
  ("NETLINK_NETFILTER", 12), ("NETLINK_KOBJECT_UEVENT", 15), ("NETLINK_GENERIC", 16)]

def socketFamilyByName (name : String) : Option Word :=
  (socketFamilyNames.find? (fun e => e.1 == name)).map Prod.snd

def netlinkProtocolByName (name : String) : Option Word :=
  (netlinkProtocolNames.find? (fun e => e.1 == name)).map Prod.snd

structure SocketPolicy where
  families : List Word := []
  netlinkProtocols : List Word := []
  netlinkAll : Bool := false

inductive SeccompError
  | tooManyRules (n : ℕ)
  | badSyscallNumber (nr : ℤ)
  | denied (nr : ℤ)

/-- Why no program comes out: an error, or a failed assertion. -/
inductive Stop
  | error (e : SeccompError)
  | panicked

inductive ArgRule
  | cloneNoNamespaces
  | clone3Enosys
  | ioctlRefused
  | socketFamilies
  | socketpairUnix
  deriving DecidableEq

def argRules : List ArgRule :=
  [.cloneNoNamespaces, .clone3Enosys, .ioctlRefused, .socketFamilies, .socketpairUnix]

def ArgRule.nr : ArgRule → ℤ
  | .cloneNoNamespaces => sysClone
  | .clone3Enosys => sysClone3
  | .ioctlRefused => sysIoctl
  | .socketFamilies => sysSocket
  | .socketpairUnix => sysSocketpair

def refusedSoftly : List (ℤ × Word) := [
  -- inotify_init, inotify_init1
  (253, enosys), (294, enosys),
  -- setfsuid, setfsgid
  (122, eperm), (123, eperm),
  -- setuid, setgid, setreuid, setregid, setresuid, setresgid, setgroups, capset
  (105, eperm), (106, eperm), (113, eperm), (114, eperm), (117, eperm), (119, eperm), (116, eperm),
  (126, eperm),
  -- unshare
  (272, eperm),
  -- sched_setscheduler, sched_setparam, sched_setattr, ioprio_set, quotactl
  (144, eperm), (142, eperm), (314, eperm), (251, eperm), (179, eperm)]

def errnoAction (e : Word) : Word := retErrno ||| (e &&& 0xffff#32)

def softRefusal (e denyAction : Word) : Word :=
  if denyAction = retUserNotif then denyAction else errnoAction e

instance neZero_six : NeZero 6 := ⟨by decide⟩

/-- `struct seccomp_data`. -/
structure SeccompData where
  nr : Word
  arch : Word
  instructionPointer : BitVec 64
  args : Fin 6 → BitVec 64

/-- A word of it, as the kernel loads one: aligned and within its 64 bytes. -/
def SeccompData.load (call : SeccompData) (k : Word) : Option Word :=
  match k.toNat with
  | 0 => some call.nr
  | 4 => some call.arch
  | 8 => some (call.instructionPointer.truncate 32)
  | 12 => some ((call.instructionPointer >>> 32).truncate 32)
  | n =>
    if h : 16 ≤ n ∧ n < 64 then
      let arg := call.args ⟨(n - 16) / 8, by omega⟩
      if n % 8 = 0 then some (arg.truncate 32)
      else if n % 8 = 4 then some ((arg >>> 32).truncate 32)
      else none
    else none

def SeccompData.arg (call : SeccompData) (i : Fin 6) : Word := (call.args i).truncate 32

/-- The errno a zone gets for a call refused without a kill: what `seccomp-trace`
answers a call it is notified of. -/
def softErrno (call : SeccompData) : Option Word :=
  let nr : ℤ := call.nr.toInt
  if call.arch ≠ auditArchX8664 then none
  else if nr = sysClone ∧ call.arg 0 &&& cloneNsMask ≠ 0 then some eperm
  else (refusedSoftly.find? (fun e => e.1 == nr)).map Prod.snd

def SocketPolicy.fams (sockets : SocketPolicy) : List Word :=
  let fams := sockets.families.foldl
    (fun fams f => if !fams.contains f && f != afNetlink then fams ++ [f] else fams)
    [afUnix, afInet, afInet6]
  if sockets.netlinkAll then fams ++ [afNetlink] else fams

def SocketPolicy.protos (sockets : SocketPolicy) : List Word :=
  sockets.netlinkProtocols.foldl
    (fun protos pr => if !protos.contains pr then protos ++ [pr] else protos) [netlinkRoute]

def off (start target : ℕ) : Except Stop ℕ :=
  let d := target - (start + 1)
  if d ≤ 255 then .ok d else .error .panicked

/-- A comparison with each value in turn, from index `idx` on: a match goes to the
instruction at `allowIdx`, and a miss on the last one before it to `denyIdx`. -/
def comparisons (allowIdx denyIdx : ℕ) : ℕ → List Word → Except Stop (List SockFilter)
  | _, [] => .ok []
  | idx, f :: fs => do
    let jf ← (if idx + 1 = allowIdx then off idx denyIdx else pure 0 : Except Stop ℕ)
    let jt ← off idx allowIdx
    let rest ← comparisons allowIdx denyIdx (idx + 1) fs
    return jump jmpJeqK f jt jf :: rest

/-- The part of the socket rule that looks at a netlink socket's protocol. -/
def netlinkBlock (allowIdx denyIdx idx : ℕ) (protos : List Word) : Except Stop (List SockFilter) := do
  let jf ← off idx denyIdx
  let rest ← comparisons allowIdx denyIdx (idx + 2) protos
  return jump jmpJeqK afNetlink 0 jf :: stmt ldWAbs (argLo 2) :: rest

def socketBody (sockets : SocketPolicy) : Except Stop (List SockFilter) := do
  let fams := sockets.fams
  let protos := sockets.protos
  let n := fams.length
  let nlLen := if sockets.netlinkAll then 0 else 2 + protos.length
  let allowIdx := 1 + n + nlLen
  let denyIdx := allowIdx + 1
  let families ← comparisons allowIdx denyIdx 1 fams
  let netlink ← (if sockets.netlinkAll then pure []
    else netlinkBlock allowIdx denyIdx (1 + n) protos : Except Stop (List SockFilter))
  return stmt ldWAbs (argLo 0) :: (families ++ (netlink ++ [stmt retK retAllow, stmt retK (errnoAction eafnosupport)]))

def ArgRule.body (denyAction : Word) (sockets : SocketPolicy) : ArgRule → Except Stop (List SockFilter)
  | .cloneNoNamespaces => .ok [
      stmt ldWAbs (argLo 0),
      jump jmpJsetK cloneNsMask 0 1,
      stmt retK (softRefusal eperm denyAction),
      stmt retK retAllow]
  | .clone3Enosys => .ok [stmt retK (errnoAction enosys)]
  | .ioctlRefused => .ok [
      stmt ldWAbs (argLo 1),
      jump jmpJeqK tiocsti 7 0,
      jump jmpJeqK tioclinux 6 0,
      jump jmpJeqK siocethtool 4 0,
      jump jmpJeqK siocsmiireg 3 0,
      jump jmpJgeK siocdevprivate 0 1,
      jump jmpJgtK (siocdevprivate + 15) 0 1,
      stmt retK retAllow,
      stmt retK (softRefusal eperm denyAction),
      stmt retK denyAction]
  | .socketFamilies => socketBody sockets
  | .socketpairUnix => .ok [
      stmt ldWAbs (argLo 0),
      jump jmpJeqK afUnix 0 1,
      stmt retK retAllow,
      stmt retK (errnoAction eafnosupport)]

/-- One rule's block, with the jump of one byte past it for every other call. -/
def emitArgRule (rule : ArgRule) (denyAction : Word) (sockets : SocketPolicy) : Except Stop (List SockFilter) := do
  let body ← rule.body denyAction sockets
  return jump jmpJeqK (BitVec.ofInt 32 rule.nr) 0 (body.length % 256) :: body

def emitArgRules (allow : List ℤ) (denyAction : Word) (sockets : SocketPolicy) :
    List ArgRule → Except Stop (List SockFilter)
  | [] => .ok []
  | rule :: rules => do
    let block ← (if allow.contains rule.nr then emitArgRule rule denyAction sockets
      else pure [] : Except Stop (List SockFilter))
    return block ++ (← emitArgRules allow denyAction sockets rules)

def softPairs (allow : List ℤ) (denyAction : Word) : List (ℤ × Word) → List SockFilter
  | [] => []
  | (nr, e) :: rest =>
    if allow.contains nr then softPairs allow denyAction rest
    else jump jmpJeqK (BitVec.ofInt 32 nr) 0 1 :: stmt retK (softRefusal e denyAction) ::
      softPairs allow denyAction rest

def plainPairs : List ℤ → Except Stop (List SockFilter)
  | [] => .ok []
  | nr :: rest => do
    if nr < 0 ∨ 2 ^ 32 - 1 < nr then throw (.error (.badSyscallNumber nr))
    else if argRules.any (fun r => r.nr == nr) then plainPairs rest
    else return jump jmpJeqK (BitVec.ofInt 32 nr) 0 1 :: stmt retK retAllow :: (← plainPairs rest)

def prologue (denyAction : Word) : List SockFilter := [
  stmt ldWAbs offArch,
  jump jmpJeqK auditArchX8664 1 0,
  stmt retK denyAction,
  stmt ldWAbs offNr,
  jump jmpJgeK x32SyscallBit 0 1,
  stmt retK denyAction]

def buildProgramFull (allow : List ℤ) (denyAction : Word) (sockets : SocketPolicy) : Except Stop (List SockFilter) := do
  let rules ← emitArgRules allow denyAction sockets argRules
  let plain ← plainPairs allow
  let p := prologue denyAction ++ (rules ++ (softPairs allow denyAction refusedSoftly ++
    (plain ++ [stmt retK denyAction])))
  if 4096 < p.length then throw (.error (.tooManyRules p.length)) else return p

def evaluate (p : List SockFilter) (call : SeccompData) : Option Word := exec call.load p 0 0

/-- The calls a kept capability opens again: setuid and capset for SETUID, setgid
and setgroups for SETGID, chroot for SYS_CHROOT. -/
def capCalls : List (ℕ × List ℤ) := [(7, [105, 126]), (6, [106, 116]), (18, [161])]

def widened (extra : List ℤ) : Except SeccompError (List ℤ) :=
  extra.foldlM (fun allow nr =>
    if isDenied nr then .error (.denied nr)
    else .ok (if allow.contains nr then allow else allow ++ [nr])) baseAllowlist

def widenedFor (extra : List ℤ) (keptCaps : List ℕ) : Except SeccompError (List ℤ) := do
  let allow ← widened extra
  return capCalls.foldl (fun allow e =>
    if keptCaps.contains e.1 then
      e.2.foldl (fun allow nr => if allow.contains nr then allow else allow ++ [nr]) allow
    else allow) allow

end Kryptik.Kryptikd.Seccomp
