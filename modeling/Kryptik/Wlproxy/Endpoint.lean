import Kryptik.Lib.Batches
import Kryptik.Lib.Prog
import Kryptik.Wlproxy.Policy

namespace Kryptik.Wlproxy

open Lib Wire Protocol

inductive Dir
  | clientToServer
  | serverToClient
  deriving DecidableEq

inductive SessionError
  | wire (e : WireError)
  | unknownObject (id : ℕ)
  | duplicateObject (id : ℕ)
  | unknownOpcode (interface : Interface) (opcode : ℕ)
  | hiddenInterface (text : String)
  | versionTooHigh (interface : String) (asked max : ℕ)
  | idOutOfRange (id : ℕ) (dir : Dir)
  | sparseId (id : ℕ)
  | tooManyObjects
  | tooMuchPending (dir : Dir)
  | tooManyFds
  | forbidden (why : String)
  | resourceLimit (why : String)
  | io (code : ℕ)
  deriving DecidableEq

/-- How a computation stops early: with an error the session ends on, with a
panic (an unwrap of nothing, an arithmetic underflow, a failed assertion), or
by running out of the fuel its loop was given. -/
inductive Fault
  | refused (e : SessionError)
  | panic
  | diverged

variable {σ α : Type}

def checkedSub (a b : ℕ) : EStateM Fault σ ℕ := if b ≤ a then pure (a - b) else throw .panic

/-- `Option::unwrap`. -/
def unwrap : Option α → EStateM Fault σ α
  | some a => pure a
  | none => throw .panic

def fail (e : SessionError) : EStateM Fault σ α := throw (.refused e)

def orRefuse (e : SessionError) : Option α → EStateM Fault σ α
  | some a => pure a
  | none => fail e

def liftWire : Except WireError α → EStateM Fault σ α
  | .ok a => pure a
  | .error e => fail (.wire e)

def liftSession : Except SessionError α → EStateM Fault σ α
  | .ok a => pure a
  | .error e => fail e

section

open Prog

variable {Q : α → σ → Prop} {E : Fault → σ → Prop} {s : σ}

@[simp] lemma wp_fail (e : SessionError) : wp (fail e : EStateM Fault σ α) Q E s ↔ E (.refused e) s := Iff.rfl

lemma wp_checkedSub {Q : ℕ → σ → Prop} {a b : ℕ} (h : b ≤ a) : wp (checkedSub a b) Q E s ↔ Q (a - b) s := by
  rw [checkedSub, if_pos h, wp_pure]

lemma wp_checkedSub_same (a b : ℕ) (s : σ) :
    wp (checkedSub a b : EStateM Fault σ ℕ) (fun _ s' => s' = s) (fun _ s' => s' = s) s :=
  wp_ite (fun _ => rfl) fun _ => rfl

lemma wp_unwrap {x : Option α} {a : α} (h : x = some a) : wp (unwrap x) Q E s ↔ Q a s := by
  subst h
  exact Iff.rfl

@[simp] lemma wp_orRefuse (e : SessionError) (x : Option α) :
    wp (orRefuse e x) Q E s ↔ (∀ a, x = some a → Q a s) ∧ (x = none → E (.refused e) s) := by
  cases x <;> simp [orRefuse]

@[simp] lemma wp_liftWire (x : Except WireError α) : wp (liftWire x) Q E s ↔
    (∀ a, x = .ok a → Q a s) ∧ (∀ e, x = .error e → E (.refused (.wire e)) s) := by
  cases x <;> simp [liftWire]

@[simp] lemma wp_liftSession (x : Except SessionError α) : wp (liftSession x) Q E s ↔
    (∀ a, x = .ok a → Q a s) ∧ (∀ e, x = .error e → E (.refused e) s) := by
  cases x <;> simp [liftSession]

end

/-- The inbound half of an endpoint; the bytes before `inPos` are consumed. -/
structure Inbound where
  inbuf : Bytes := []
  inPos : ℕ := 0
  inFds : List Fd := []

namespace Inbound

def pendingIn (i : Inbound) : Bytes := i.inbuf.drop i.inPos

def take (i : Inbound) (n : ℕ) : Bytes × Inbound :=
  (i.pendingIn.take n,
    if i.inPos + n = i.inbuf.length then { i with inbuf := [], inPos := 0 }
    else { i with inPos := i.inPos + n })

@[simp] lemma inFds_take (i : Inbound) (n : ℕ) : (i.take n).2.inFds = i.inFds := by
  simp only [take]
  split <;> rfl

def takeFds (i : Inbound) (n : ℕ) : List Fd × Inbound :=
  (i.inFds.take n, { i with inFds := i.inFds.drop n })

/-- What arrives with one recvmsg, the consumed bytes dropped first. -/
def append (i : Inbound) (bytes : Bytes) (fds : List Fd) : Inbound :=
  { inbuf := i.pendingIn ++ bytes, inPos := 0, inFds := i.inFds ++ fds }

end Inbound

inductive Recv
  | wouldBlock
  | failed (code : ℕ)
  | got (bytes : Bytes) (fds : List Fd) (truncated : Bool)

inductive ReadResult
  | eof
  | wouldBlock
  | got (n : ℕ)
  | failed

def Inbound.read (i : Inbound) : Recv → ReadResult × Inbound
  | .wouldBlock => (.wouldBlock, i)
  | .failed _ => (.failed, i)
  | .got bytes fds truncated =>
    let queued := { i with inFds := i.inFds ++ fds }
    if truncated ∨ Policy.maxPendingFds < queued.inFds.length ∨
        Policy.maxPendingBytes < i.pendingIn.length + bytes.length then (.failed, queued)
    else if bytes.length = 0 then (.eof, queued)
    else (.got bytes.length, i.append bytes fds)

def batchFds : ℕ := 28

/-- The outbound half of an endpoint. The last four fields are its history,
which nothing reads: the messages queued, what the kernel took of them, and
the bytes and descriptors each sendmsg offered. -/
structure Outbound where
  outq : Batches.Queue UInt8 Fd := []
  pendingOut : ℕ := 0
  pendingFds : ℕ := 0
  closed : Bool := false
  queued : Batches.Queue UInt8 Fd := []
  sentBytes : Bytes := []
  sentFds : List Fd := []
  calls : List (ℕ × ℕ) := []

def Outbound.queue (o : Outbound) (bytes : Bytes) (fds : List Fd) : Outbound :=
  { o with
    outq := Batches.push maxMessageLen batchFds o.outq bytes fds
    pendingOut := o.pendingOut + bytes.length
    pendingFds := o.pendingFds + fds.length
    queued := o.queued ++ [(bytes, fds)] }

/-- The kernel's answers to one sendmsg. A count stands for itself brought
between one and the bytes offered, so each is one the kernel may give. -/
inductive SendResult
  | wouldBlock
  | failed (code : ℕ)
  | sent (n : ℕ)

/-- `CMSG_SPACE` of `n` descriptors, and the room there is for control data. -/
def cmsgSpace (n : ℕ) : ℕ := 16 + (4 * n + 7) / 8 * 8

def cmsgRoom : ℕ := 256

/-- How a turn of the loop of `flush` leaves the queue. -/
inductive Turn
  | empty
  | blocked
  | again
  deriving DecidableEq

/-- One sendmsg of the front batch, its descriptors with it. -/
def Outbound.sendFront (r : SendResult) : EStateM Fault Outbound Turn := do
  let o ← get
  match o.outq with
  | [] => return .empty
  | (bytes, fds) :: _ =>
    if cmsgRoom < cmsgSpace fds.length then throw .panic else
      let o := { o with calls := o.calls ++ [(bytes.length, fds.length)] }
      set o
      match r with
      | .wouldBlock => return .blocked
      | .failed code => fail (.io code)
      | .sent n =>
        let n := max 1 (min n bytes.length)
        let pendingFds ← checkedSub o.pendingFds fds.length
        let pendingOut ← checkedSub o.pendingOut n
        set { o with
          outq := Batches.sent n o.outq
          pendingOut := pendingOut
          pendingFds := pendingFds
          sentBytes := o.sentBytes ++ bytes.take n
          sentFds := o.sentFds ++ fds }
        return .again

/-- Send what the socket takes; the result says whether anything remains. A
socket with no further answer would block. -/
def Outbound.flush : List SendResult → EStateM Fault Outbound Bool
  | [] => do return (← sendFront .wouldBlock) != .empty
  | r :: results => do
    match ← sendFront r with
    | .empty => return false
    | .blocked => return true
    | .again => flush results

def Outbound.closeAll (o : Outbound) : Outbound :=
  { o with outq := [], pendingOut := 0, pendingFds := 0, closed := true }

end Kryptik.Wlproxy
