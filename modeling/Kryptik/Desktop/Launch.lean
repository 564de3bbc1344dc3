import Kryptik.Lib.Scanf
import Kryptik.Wlproxy.Control

namespace Kryptik.Wlproxy.Control

open Lib Wire

def digits (n : ℕ) : Bytes := (Nat.toDigits 10 n).map (fun c => UInt8.ofNat c.toNat)

/-- What a refusal says; `quoted` is a text as `{:?}` prints it. -/
def Refusal.text (quoted : String → String) : Refusal → Bytes
  | .longLine => utf8 "a request line over 128 bytes"
  | .notUtf8 => utf8 "a request line that is not UTF-8"
  | .notGeneration g => utf8 (quoted g ++ " is not a generation")
  | .notType mime => utf8 (quoted mime ++ " is not a type the gesture carries")
  | .notLength length => utf8 (quoted length ++ " is not a length")
  | .tooLong length => digits length ++ utf8 " bytes, over the 1048576 a move carries"
  | .pastLength => utf8 "bytes past the length given"
  | .unknownRequest => utf8 "the requests are take, clear GENERATION and give TYPE LENGTH"
  | .lateRequest => utf8 "the request did not come in time"
  | .overBound => utf8 "a request over its bound"
  | .overMove => utf8 "the selection is over 1 MiB, so nothing moved"
  | .lateCopy => utf8 "the copying window did not answer within 2 s, so nothing moved"
  | .changed => utf8 "the selection changed while it was read, so nothing moved"
  | .noType => utf8 "the selection offers no type the gesture carries"
  | .noPipe => utf8 "no pipe for the copy"
  | .changedSince => utf8 "the selection changed since it was taken, and was left as it is"

def Reply.bytes (quoted : String → String) : Reply → Bytes
  | .empty => utf8 "empty\n"
  | .done => utf8 "ok\n"
  | .taken g mime data => utf8 "ok " ++ digits g ++ [32] ++ utf8 mime ++ [32] ++ digits data.length ++ [10] ++ data
  | .refused why => utf8 "error: " ++ why.text quoted ++ [10]

end Kryptik.Wlproxy.Control

namespace Kryptik.Desktop

open Lib Lib.Scanf Wlproxy Wlproxy.Wire
open Wlproxy.Control (digits)

def u64 : ℕ := 2 ^ 64

/-- What `clipboard_move` asks the proxies, with what it still needs then. -/
inductive Ask
  | take
  | give (generation : ℕ) (type data : Bytes)
  | clear (generation : ℕ) (type : Bytes) (length : ℕ)
  deriving DecidableEq

def Ask.request : Ask → Bytes
  | .take => utf8 "take\n"
  | .give _ type data => utf8 "give " ++ type ++ [32] ++ digits data.length ++ [10] ++ data
  | .clear generation _ _ => utf8 "clear " ++ digits generation ++ [10]

/-- `sscanf(line, "ok %llu %63s")`, and what it leaves. -/
def scanTaken (line : Bytes) : Option (ℕ × Bytes × Bytes) :=
  match line with
  | 111 :: 107 :: rest => do
    let (generation, rest) ← scanUnsigned u64 rest
    let (type, rest) ← scanWord 63 rest
    return (generation, type, rest)
  | _ => none

/-- `sscanf(line, "ok %llu %63s %zu")`, its length. -/
def scanLength (line : Bytes) : Option ℕ := do
  let (_, _, rest) ← scanTaken line
  let (length, _) ← scanUnsigned u64 rest
  return length

structure Answer where
  line : Bytes
  data : Option Bytes

def lineSize : ℕ := 160

/-- The answer's line a byte at a time, and what follows it. -/
def readLine (received : Bytes) : Bytes × Bytes :=
  let line := (received.takeWhile (· != 10)).take (lineSize - 1)
  (line, received.drop (if line.length + 1 < lineSize then line.length + 1 else line.length))

/-- What `ask_proxy` makes of the bytes that came, once the request was sent or not. -/
def answerOf (sent memory : Bool) (received : Bytes) : Answer :=
  let (line, rest) := readLine received
  let line := line.takeWhile (· != 0)
  if !sent then ⟨utf8 "error: the request could not be sent", none⟩
  else match scanLength line with
    | none => ⟨line, none⟩
    | some length =>
      if 2 ^ 20 < length then ⟨line, none⟩
      else if memory ∧ length ≤ rest.length then ⟨line, some (rest.take length)⟩
      else ⟨utf8 "error: the answer was cut short", none⟩

inductive Outcome
  /-- FROM's broker payload is asked to move instead -/
  | broker
  | nothing (why : Bytes)
  | copied (length : ℕ) (type why : Bytes)
  | moved (length : ℕ) (type : Bytes)
  deriving DecidableEq

inductive Launch
  /-- about to connect -/
  | next (a : Ask)
  /-- connected, with this much of the request still to be sent -/
  | asking (a : Ask) (left : Bytes)
  | ended (outcome : Outcome)
  deriving DecidableEq

/-- `clipboard_move` from one answer to the next question; without an answer the zone has no proxy. -/
def onAnswer (a : Ask) (answer : Option Answer) : Launch :=
  match a, answer with
  | .take, none => .ended .broker
  | .take, some answer =>
    if answer.line = utf8 "empty" then .ended .broker
    else match answer.data, scanTaken answer.line with
      | some data, some (generation, type, _) => .next (.give generation type data)
      | _, _ => .ended (.nothing (if answer.line = [] then utf8 "no answer" else answer.line))
  | .give _ _ _, none => .ended (.nothing (utf8 "the receiving zone has no windows to paste in"))
  | .give generation type data, some answer =>
    if answer.line = utf8 "ok" then .next (.clear generation type data.length)
    else .ended (.nothing answer.line)
  | .clear _ type length, none => .ended (.copied length type (utf8 "its proxy is gone"))
  | .clear _ type length, some answer =>
    if answer.line = utf8 "ok" then .ended (.moved length type)
    else .ended (.copied length type answer.line)

end Kryptik.Desktop
