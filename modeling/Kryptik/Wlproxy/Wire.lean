import Kryptik.Lib.Words

namespace Kryptik.Wlproxy.Wire

open Lib List

abbrev Bytes := List UInt8

/-- A descriptor, as a token of its own: its number may be reused, the token is not. -/
abbrev Fd := ℕ

def headerLen : ℕ := 8

def maxMessageLen : ℕ := 4096

def serverIdBase : ℕ := 0xFF000000

inductive WireError
  | truncated
  | badSize (size : ℕ)
  | argOverrun
  | secondNewId
  | unterminatedString
  | nullString
  | notUtf8
  | interiorNul
  deriving DecidableEq

/-- A message header. Its size is checked when it is parsed, so no `Header`
has a bad length. -/
structure Header where
  object : ℕ
  opcode : ℕ
  size : ℕ
  object_lt : object < 2 ^ 32
  opcode_lt : opcode < 2 ^ 16
  size_ge : headerLen ≤ size
  size_le : size ≤ maxMessageLen
  aligned : size % 4 = 0

def Header.parse : Bytes → Except WireError Header
  | b0 :: b1 :: b2 :: b3 :: b4 :: b5 :: b6 :: b7 :: _ =>
    let size := Words.word b4 b5 b6 b7 / 2 ^ 16
    if h : headerLen ≤ size ∧ size % 4 = 0 ∧ size ≤ maxMessageLen then
      .ok {
        object := Words.word b0 b1 b2 b3
        opcode := Words.word b4 b5 b6 b7 % 2 ^ 16
        size := size
        object_lt := Words.word_lt b0 b1 b2 b3
        opcode_lt := Nat.mod_lt _ (by decide)
        size_ge := h.1
        size_le := h.2.2
        aligned := h.2.1 }
    else .error (.badSize size)
  | _ => .error .truncated

lemma Header.parse_append {buf : Bytes} (h : headerLen ≤ buf.length) (more : Bytes) :
    Header.parse (buf ++ more) = Header.parse buf := by
  match buf, h with
  | _ :: _ :: _ :: _ :: _ :: _ :: _ :: _ :: _, _ => rfl

def encodeHeader (object opcode size : ℕ) : Bytes :=
  Words.bytes object ++ Words.bytes (size * 2 ^ 16 + opcode)

def Whole (msg : Bytes) : Prop := ∃ h, Header.parse msg = .ok h ∧ h.size = msg.length

lemma parse_encodeHeader (object : ℕ) {opcode size : ℕ} (ho : opcode < 2 ^ 16)
    (hl : headerLen ≤ size) (hu : size ≤ maxMessageLen) (ha : size % 4 = 0) (body : Bytes) :
    ∃ h, Header.parse (encodeHeader object opcode size ++ body) = .ok h ∧
      h.object = object % 2 ^ 32 ∧ h.opcode = opcode ∧ h.size = size := by
  unfold maxMessageLen at hu
  obtain ⟨n, hn⟩ : ∃ n, n = size * 2 ^ 16 + opcode := ⟨_, rfl⟩
  have hw : n % 2 ^ 32 = n := by omega
  have hs : n / 2 ^ 16 = size := by omega
  have hop : n % 2 ^ 16 = opcode := by omega
  simp only [encodeHeader, ← hn, Words.bytes, cons_append, nil_append, Header.parse, Words.word_bytes, hw]
  simp only [hs, hop]
  rw [dif_pos ⟨hl, ha, hu⟩]
  exact ⟨_, rfl, rfl, rfl, rfl⟩

/-- A sequential reader: the state is the part of a body not read yet. -/
abbrev ArgReader := StateT Bytes (Except WireError)

lemma ArgReader.bind_ok {α β : Type} {x : ArgReader α} {f : α → ArgReader β} {rest left : Bytes}
    {b : β} (h : (x >>= f) rest = .ok (b, left)) :
    ∃ a mid, x rest = .ok (a, mid) ∧ f a mid = .ok (b, left) := by
  simp only [bind, StateT.bind, Except.bind] at h
  split at h
  · cases h
  · exact ⟨_, _, ‹_›, h⟩

def ArgReader.take (n : ℕ) : ArgReader Bytes := fun rest =>
  if rest.length < n then .error .argOverrun else .ok (rest.take n, rest.drop n)

def ArgReader.u32 : ArgReader ℕ
  | a :: b :: c :: d :: rest => .ok (Words.word a b c d, rest)
  | _ => .error .argOverrun

def pad4 (n : ℕ) : ℕ := (n + 3) / 4 * 4

/-- The text between a string's length word and its padding, once its NUL
has been checked. -/
def textOf (body : Bytes) : Except WireError String :=
  if body.getLast? ≠ some 0 then .error .unterminatedString
  else if 0 ∈ body.dropLast then .error .interiorNul
  else match String.fromUTF8? ⟨body.dropLast.toArray⟩ with
    | some s => .ok s
    | none => .error .notUtf8

/-- Read a string; `none` is the protocol's null string. -/
def ArgReader.string : ArgReader (Option String) := do
  let declared ← u32
  if declared = 0 then return none else
    let raw ← take (pad4 declared)
    let s ← textOf (raw.take declared)
    return some s

def ArgReader.array : ArgReader Bytes := do
  let len ← u32
  let raw ← take (pad4 len)
  return raw.take len

def utf8 (s : String) : Bytes := s.toByteArray.data.toList

/-- Builder for the messages the proxy writes itself. Its body stays whole
words: every argument is padded as it is appended. -/
structure MessageWriter where
  object : ℕ
  opcode : ℕ
  body : Bytes
  aligned : body.length % 4 = 0

namespace MessageWriter

def new (object opcode : ℕ) : MessageWriter := ⟨object, opcode, [], rfl⟩

def u32 (w : MessageWriter) (v : ℕ) : MessageWriter where
  object := w.object
  opcode := w.opcode
  body := w.body ++ Words.bytes v
  aligned := by
    have h := w.aligned
    rw [List.length_append, Words.length_bytes]
    omega

def stringBytes (s : String) : Bytes :=
  Words.bytes ((utf8 s).length + 1) ++ utf8 s ++ [0] ++
    List.replicate (pad4 ((utf8 s).length + 1) - ((utf8 s).length + 1)) 0

lemma length_stringBytes (s : String) : (stringBytes s).length = 4 + pad4 ((utf8 s).length + 1) := by
  have hp : (utf8 s).length + 1 ≤ pad4 ((utf8 s).length + 1) := by unfold pad4; omega
  simp only [stringBytes, length_append, Words.length_bytes, length_cons, length_nil, length_replicate]
  omega

def string (w : MessageWriter) (s : String) : MessageWriter where
  object := w.object
  opcode := w.opcode
  body := w.body ++ stringBytes s
  aligned := by
    have h := w.aligned
    rw [List.length_append, length_stringBytes, pad4]
    omega

def finish (w : MessageWriter) : Option Bytes :=
  if maxMessageLen < headerLen + w.body.length then none
  else some (encodeHeader w.object w.opcode (headerLen + w.body.length) ++ w.body)

def bytes (w : MessageWriter) : Bytes := w.finish.getD []

variable {w : MessageWriter} {msg : Bytes}

lemma parse_finish (h : w.finish = some msg) (ho : w.opcode < 2 ^ 16) :
    ∃ hd, Header.parse msg = .ok hd ∧ hd.object = w.object % 2 ^ 32 ∧ hd.opcode = w.opcode ∧
      hd.size = msg.length ∧ msg.drop headerLen = w.body := by
  unfold finish at h
  split at h
  · cases h
  · rename_i hle
    have ha := w.aligned
    cases h
    obtain ⟨hd, hp, hobj, hop, hsize⟩ := parse_encodeHeader w.object ho
      (Nat.le_add_right headerLen w.body.length) (Nat.not_lt.mp hle)
      (by unfold headerLen; omega) w.body
    refine ⟨hd, hp, hobj, hop, ?_, rfl⟩
    rw [hsize, length_append]
    rfl

lemma whole_finish (h : w.finish = some msg) (ho : w.opcode < 2 ^ 16) : Whole msg := by
  obtain ⟨hd, hp, _, _, hs, _⟩ := parse_finish h ho
  exact ⟨hd, hp, hs⟩

end MessageWriter

end Kryptik.Wlproxy.Wire
