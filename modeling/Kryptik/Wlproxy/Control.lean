import Kryptik.Lib.Text
import Kryptik.Wlproxy.Clipboard
import Kryptik.Wlproxy.Endpoint

namespace Kryptik.Wlproxy

open Lib Text Wire List

namespace Control

/-- Milliseconds a request may take to arrive, and the copying client to answer a take. -/
def requestDeadline : ℕ := 2000

/-- Milliseconds a paste of the proxy's own selection may take to drain. -/
def writeDeadline : ℕ := 10000

def maxWriters : ℕ := 8

def lineMax : ℕ := 128

def u64Max : ℕ := 2 ^ 64 - 1

inductive Request
  | take
  | clear (generation : ℕ)
  | give (mime : String) (data : Bytes)
  deriving DecidableEq

inductive Refusal
  | longLine
  | notUtf8
  | notGeneration (text : String)
  | notType (mime : String)
  | notLength (text : String)
  | tooLong (length : ℕ)
  | pastLength
  | unknownRequest
  | lateRequest
  | overBound
  | overMove
  | lateCopy
  | changed
  | noType
  | noPipe
  | changedSince
  deriving DecidableEq

def parseGive (mime length : String) (rest : Bytes) : Except Refusal (Option Request) :=
  if mime ∉ Policy.moveTypes then .error (.notType mime)
  else match parseUnsigned u64Max length.toList with
    | none => .error (.notLength length)
    | some n =>
      if Policy.maxMoveBytes < n then .error (.tooLong n)
      else if n < rest.length then .error .pastLength
      else if rest.length < n then .ok none
      else .ok (some (.give mime rest))

def parseLine (line : String) (rest : Bytes) : Except Refusal (Option Request) :=
  match (splitBy (· == ' ') line.toList).map String.ofList with
  | ["take"] => if rest = [] then .ok (some .take) else .error .unknownRequest
  | ["clear", g] =>
    if rest = [] then match parseUnsigned u64Max g.toList with
      | none => .error (.notGeneration g)
      | some n => .ok (some (.clear n))
    else .error .unknownRequest
  | ["give", mime, length] => parseGive mime length rest
  | _ => .error .unknownRequest

/-- One request, once it has all come; `none` while more is to come. -/
def parse (buf : Bytes) : Except Refusal (Option Request) :=
  match buf.idxOf? 10 with
  | none => if lineMax < buf.length then .error .longLine else .ok none
  | some nl => match String.fromUTF8? ⟨(buf.take nl).toArray⟩ with
    | none => .error .notUtf8
    | some line => parseLine line (buf.drop (nl + 1))

inductive Reply
  | empty
  | done
  | taken (generation : ℕ) (mime : String) (data : Bytes)
  | refused (why : Refusal)
  deriving DecidableEq

inductive State
  | request (buf : Bytes)
  | taking (mime : String) (generation : ℕ) (data : Bytes)
  | replying (reply : Reply)

end Control

structure Control where
  deadline : ℕ
  state : Control.State

namespace Control

def new (now : ℕ) : Control := ⟨now + requestDeadline, .request []⟩

def reply (r : Reply) (now : ℕ) : Control := ⟨now + requestDeadline, .replying r⟩

def refuse (why : Refusal) (now : ℕ) : Control := reply (.refused why) now

inductive Read
  | wouldBlock
  | failed
  | eof
  | got (bytes : Bytes)

inductive Write
  | wouldBlock
  | failed
  | wrote (all : Bool)

/-- What the connection and the copy's pipe have to say, in order, and the pipe a take
makes, by its write end. With no further answer each would block. -/
structure Io where
  conn : List Read := []
  pipe : List Read := []
  out : List Write := []
  newPipe : Option Fd := none

def given (mime : String) (data : Bytes) : Selection := ⟨own, 0, [mime], some data, 0⟩

def answerTake (newPipe : Option Fd) (now : ℕ) (clip : Clipboard) : Control × Clipboard :=
  match clip.selection with
  | none => (reply .empty now, clip)
  | some sel => match Policy.moveTypes.find? (· ∈ sel.mimes) with
    | none => (refuse .noType now, clip)
    | some mime => match sel.data with
      | some data => (reply (.taken clip.generation mime data) now, clip)
      | none => match newPipe with
        | none => (refuse .noPipe now, clip)
        | some fd =>
          (⟨now + requestDeadline, .taking mime clip.generation []⟩,
            { clip with actions := clip.actions ++ [.send sel.owner sel.source mime fd none] })

def answer (r : Request) (newPipe : Option Fd) (now : ℕ) (clip : Clipboard) : Control × Clipboard :=
  match r with
  | .take => answerTake newPipe now clip
  | .give mime data => (reply .done now, clip.setSelection (some (given mime data)))
  | .clear g =>
    if g = clip.generation then (reply .done now, clip.setSelection none)
    else (refuse .changedSince now, clip)

/-- How a turn of the loop of `step` ends: the move is over, it waits, or the loop goes on. -/
inductive Went
  | over
  | waits (m : Control)
  | on (m : Control) (clip : Clipboard)

def onRequest (m : Control) (buf : Bytes) (eof : Bool) (newPipe : Option Fd) (now : ℕ) (clip : Clipboard) : Went :=
  match parse buf with
  | .error why => .on (refuse why now) clip
  | .ok (some r) => .on (answer r newPipe now clip).1 (answer r newPipe now clip).2
  | .ok none =>
    if eof then .over
    else if m.deadline ≤ now then .on (refuse .lateRequest now) clip
    else if lineMax + Policy.maxMoveBytes < buf.length then .on (refuse .overBound now) clip
    else .waits { m with state := .request buf }

def onTaking (m : Control) (mime : String) (generation : ℕ) (data : Bytes) (read : Read) (now : ℕ)
    (clip : Clipboard) : Went :=
  match read with
  | .got bytes =>
    if Policy.maxMoveBytes < (data ++ bytes).length then .on (refuse .overMove now) clip
    else .on { m with state := .taking mime generation (data ++ bytes) } clip
  | .wouldBlock => if now < m.deadline then .waits m else .on (refuse .lateCopy now) clip
  | .failed => .on (refuse .changed now) clip
  | .eof =>
    if clip.generation ≠ generation then .on (refuse .changed now) clip
    else .on (reply (.taken generation mime data) now) clip

def onReplying (m : Control) (write : Write) (now : ℕ) (clip : Clipboard) : Went :=
  match write with
  | .wrote all => if all then .over else .on m clip
  | .wouldBlock => if m.deadline ≤ now then .over else .waits m
  | .failed => .over

/-- One turn of the loop of `step`, and the answers left for the next. -/
def stepOnce (io : Io) (now : ℕ) (m : Control) (clip : Clipboard) : Went × Io :=
  match m.state with
  | .request buf =>
    (match io.conn.headD .wouldBlock with
      | .failed => .over
      | .wouldBlock => onRequest m buf false io.newPipe now clip
      | .eof => onRequest m buf true io.newPipe now clip
      | .got bytes => onRequest m (buf ++ bytes) false io.newPipe now clip,
      { io with conn := io.conn.tail })
  | .taking mime generation data =>
    (onTaking m mime generation data (io.pipe.headD .wouldBlock) now clip, { io with pipe := io.pipe.tail })
  | .replying _ => (onReplying m (io.out.headD .wouldBlock) now clip, { io with out := io.out.tail })

/-- The loop of `step`, and the move that goes on, if it does. -/
def stepLoop (now : ℕ) : ℕ → Io → Control → Clipboard → Except Fault (Option Control × Clipboard)
  | 0, _, _, _ => .error .diverged
  | n + 1, io, m, clip =>
    match stepOnce io now m clip with
    | (.over, _) => .ok (none, clip)
    | (.waits m, _) => .ok (some m, clip)
    | (.on m clip, io) => stepLoop now n io m clip

/-- Turns enough for the loop: each takes an answer, or goes from a request to a take, or
from either to its reply. -/
def Io.turns (io : Io) : ℕ := io.conn.length + io.pipe.length + io.out.length + 3

def step (io : Io) (now : ℕ) (m : Control) (clip : Clipboard) : Except Fault (Option Control × Clipboard) :=
  stepLoop now io.turns io m clip

def State.rank : State → ℕ
  | .request _ => 2
  | .taking .. => 1
  | .replying _ => 0

lemma rank_answer (r : Request) (newPipe : Option Fd) (now : ℕ) (clip : Clipboard) :
    (answer r newPipe now clip).1.state.rank ≤ 1 := by
  cases r with
  | take =>
    unfold answer answerTake
    repeat' split
    all_goals simp [reply, refuse, State.rank]
  | give mime data => simp [answer, reply, State.rank]
  | clear g =>
    unfold answer
    dsimp only
    split <;> simp [reply, refuse, State.rank]

section

variable {io io' : Io} {now generation : ℕ} {m m' : Control} {clip clip' : Clipboard} {mime : String}

lemma onRequest_on {buf : Bytes} {eof : Bool} {newPipe : Option Fd}
    (h : onRequest m buf eof newPipe now clip = .on m' clip') :
    m'.state.rank ≤ 1 ∧ (clip' = clip ∨ ∃ r, parse buf = .ok (some r) ∧ clip' = (answer r newPipe now clip).2) := by
  unfold onRequest at h
  split at h
  · cases h
    exact ⟨Nat.zero_le 1, .inl rfl⟩
  · cases h
    exact ⟨rank_answer _ _ _ _, .inr ⟨_, ‹_›, rfl⟩⟩
  · split_ifs at h
    all_goals
      cases h
      exact ⟨Nat.zero_le 1, .inl rfl⟩

lemma onTaking_on {data : Bytes} {read : Read} (h : onTaking m mime generation data read now clip = .on m' clip') :
    clip' = clip ∧ (m'.state.rank = 0 ∨ m'.state.rank = 1 ∧ ∃ bytes, read = .got bytes) := by
  unfold onTaking at h
  cases read with
  | wouldBlock =>
    dsimp only at h
    split_ifs at h
    cases h
    exact ⟨rfl, .inl rfl⟩
  | failed =>
    cases h
    exact ⟨rfl, .inl rfl⟩
  | eof =>
    split_ifs at h
    all_goals
      cases h
      exact ⟨rfl, .inl rfl⟩
  | got bytes =>
    dsimp only at h
    split_ifs at h
    · cases h
      exact ⟨rfl, .inl rfl⟩
    · cases h
      exact ⟨rfl, .inr ⟨rfl, bytes, rfl⟩⟩

lemma onReplying_on {write : Write} (h : onReplying m write now clip = .on m' clip') :
    clip' = clip ∧ m' = m ∧ ∃ all, write = .wrote all := by
  unfold onReplying at h
  cases write with
  | wouldBlock =>
    split_ifs at h
  | failed => cases h
  | wrote all =>
    dsimp only at h
    split_ifs at h
    cases h
    exact ⟨rfl, rfl, all, rfl⟩

def Read.bytes : Read → Bytes
  | .got bytes => bytes
  | _ => []

/-- The request that is whole with what the connection has now. -/
def Asks (m : Control) (io : Io) (r : Request) : Prop :=
  ∃ buf, m.state = .request buf ∧ parse (buf ++ (io.conn.headD .wouldBlock).bytes) = .ok (some r)

def Io.length (io : Io) : ℕ := io.conn.length + io.pipe.length + io.out.length

lemma tail_lt {α : Type} {l : List α} {a d : α} (h : l.headD d = a) (hne : a ≠ d) : l.tail.length < l.length := by
  cases l with
  | nil => exact absurd h.symm hne
  | cons b l => exact Nat.lt_succ_self _

lemma stepOnce_on (h : stepOnce io now m clip = (.on m' clip', io')) :
    io'.newPipe = io.newPipe ∧ io'.length + m'.state.rank < io.length + m.state.rank ∧ m'.state.rank ≤ 1 ∧
      (clip' = clip ∨ ∃ r, m.Asks io r ∧ clip' = (answer r io.newPipe now clip).2) := by
  unfold stepOnce at h
  cases hs : m.state with
  | request buf =>
    simp only [hs] at h
    obtain ⟨hon, rfl⟩ := Prod.mk.inj h
    obtain ⟨eof, hon⟩ : ∃ eof, onRequest m (buf ++ (io.conn.headD .wouldBlock).bytes) eof io.newPipe now clip =
        .on m' clip' := by
      cases hread : io.conn.headD .wouldBlock <;> simp only [hread, Read.bytes, append_nil] at hon ⊢
      · exact ⟨_, hon⟩
      · cases hon
      · exact ⟨_, hon⟩
      · exact ⟨_, hon⟩
    obtain ⟨hrank, hclip⟩ := onRequest_on hon
    refine ⟨rfl, ?_, hrank, hclip.imp_right fun ⟨r, hr, hclip⟩ => ⟨r, ⟨buf, hs, hr⟩, hclip⟩⟩
    have htail : io.conn.tail.length ≤ io.conn.length := by simp
    have htwo : (State.request buf).rank = 2 := rfl
    simp only [Io.length, htwo]
    omega
  | taking mime generation data =>
    simp only [hs] at h
    obtain ⟨hon, rfl⟩ := Prod.mk.inj h
    obtain ⟨rfl, hrank⟩ := onTaking_on hon
    have htail : io.pipe.tail.length ≤ io.pipe.length := by simp
    have hone : (State.taking mime generation data).rank = 1 := rfl
    refine ⟨rfl, ?_, by omega, .inl rfl⟩
    simp only [Io.length, hone]
    obtain hrank | ⟨hrank, bytes, hgot⟩ := hrank
    · omega
    · have hless := tail_lt hgot (by simp)
      omega
  | replying r =>
    simp only [hs] at h
    obtain ⟨hon, rfl⟩ := Prod.mk.inj h
    obtain ⟨rfl, rfl, all, hwrote⟩ := onReplying_on hon
    have hless := tail_lt hwrote (by simp)
    refine ⟨rfl, ?_, by rw [hs]; exact Nat.zero_le 1, .inl rfl⟩
    simp only [Io.length, hs]
    omega

end

variable {io : Io} {m : Control} {clip : Clipboard}

lemma stepLoop_returns (now : ℕ) {n : ℕ}
    (h : io.length + m.state.rank < n) : ∃ r, stepLoop now n io m clip = .ok r := by
  induction n generalizing io m clip with
  | zero => omega
  | succ n ih =>
    unfold stepLoop
    split
    · exact ⟨_, rfl⟩
    · exact ⟨_, rfl⟩
    · rename_i hon
      have hless := (stepOnce_on hon).2.1
      exact ih (by omega)

theorem step_returns (io : Io) (now : ℕ) (m : Control) (clip : Clipboard) : ∃ r, step io now m clip = .ok r := by
  refine stepLoop_returns now ?_
  have hrank : m.state.rank ≤ 2 := by cases m.state <;> simp [State.rank]
  simp only [Io.length, Io.turns]
  omega

lemma stepLoop_clip {now n : ℕ} {m' : Option Control} {clip' : Clipboard}
    (h : stepLoop now n io m clip = .ok (m', clip')) :
    clip' = clip ∨ ∃ r, m.Asks io r ∧ clip' = (answer r io.newPipe now clip).2 := by
  induction n generalizing io m clip with
  | zero => cases h
  | succ n ih =>
    unfold stepLoop at h
    split at h
    · cases h
      exact .inl rfl
    · cases h
      exact .inl rfl
    · rename_i hon
      obtain ⟨-, -, hrank, hclip⟩ := stepOnce_on hon
      obtain rfl | ⟨r, ⟨buf, hbuf, -⟩, -⟩ := ih h
      · exact hclip
      · rw [hbuf] at hrank
        exact absurd hrank (by simp [State.rank])

def lineLength (buf : Bytes) : ℕ := (buf.idxOf? 10).getD buf.length

section

variable {deadline : ℕ}
variable {line : String} {b p l rest rest' : Bytes} {r : Request}

lemma parseLine_ok (h : parseLine line rest = .ok (some r)) : rest.length ≤ Policy.maxMoveBytes ∧
    ∀ q : Bytes, q.length < rest.length → parseLine line q = .ok none := by
  unfold parseLine at h ⊢
  split at h
  · split_ifs at h with hrest
    exact ⟨by simp [hrest], by simp [hrest]⟩
  · split_ifs at h with hrest
    exact ⟨by simp [hrest], by simp [hrest]⟩
  · rename_i mime length _
    unfold parseGive at h ⊢
    split_ifs at h with hmime
    cases hn : parseUnsigned u64Max length.toList with
    | none => simp [hn] at h
    | some n =>
      simp only [hn] at h ⊢
      split_ifs at h with hmax hpast hmore
      · cases h
      refine ⟨by omega, fun q hq => ?_⟩
      rw [if_neg (not_not.mpr hmime), if_neg hmax, if_neg (by omega), if_pos (by omega)]
  · cases h

lemma idxOf?_newline (h : 10 ∉ l) : (l ++ 10 :: rest).idxOf? 10 = some l.length := by
  have hnone : l.findIdx? (· == 10) = none := idxOf?_eq_none_iff.mpr h
  simp [idxOf?, findIdx?_append, findIdx?_cons, hnone]

lemma parse_newline (h : 10 ∉ l) : parse (l ++ 10 :: rest) =
    (String.fromUTF8? ⟨l.toArray⟩).elim (.error .notUtf8) (parseLine · rest) := by
  simp only [parse, idxOf?_newline h, take_left]
  rw [show (l ++ 10 :: rest).drop (l.length + 1) = rest by simp]
  cases String.fromUTF8? ⟨l.toArray⟩ <;> rfl

/-- What is accepted is a line that a newline ends, and what belongs to it. -/
lemma parse_ok (h : parse b = .ok (some r)) : ∃ l line rest, b = l ++ 10 :: rest ∧ 10 ∉ l ∧
    String.fromUTF8? ⟨l.toArray⟩ = some line ∧ parseLine line rest = .ok (some r) ∧ lineLength b = l.length := by
  by_cases hb : 10 ∈ b
  · obtain ⟨l, rest, rfl, hl⟩ := eq_append_cons_of_mem hb
    rw [parse_newline hl] at h
    cases hs : String.fromUTF8? ⟨l.toArray⟩ with
    | none => simp [hs] at h
    | some line =>
      rw [hs] at h
      exact ⟨l, line, rest, rfl, hl, hs, h, by simp [lineLength, idxOf?_newline hl]⟩
  · simp only [parse, idxOf?_eq_none_iff.mpr hb] at h
    split_ifs at h
    cases h

lemma parse_prefix (h : parse b = .ok (some r)) (hl : lineLength b ≤ lineMax) (hp : p <+: b) (hne : p ≠ b) :
    parse p = .ok none := by
  obtain ⟨l, line, rest, rfl, hn, hs, hr, hlen⟩ := parse_ok h
  obtain hp | ⟨q, rfl, hq⟩ := prefix_cons_cases hp
  · have := hp.length_le
    simp only [parse, idxOf?_eq_none_iff.mpr fun hm => hn (hp.subset hm)]
    exact if_neg (by omega)
  · have hlt : q.length < rest.length :=
      Nat.lt_of_le_of_ne hq.length_le fun he => hne (by rw [hq.eq_of_length he])
    rw [parse_newline hn, hs]
    exact (parseLine_ok hr).2 q hlt

lemma length_le_of_parse (h : parse b = .ok (some r)) : b.length ≤ lineLength b + 1 + Policy.maxMoveBytes := by
  obtain ⟨l, line, rest, rfl, -, -, hr, hlen⟩ := parse_ok h
  have := (parseLine_ok hr).1
  simp only [length_append, length_cons]
  omega

/-- A read of some of a request: what else its step meets, when it is and the clipboard then. -/
structure Arrival where
  bytes : Bytes
  io : Io
  now : ℕ
  clip : Clipboard

def Arrival.step (a : Arrival) (m : Control) (bytes : Bytes) : Except Fault (Option Control × Clipboard) :=
  Control.step { a.io with conn := .got bytes :: a.io.conn } a.now m a.clip

def feed (last : Arrival) : Control → List Arrival → Except Fault (Option Control × Clipboard)
  | m, [] => last.step m last.bytes
  | m, a :: rest => match a.step m a.bytes with
    | .ok (some m', _) => feed last m' rest
    | r => r

lemma step_waits {a : Arrival} (hnone : parse (p ++ a.bytes) = .ok none) (hnow : a.now < deadline)
    (hlen : (p ++ a.bytes).length ≤ lineMax + Policy.maxMoveBytes) :
    a.step ⟨deadline, .request p⟩ a.bytes = .ok (some ⟨deadline, .request (p ++ a.bytes)⟩, a.clip) := by
  simp only [Arrival.step, Control.step, Io.turns, stepLoop, stepOnce, headD_cons, onRequest, hnone]
  rw [if_neg (by simp), if_neg (by omega), if_neg (by omega)]

lemma step_answers {a : Arrival} :
    a.step ⟨deadline, .request p⟩ a.bytes = a.step ⟨deadline, .request []⟩ (p ++ a.bytes) := by
  unfold Arrival.step Control.step Io.turns
  rw [stepLoop]
  rfl

lemma feed_from {last : Arrival} {arrivals : List Arrival} (h : parse b = .ok (some r)) (hl : lineLength b ≤ lineMax)
    (harr : ∀ a ∈ arrivals, a.now < deadline) (hlast : last.bytes ≠ [])
    (hb : p ++ ((arrivals.map Arrival.bytes).flatten ++ last.bytes) = b) :
    feed last ⟨deadline, .request p⟩ arrivals = last.step ⟨deadline, .request []⟩ b := by
  induction arrivals generalizing p with
  | nil =>
    obtain rfl : p ++ last.bytes = b := hb
    exact step_answers
  | cons a arrivals ih =>
    have hb' : (p ++ a.bytes) ++ ((arrivals.map Arrival.bytes).flatten ++ last.bytes) = b := by
      rw [← hb]
      simp
    have hlt : (p ++ a.bytes).length < b.length := by
      have := length_pos_iff.mpr hlast
      simp only [← hb', length_append] at this ⊢
      omega
    have hne : p ++ a.bytes ≠ b := fun he => absurd (congrArg List.length he) (Nat.ne_of_lt hlt)
    have hle := length_le_of_parse h
    have hnone := parse_prefix h hl ⟨_, hb'⟩ hne
    rw [feed, step_waits hnone (harr a mem_cons_self) (by omega)]
    exact ih (fun a ha => harr a (mem_cons_of_mem _ ha)) hb'

/-- A request of several reads is answered as one of one read, if its line is within its bound. -/
theorem split_reads_iff_short_line (b : Bytes) (r : Request) (h : parse b = .ok (some r)) :
    ((∀ p, p <+: b → p ≠ b → parse p = .ok none) ∧ ∀ (deadline : ℕ) (arrivals : List Arrival) (last : Arrival),
        (∀ a ∈ arrivals, a.bytes ≠ [] ∧ a.now < deadline) → last.bytes ≠ [] →
        (arrivals.map Arrival.bytes).flatten ++ last.bytes = b →
        feed last ⟨deadline, .request []⟩ arrivals = last.step ⟨deadline, .request []⟩ b) ↔
    lineLength b ≤ lineMax := by
  constructor
  · intro hall
    obtain ⟨l, line, rest, rfl, hn, -, -, hlen⟩ := parse_ok h
    by_contra hlong
    have hp : l <+: l ++ 10 :: rest := ⟨_, rfl⟩
    have hparse := hall.1 l hp (by simp)
    simp only [parse, idxOf?_eq_none_iff.mpr hn] at hparse
    rw [if_pos (by omega)] at hparse
    cases hparse
  · intro hl
    refine ⟨fun p => parse_prefix h hl, fun deadline arrivals last harr hlast hb => ?_⟩
    exact feed_from h hl (fun a ha => (harr a ha).2) hlast hb

theorem split_reads_of_take : parse [116, 97] = .ok none ∧
    feed ⟨[107, 101, 10], {}, 1, {}⟩ ⟨9, .request []⟩ [⟨[116, 97], {}, 0, {}⟩] =
      Arrival.step ⟨[107, 101, 10], {}, 1, {}⟩ ⟨9, .request []⟩ [116, 97, 107, 101, 10] := by
  obtain ⟨hparts, hreads⟩ :=
    (split_reads_iff_short_line [116, 97, 107, 101, 10] .take (by decide +kernel)).mpr (by decide)
  exact ⟨hparts _ ⟨[107, 101, 10], rfl⟩ (by decide), hreads 9 _ _ (by simp) (by simp) rfl⟩

/-- A number may be written with any zeros, so a line past its bound is taken if it comes in one read. -/
theorem long_line_accepted_whole :
    ∃ b p : Bytes, parse b = .ok (some (.clear 5)) ∧ p <+: b ∧ p ≠ b ∧ parse p = .error .longLine := by
  refine ⟨[99, 108, 101, 97, 114, 32] ++ replicate 130 48 ++ [53, 10],
    [99, 108, 101, 97, 114, 32] ++ replicate 130 48, ?_, ⟨_, rfl⟩, by simp, ?_⟩
  · decide +kernel
  · decide +kernel

end

end Control

/-- A paste of the selection the proxy holds. What was asked for, in the last two fields, is
history. -/
structure Writer where
  fd : Fd
  data : Bytes
  pos : ℕ
  deadline : ℕ
  mime : String
  asked : Option ℕ

namespace Writer

def new (fd : Fd) (data : Bytes) (now : ℕ) (mime : String) (asked : Option ℕ) : Writer :=
  ⟨fd, data, 0, now + Control.writeDeadline, mime, asked⟩

/-- As the reader's descriptor drains; true once it is all written, the reader went away, or
the time is up. With no further answer the descriptor would block. -/
def step (now : ℕ) : List SendResult → Writer → Bool × Writer
  | [], w => (w.data.length ≤ w.pos || w.deadline ≤ now, w)
  | r :: results, w =>
    if w.data.length ≤ w.pos then (true, w)
    else match r with
      | .wouldBlock => (w.deadline ≤ now, w)
      | .failed _ => (true, w)
      | .sent n => step now results { w with pos := w.pos + max 1 (min n (w.data.length - w.pos)) }

end Writer

end Kryptik.Wlproxy
