import Kryptik.Lib.Prog
import Kryptik.Lib.Scanf
import Kryptik.Wlproxy.Wire

namespace Kryptik.Desktop.ScreenLock

open Lib.Prog Lib.Scanf Wlproxy.Wire List

inductive Kind
  | login
  | state
  deriving DecidableEq

structure Timespec where
  sec : ℤ
  nsec : ℤ

/-- A byte of the entry. Its number among all that were typed and the label it was typed under are
history, which no code reads. -/
structure Typed where
  byte : UInt8
  number : ℕ
  under : Kind

inductive Octet
  | text (b : UInt8)
  | typed (t : Typed)

inductive Purpose
  | unlockKind
  | suspend
  | cameraRevoke
  | checkPassword
  | resumeState

/-- What was sent, what was written to the pipe beside it, and what the daemon says to it. -/
structure Request where
  purpose : Purpose
  text : List Octet
  pipe : List Typed
  said : Option Bytes

inductive Reach
  | unreached
  /-- `sendmsg` took no more than this -/
  | cut (k : ℕ)
  /-- and what comes back, nothing when it is given up on -/
  | reached (said : Bytes)

inductive Pipe
  | failed (errno : Bytes)
  | wrote (n : ℕ)

/-- The lock's variables, then what its surroundings will do, then all that it sent and how much was
typed. -/
structure Lock where
  locked : Bool := false
  done : Bool := false
  unlocked : Bool := false
  typed : List Typed := []
  status : String := "LOCKED"
  refused : Bool := false
  kind : Kind := .login
  suspendWanted : Bool := false
  asleep : Option Bytes := none
  asked : Timespec := ⟨0, 0⟩
  wokeAt : Timespec := ⟨0, 0⟩
  relabeled : Timespec := ⟨0, 0⟩
  xstate : Bool := false
  reaches : List Reach
  pipes : List Pipe
  clock : List Timespec
  sent : List Request := []
  strokes : ℕ := 0

abbrev LockM := EStateM Empty Lock

def text (s : String) : List Octet := (utf8 s).map .text

def clockGettime : LockM Timespec :=
  modifyGet (fun l => (l.clock.headD ⟨0, 0⟩, { l with clock := l.clock.tail }))

def pipe2 : LockM Pipe :=
  modifyGet (fun l => (l.pipes.headD (.failed []), { l with pipes := l.pipes.tail }))

def showKind : LockM Unit :=
  modify (fun l =>
    { l with status := if l.kind = .state then "STATE PASSPHRASE" else "LOCKED", refused := false })

def request (purpose : Purpose) (text : List Octet) (pipe : List Typed) : LockM (Option Bytes) :=
  modifyGet (fun l =>
    let left := { l with reaches := l.reaches.tail }
    match l.reaches.headD .unreached with
    | .unreached => (none, { left with sent := l.sent ++ [⟨purpose, [], pipe, none⟩] })
    | .cut k => (none, { left with sent := l.sent ++ [⟨purpose, text.take k, pipe, none⟩] })
    | .reached said => (some said, { left with sent := l.sent ++ [⟨purpose, text, pipe, some said⟩] }))

def answer (said : Bytes) (n : ℕ) : Bool × Bytes :=
  let got := said.take (n - 1)
  let why := if got = [] then (utf8 "no answer from the launch daemon").take (n - 1)
    else got.takeWhile (fun c => c ≠ 10 ∧ c ≠ 0)
  (why.take 2 = utf8 "ok" ∧ (why[2]? = none ∨ why[2]? = some 32), why)

def kindNow : LockM (Option Kind) := do
  match ← request .unlockKind (text "unlock-kind\n") [] with
  | none => return none
  | some said =>
    let (ok, why) := answer said 64
    if !ok then return none
    if why = utf8 "ok state" then return some .state
    if why = utf8 "ok login" then return some .login
    return none

def suspendNow : LockM Unit := do
  let now ← clockGettime
  let l ← get
  if l.wokeAt.sec ≠ 0 ∧ now.sec - l.wokeAt.sec < 10 then return
  if !l.locked then
    modify (fun l => { l with suspendWanted := true })
    return
  if l.asleep.isSome then return
  let asked ← clockGettime
  modify (fun l => { l with asked := asked })
  let asleep ← request .suspend (text "suspend\n") []
  modify (fun l => { l with asleep := asleep })

/-- The camera goes back as the screen locks; the answer is only told. -/
def cameraBack : LockM Unit := do
  let _ ← request .cameraRevoke (text "camera-revoke\n") []

def lockLocked : LockM Unit := do
  modify (fun l => { l with locked := true })
  cameraBack
  if (← get).suspendWanted then suspendNow

def lockFinished : LockM Unit := modify (fun l => { l with done := true })

/-- What was typed under a label that no longer holds is dropped. True if the label changed. -/
def relabel (now : Option Kind) : LockM Bool := do
  match now with
  | none => return false
  | some now =>
    if now = (← get).kind then return false
    modify (fun l => { l with typed := [], kind := now })
    showKind
    let t ← clockGettime
    modify (fun l => { l with relabeled := t })
    return true

def justRelabeled : LockM Bool := do
  let now ← clockGettime
  let l ← get
  return l.relabeled.sec ≠ 0 ∧ (now.sec - l.relabeled.sec) * 1000 + (now.nsec - l.relabeled.nsec).tdiv 1000000 < 1000

def give : LockM (Bool × Bytes) := do
  let l ← get
  let s ← match l.kind with
    | .state => do
      match ← pipe2 with
      | .failed errno => return (false, utf8 "pipe: " ++ errno)
      | .wrote n =>
        if l.typed.length ≤ n then request .resumeState (text "resume-state\n") l.typed
        else
          -- the pipe is closed with what it holds, and nobody is asked
          modify (fun l => { l with sent := l.sent ++ [⟨.resumeState, [], l.typed.take n, none⟩] })
          pure none
    | .login =>
      let typed := l.typed.takeWhile (·.byte ≠ 0)
      request .checkPassword ((text "check-password\npassword " ++ typed.map Octet.typed ++ text "\nend\n").take 287) []
  match s with
  | none => return (false, utf8 "the launch daemon cannot be reached")
  | some said => return answer said 256

def strstr (s word : Bytes) : Option Bytes := s.tails.find? (word.isPrefixOf ·)

def atoi (s : Bytes) : ℤ :=
  let s := s.dropWhile isSpace
  match s with
  | 45 :: s => -(decimal (s.takeWhile isDigit) : ℤ)
  | 43 :: s => decimal (s.takeWhile isDigit)
  | s => decimal (s.takeWhile isDigit)

def submit : LockM Unit := do
  if ← relabel (← kindNow) then return
  let (ok, why) ← give
  modify (fun l => { l with typed := [] })
  if ok then
    modify (fun l => { l with unlocked := true })
    return
  if (utf8 "error: suspended:").isPrefixOf why ∨ (utf8 "error: not suspended:").isPrefixOf why then
    let _ ← relabel (← kindNow)
    return
  modify (fun l =>
    { l with
      status := match strstr why (utf8 "wait ") with
        | some w => "WAIT " ++ toString (atoi (w.drop 5))
        | none => "WRONG"
      refused := true })

def woke (answered : Bool) : LockM Unit := do
  let l ← get
  let why := if answered then (answer (l.asleep.getD []) 256).2 else utf8 "no answer from the launch daemon"
  modify (fun l => { l with asleep := none })
  if why = utf8 "ok woke" then
    let t ← clockGettime
    modify (fun l => { l with wokeAt := t })
  let _ ← relabel (← kindNow)

inductive Sym
  | powerOff
  | enter
  | backSpace
  | escape
  | other

def chop (typed : List Typed) : List Typed :=
  ((typed.reverse.dropWhile (fun t => t.byte &&& 0xc0 = 0x80)).drop 1).reverse

def Lock.put (l : Lock) (buf : Bytes) : Lock :=
  { l with
    typed := l.typed ++ buf.mapIdx (fun i b => ⟨b, l.strokes + i, l.kind⟩)
    strokes := l.strokes + buf.length }

def enterText (n : ℕ) (buf : Bytes) : LockM Unit := do
  let l ← get
  if 0 < n ∧ n < 8 ∧ (∀ b ∈ buf.head?, 0x20 ≤ b ∧ b ≠ 0x7f) ∧ l.typed.length + n < 256 then
    modify (·.put buf)
  let l ← get
  if l.refused ∧ l.status = "WRONG" then showKind

def keyboardKey (pressed : Bool) (sym : Sym) (buf : Bytes) : LockM Unit := do
  let l ← get
  if !pressed || !l.xstate || l.unlocked then return
  if ← justRelabeled then return
  match sym with
  | .powerOff => suspendNow
  | .enter => do
    let l ← get
    -- nothing is checked while the suspend asked for is under way
    if l.typed ≠ [] ∧ l.asleep = none then submit
  | .backSpace => modify (fun l => { l with typed := chop l.typed })
  | .escape => modify (fun l => { l with typed := [] })
  | .other => do
    -- the first character of an entry asks what unlocks, and one that finds it changed is dropped
    if 0 < buf.length ∧ (← get).typed = [] then
      let changed ← relabel (← kindNow)
      enterText (if changed then 0 else buf.length) buf
    else enterText buf.length buf

inductive Display
  | keymap
  | key (pressed : Bool) (sym : Sym) (buf : Bytes)
  | locked
  | finished

def dispatch : Display → LockM Unit
  | .keymap => modify (fun l => { l with xstate := true })
  | .key pressed sym buf => keyboardKey pressed sym buf
  | .locked => lockLocked
  | .finished => lockFinished

/-- What `lock_session` waits for: the display's events, a "suspend now", and the suspend's end. -/
inductive Event
  | display (d : Display)
  | suspend
  | slept (answered : Bool)

def handle : Event → LockM Unit
  | .display d => dispatch d
  | .suspend => suspendNow
  | .slept answered => do
    if (← get).asleep.isSome then woke answered

def run (events : List Event) : LockM Unit := do
  let _ ← relabel (← kindNow)
  events.forM handle

/-- A turn of the loop: what was read of the display, whether it went away, whether a "suspend now"
came, and whether the suspend's end was heard or is given up on. -/
structure Turn where
  display : List Display := []
  gone : Bool := false
  signalled : Bool := false
  slept : Option Bool := none

def Turn.events (t : Turn) : List Event :=
  t.display.map .display ++ (if t.signalled then [.suspend] else []) ++ t.slept.toList.map .slept

def loop : List Turn → LockM Unit
  | [] => return
  | t :: turns => do
    let l ← get
    if l.done || l.unlocked then return
    t.events.forM handle
    if !t.gone then loop turns

def lockSession (turns : List Turn) : LockM Unit := do
  let _ ← relabel (← kindNow)
  loop turns

lemma loop_forM (turns : List Turn) (l : Lock) : ∃ events : List Event, loop turns l = events.forM handle l := by
  induction turns generalizing l with
  | nil => exact ⟨[], rfl⟩
  | cons t turns ih =>
    by_cases hstop : (l.done || l.unlocked) = true
    · refine ⟨[], ?_⟩
      change (if (l.done || l.unlocked) = true then pure () else _ : LockM Unit) l = _
      rw [if_pos hstop]
      rfl
    · have hgo : loop (t :: turns) l = (t.events.forM handle >>= fun _ => if !t.gone then loop turns else pure ()) l := by
        change (if (l.done || l.unlocked) = true then pure () else _ : LockM Unit) l = _
        rw [if_neg hstop]
      by_cases hgone : t.gone = true
      · refine ⟨t.events, ?_⟩
        rw [hgo]
        simp [hgone]
      · cases hrun : t.events.forM handle l with
        | error e => exact e.elim
        | ok u l' =>
          obtain ⟨events, hevents⟩ := ih l'
          refine ⟨t.events ++ events, ?_⟩
          have happend : (t.events ++ events).forM handle = (t.events.forM handle >>= fun _ => events.forM handle) :=
            forM_append
          rw [hgo, happend]
          simp [bind, EStateM.bind, hrun, hgone, hevents]

def Octet.secret : Octet → List Typed
  | .text _ => []
  | .typed t => [t]

def Request.secret (r : Request) : List Typed := r.text.flatMap Octet.secret ++ r.pipe

def Purpose.takes : Purpose → Option Kind
  | .checkPassword => some .login
  | .resumeState => some .state
  | _ => none

def Request.Proper (r : Request) : Prop := ∀ t ∈ r.secret, r.purpose.takes = some t.under

def Lock.spent (l : Lock) : List Typed := l.sent.flatMap Request.secret

/-- What is held was typed under the label shown, what went out went where it belongs, and nothing
is there twice. -/
structure Apart (l : Lock) : Prop where
  shown : ∀ t ∈ l.typed, t.under = l.kind
  proper : ∀ r ∈ l.sent, r.Proper
  below : ∀ t ∈ l.spent ++ l.typed, t.number < l.strokes
  once : ((l.spent ++ l.typed).map Typed.number).Nodup

lemma lockSession_run (turns : List Turn) (l : Lock) : ∃ events : List Event, lockSession turns l = run events l := by
  cases hnow : (kindNow >>= relabel) l with
  | error e => exact e.elim
  | ok c l' =>
    obtain ⟨events, hevents⟩ := loop_forM turns l'
    refine ⟨events, ?_⟩
    have hboth (x : LockM Unit) : (do let _ ← relabel (← kindNow); x) l = ((kindNow >>= relabel) >>= fun _ => x) l := by
      rw [bind_assoc]
    rw [lockSession, run, hboth, hboth]
    simp only [bind, EStateM.bind] at hnow ⊢
    rw [hnow]
    exact hevents

section Kept

variable {purpose : Purpose}
variable {l : Lock} {α : Type} {E : Empty → Lock → Prop}

lemma secret_take_text (s : String) (k : ℕ) : ((text s).take k).flatMap Octet.secret = [] := by
  rw [text, ← map_take, flatMap_map]
  simp [Octet.secret]

lemma Apart.drop (h : Apart l) {held : List Typed} (hheld : held.Sublist l.typed) :
    Apart { l with typed := held } where
  shown t ht := h.shown t (hheld.subset ht)
  proper := h.proper
  below t ht := h.below t (((List.Sublist.refl l.spent).append hheld).subset ht)
  once := h.once.sublist (((List.Sublist.refl l.spent).append hheld).map _)

lemma Apart.relabel (h : Apart l) (kind : Kind) : Apart { l with typed := [], kind := kind } where
  shown := nofun
  proper := h.proper
  below := (h.drop (nil_sublist _)).below
  once := (h.drop (nil_sublist _)).once

lemma Apart.sends (h : Apart l) {r : Request} (hr : r.secret.Sublist l.typed)
    (htakes : r.secret ≠ [] → r.purpose.takes = some l.kind) :
    Apart { l with sent := l.sent ++ [r], typed := [] } where
  shown := nofun
  proper := by
    intro r' hr' t ht
    obtain hold | hnew := mem_append.mp hr'
    · exact h.proper r' hold t ht
    · obtain rfl := mem_singleton.mp hnew
      rw [htakes (ne_nil_of_mem ht), h.shown t (hr.subset ht)]
  below := by
    intro t ht
    apply h.below t
    have hsub := (List.Sublist.refl l.spent).append hr
    exact hsub.subset (by simpa [Lock.spent] using ht)
  once := by
    have hsub := (List.Sublist.refl l.spent).append hr
    simpa [Lock.spent] using h.once.sublist (hsub.map Typed.number)

lemma Apart.asks (h : Apart l) {r : Request} (hr : r.secret = []) (reaches : List Reach) :
    Apart { l with reaches := reaches, sent := l.sent ++ [r] } where
  shown := h.shown
  proper := by
    intro r' hr' t ht
    obtain hold | hnew := mem_append.mp hr'
    · exact h.proper r' hold t ht
    · obtain rfl := mem_singleton.mp hnew
      rw [hr] at ht
      cases ht
  below := by simpa [Lock.spent, hr] using h.below
  once := by simpa [Lock.spent, hr] using h.once

lemma Apart.put (h : Apart l) (buf : Bytes) : Apart (l.put buf) where
  shown := by
    intro t ht
    obtain hold | hnew := mem_append.mp ht
    · exact h.shown t hold
    · obtain ⟨i, hi, rfl⟩ := mem_mapIdx.mp hnew
      rfl
  proper := h.proper
  below := by
    intro t ht
    rw [Lock.put, ← append_assoc] at ht
    obtain hold | hnew := mem_append.mp ht
    · exact Nat.lt_of_lt_of_le (h.below t hold) (Nat.le_add_right _ _)
    · obtain ⟨i, hi, rfl⟩ := mem_mapIdx.mp hnew
      exact Nat.add_lt_add_left hi _
  once := by
    have hnew : (buf.mapIdx (fun i b => (⟨b, l.strokes + i, l.kind⟩ : Typed))).map Typed.number =
        range' l.strokes buf.length := by
      apply ext_getElem
      · simp
      · simp
    rw [Lock.put, ← append_assoc, map_append, hnew, nodup_append]
    refine ⟨h.once, nodup_range', ?_⟩
    intro n hn m hm
    obtain ⟨t, ht, rfl⟩ := mem_map.mp hn
    have hlt := h.below t ht
    have hle := (mem_range'_1.mp hm).1
    omega

lemma wp_request {Q : Option Bytes → Lock → Prop} {text : List Octet} {pipe : List Typed}
    (h : ∀ k reaches said, Q said { l with reaches := reaches, sent := l.sent ++ [⟨purpose, text.take k, pipe, said⟩] })
    :
    wp (request purpose text pipe) Q E l := by
  unfold request
  rw [wp_modifyGet]
  cases l.reaches.headD .unreached with
  | unreached => exact h 0 _ none
  | cut k => exact h k _ none
  | reached said => simpa using h text.length _ (some said)

lemma wp_asks {Q : Option Bytes → Lock → Prop} {s : String}
    (h : ∀ r reaches said, r.secret = [] → Q said { l with reaches := reaches, sent := l.sent ++ [r] }) :
    wp (request purpose (text s) []) Q E l := by
  refine wp_request fun k reaches said => h _ reaches said ?_
  simp [Request.secret, secret_take_text]

lemma wp_kindNow {Q : Option Kind → Lock → Prop}
    (h : ∀ r reaches now, r.secret = [] → Q now { l with reaches := reaches, sent := l.sent ++ [r] }) :
    wp kindNow Q E l := by
  unfold kindNow
  rw [wp_bind]
  refine wp_asks fun r reaches said hr => ?_
  cases said with
  | none => exact h r reaches none hr
  | some said =>
    dsimp only
    split
    · exact h r reaches none hr
    · split
      · exact h r reaches _ hr
      · split
        · exact h r reaches _ hr
        · exact h r reaches none hr

lemma wp_relabel {Q : Bool → Lock → Prop} {now : Option Kind} (hsame : Q false l)
    (hchanged : ∀ kind status refused clock relabeled, Q true { l with
      typed := [], kind := kind, status := status, refused := refused, clock := clock, relabeled := relabeled }) :
    wp (relabel now) Q E l := by
  cases now with
  | none => exact hsame
  | some now =>
    refine wp_ite (fun _ => hsame) fun _ => ?_
    exact hchanged now _ false _ _

lemma wp_relabelNow {Q : Bool → Lock → Prop} (h : Apart l)
    (hQ : ∀ c l', Apart l' → l'.unlocked = l.unlocked → l'.asleep = l.asleep → (c = false → l'.kind = l.kind) →
      Q c l') :
    wp kindNow (fun now => wp (relabel now) Q E) E l := by
  refine wp_kindNow fun r reaches now hr => ?_
  have hasked := h.asks hr reaches
  refine wp_relabel (hQ _ _ hasked rfl rfl fun _ => rfl) fun kind _ _ _ _ => ?_
  have hnew := hasked.relabel kind
  exact hQ _ _ ⟨hnew.shown, hnew.proper, hnew.below, hnew.once⟩ rfl rfl nofun

lemma keeps_suspendNow (u : Bool) : Keeps (fun l => Apart l ∧ l.unlocked = u) suspendNow := by
  intro l ⟨h, hu⟩
  unfold suspendNow clockGettime
  have hkept (clock : List Timespec) : Apart { l with clock := clock } := ⟨h.shown, h.proper, h.below, h.once⟩
  refine wp_ite (fun _ => ⟨hkept _, hu⟩) fun _ => wp_ite (fun _ => ?_) fun _ =>
    wp_ite (fun _ => ⟨hkept _, hu⟩) fun _ => ?_
  · exact ⟨⟨h.shown, h.proper, h.below, h.once⟩, hu⟩
  · simp only [wp_bind, wp_modify, wp_modifyGet]
    refine wp_asks fun r reaches said hr => ?_
    have hasked := h.asks hr reaches
    exact ⟨⟨hasked.shown, hasked.proper, hasked.below, hasked.once⟩, hu⟩

lemma keeps_lockLocked (u : Bool) : Keeps (fun l => Apart l ∧ l.unlocked = u) lockLocked := by
  intro l ⟨h, hu⟩
  unfold lockLocked cameraBack
  simp only [wp_bind, wp_modify, wp_pure, wp_get]
  refine wp_asks fun r reaches said hr => ?_
  have hasked := h.asks hr reaches
  have hkept : Apart { l with locked := true, reaches := reaches, sent := l.sent ++ [r] } :=
    ⟨hasked.shown, hasked.proper, hasked.below, hasked.once⟩
  exact wp_ite (fun _ => keeps_suspendNow u _ ⟨hkept, hu⟩) fun _ => ⟨hkept, hu⟩

lemma keeps_woke (u answered : Bool) : Keeps (fun l => Apart l ∧ l.unlocked = u) (woke answered) := by
  intro l ⟨h, hu⟩
  refine wp_ite (fun _ => ?_) fun _ => ?_
  · simp only [wp_bind, wp_modify]
    refine wp_relabelNow ⟨h.shown, h.proper, h.below, h.once⟩ fun c l2 h2 hu2 _ _ => ?_
    exact ⟨h2, hu2.trans hu⟩
  · simp only [wp_bind]
    refine wp_relabelNow ⟨h.shown, h.proper, h.below, h.once⟩ fun c l2 h2 hu2 _ _ => ?_
    exact ⟨h2, hu2.trans hu⟩

/-- The last request was for the label shown, and the daemon's answer to it is "ok". -/
def Lock.Answered (l : Lock) : Prop :=
  ∃ sent r said, l.sent = sent ++ [r] ∧ r.purpose.takes = some l.kind ∧ r.said = some said ∧ (answer said 256).1 = true

structure Given (l : Lock) (ok : Bool) (l' : Lock) : Prop where
  apart : Apart { l' with typed := [] }
  unlocked : l'.unlocked = l.unlocked
  asleep : l'.asleep = l.asleep
  kind : l'.kind = l.kind
  answered : ok = true → l'.Answered

lemma Apart.given (h : Apart l) {text : List Octet} {pipe : List Typed} (said : Option Bytes)
    (hsub : (text.flatMap Octet.secret ++ pipe).Sublist l.typed) (htakes : purpose.takes = some l.kind)
    (reaches : List Reach) (pipes : List Pipe) :
    Given l (said.any (fun said => (answer said 256).1))
      { l with reaches := reaches, pipes := pipes, sent := l.sent ++ [⟨purpose, text, pipe, said⟩] } := by
  have hsent := h.sends (r := ⟨purpose, text, pipe, said⟩) hsub fun _ => htakes
  refine ⟨⟨hsent.shown, hsent.proper, hsent.below, hsent.once⟩, rfl, rfl, rfl, fun hok => ?_⟩
  obtain ⟨said, rfl, hok⟩ := Option.any_eq_true _ _ |>.mp hok
  exact ⟨l.sent, _, said, rfl, htakes, rfl, hok⟩

lemma secret_take_sublist (a b : String) (held : List Typed) (k : ℕ) :
    (((text a ++ held.map Octet.typed ++ text b).take k).flatMap Octet.secret).Sublist held := by
  have hall : ((text a ++ held.map Octet.typed ++ text b)).flatMap Octet.secret = held := by
    have htext (s : String) : (text s).flatMap Octet.secret = [] := by
      simpa using secret_take_text s (text s).length
    simp [flatMap_append, htext, flatMap_map, Octet.secret]
  have hsub := (take_sublist k (text a ++ held.map Octet.typed ++ text b)).flatMap Octet.secret
  rwa [hall] at hsub

lemma wp_said {said : Option Bytes} {l' : Lock} : Given l (said.any (fun said => (answer said 256).1)) l' →
    wp (match said with
      | none => pure (false, utf8 "the launch daemon cannot be reached")
      | some said => pure (answer said 256) : LockM (Bool × Bytes)) (fun x l' => Given l x.1 l') E l' := by
  cases said with
  | none | some said => exact id

lemma wp_give (h : Apart l) : wp give (fun x l' => Given l x.1 l') E l := by
  unfold give pipe2
  simp only [wp_bind, wp_get]
  cases hkind : l.kind with
  | state =>
    have htakes : Purpose.takes .resumeState = some l.kind := by rw [hkind, Purpose.takes]
    simp only [wp_bind, wp_modifyGet]
    cases l.pipes.headD (.failed []) with
    | failed errno =>
      have hnone := h.drop (nil_sublist _)
      exact ⟨⟨hnone.shown, hnone.proper, hnone.below, hnone.once⟩, rfl, rfl, rfl, fun h => by cases h⟩
    | wrote n =>
      refine wp_ite (fun _ => ?_) fun _ => ?_
      · rw [wp_bind]
        refine wp_request fun k reaches said => wp_said (h.given _ ?_ htakes _ _)
        rw [secret_take_text]
        exact List.Sublist.refl _
      · have hsub : (([] : List Octet).flatMap Octet.secret ++ l.typed.take n).Sublist l.typed := take_sublist _ _
        exact h.given none hsub htakes _ _
  | login =>
    have htakes : Purpose.takes .checkPassword = some l.kind := by rw [hkind, Purpose.takes]
    refine wp_request (E := E) fun k reaches said => wp_said (h.given _ ?_ htakes _ _)
    rw [append_nil, take_take]
    exact (secret_take_sublist _ _ _ _).trans (takeWhile_sublist _)

structure Opened (l l' : Lock) : Prop where
  asleep : l.asleep = none
  awake : l'.asleep = none
  kind : l'.kind = l.kind
  answered : l'.Answered

lemma wp_submit (h : Apart l) (ha : l.asleep = none) :
    wp submit (fun _ l' => Apart l' ∧ (l'.unlocked = l.unlocked ∨ Opened l l')) E l := by
  unfold submit
  simp only [wp_bind]
  refine wp_relabelNow h fun c l1 h1 hu1 ha1 hk1 => wp_ite (fun _ => ⟨h1, .inl hu1⟩) fun hc => ?_
  have hk1 := hk1 (by simpa using hc)
  have hgive : wp give (fun x l' => Given l1 x.1 l') E l1 := wp_give h1
  rw [wp_bind]
  refine wp_mono hgive (fun x l2 h2 => ?_) fun e _ _ => e.elim
  have hu2 := h2.unlocked.trans hu1
  refine wp_ite (fun hok => ?_) fun _ => wp_ite (fun _ => ?_) fun _ => ?_
  · have hopen := h2.apart
    refine ⟨⟨hopen.shown, hopen.proper, hopen.below, hopen.once⟩, .inr ⟨ha, ?_, ?_, h2.answered hok⟩⟩
    · exact h2.asleep.trans (ha1.trans ha)
    · exact h2.kind.trans hk1
  · simp only [wp_bind]
    exact wp_relabelNow h2.apart fun c l3 h3 hu3 _ _ => ⟨h3, .inl (hu3.trans hu2)⟩
  · have hkept := h2.apart
    exact ⟨⟨hkept.shown, hkept.proper, hkept.below, hkept.once⟩, .inl hu2⟩

lemma chop_sublist (typed : List Typed) : (chop typed).Sublist typed := by
  have hsub := ((drop_sublist 1 _).trans
    (dropWhile_sublist (fun t : Typed => t.byte &&& 0xc0 = 0x80) (l := typed.reverse))).reverse
  simpa [chop] using hsub

lemma keeps_enterText (u : Bool) (n : ℕ) (buf : Bytes) :
    Keeps (fun l => Apart l ∧ l.unlocked = u) (enterText n buf) := by
  intro l ⟨h, hu⟩
  have hshow (l' : Lock) (h' : Apart l') (hu' : l'.unlocked = u) :
      wp (do let l ← get; if l.refused ∧ l.status = "WRONG" then showKind)
        (fun _ l => Apart l ∧ l.unlocked = u) (fun _ l => Apart l ∧ l.unlocked = u) l' := by
    exact wp_ite (fun _ => ⟨⟨h'.shown, h'.proper, h'.below, h'.once⟩, hu'⟩) fun _ => ⟨h', hu'⟩
  refine wp_ite (fun _ => ?_) fun _ => hshow l h hu
  exact hshow _ (h.put buf) hu

lemma wp_keyboardKey (h : Apart l) (pressed : Bool) (sym : Sym) (buf : Bytes) :
    wp (keyboardKey pressed sym buf) (fun _ l' => Apart l' ∧ (l'.unlocked = l.unlocked ∨ Opened l l')) E l := by
  refine wp_ite (fun _ => ⟨h, .inl rfl⟩) fun _ => ?_
  have hkept : Apart { l with clock := l.clock.tail } := ⟨h.shown, h.proper, h.below, h.once⟩
  refine wp_ite (fun _ => ⟨hkept, .inl rfl⟩) fun _ => ?_
  cases sym with
  | powerOff =>
    refine wp_mono (keeps_suspendNow l.unlocked _ ⟨hkept, rfl⟩) (fun _ l' h' => ?_) fun e _ _ => e.elim
    exact ⟨h'.1, .inl h'.2⟩
  | enter =>
    refine wp_ite (fun hready => ?_) fun _ => ⟨hkept, .inl rfl⟩
    refine wp_mono (wp_submit (E := E) hkept hready.2) (fun _ l' h' => ⟨h'.1, h'.2.imp_right fun ho => ?_⟩)
      fun e _ _ => e.elim
    exact ⟨ho.asleep, ho.awake, ho.kind, ho.answered⟩
  | backSpace => exact ⟨hkept.drop (chop_sublist _), .inl rfl⟩
  | escape => exact ⟨hkept.drop (nil_sublist _), .inl rfl⟩
  | other =>
    have htext (n : ℕ) (l' : Lock) (h' : Apart l') (hu : l'.unlocked = l.unlocked) :
        wp (enterText n buf) (fun _ l' => Apart l' ∧ (l'.unlocked = l.unlocked ∨ Opened l l')) E l' := by
      refine wp_mono (keeps_enterText l.unlocked n buf l' ⟨h', hu⟩) (fun _ l'' h'' => ?_) fun e _ _ => e.elim
      exact ⟨h''.1, .inl h''.2⟩
    refine wp_ite (fun _ => ?_) fun _ => htext _ _ hkept rfl
    simp only [wp_bind]
    exact wp_relabelNow hkept fun c l' h' hu _ _ => htext _ l' h' hu

lemma wp_handle (h : Apart l) (e : Event) :
    wp (handle e) (fun _ l' => Apart l' ∧ (l'.unlocked = l.unlocked ∨ Opened l l')) E l := by
  have hquiet {x : LockM Unit} (hx : Keeps (fun l' => Apart l' ∧ l'.unlocked = l.unlocked) x) :
      wp x (fun _ l' => Apart l' ∧ (l'.unlocked = l.unlocked ∨ Opened l l')) E l := by
    refine wp_mono (hx l ⟨h, rfl⟩) (fun _ l' h' => ?_) fun e _ _ => e.elim
    exact ⟨h'.1, .inl h'.2⟩
  cases e with
  | display d =>
    cases d with
    | keymap => exact ⟨⟨h.shown, h.proper, h.below, h.once⟩, .inl rfl⟩
    | key pressed sym buf => exact wp_keyboardKey h pressed sym buf
    | locked => exact hquiet (keeps_lockLocked _)
    | finished => exact ⟨⟨h.shown, h.proper, h.below, h.once⟩, .inl rfl⟩
  | suspend => exact hquiet (keeps_suspendNow _)
  | slept answered =>
    exact wp_ite (fun _ => hquiet (keeps_woke _ answered)) fun _ => ⟨h, .inl rfl⟩

def start (reaches : List Reach) (pipes : List Pipe) (clock : List Timespec) : Lock :=
  { reaches := reaches, pipes := pipes, clock := clock }

lemma run_apart (reaches : List Reach) (pipes : List Pipe) (clock : List Timespec) (events : List Event)
    (h : run events (start reaches pipes clock) = .ok () l) : Apart l := by
  have hstart : Apart (start reaches pipes clock) := ⟨nofun, nofun, nofun, nodup_nil⟩
  have hrun : wp (run events) (fun _ => Apart) (fun _ _ => True) (start reaches pipes clock) := by
    unfold run
    simp only [wp_bind]
    refine wp_relabelNow hstart fun _ l1 h1 _ _ _ => ?_
    refine wp_forM events (fun e _ l2 h2 => ?_) h1
    exact wp_mono (wp_handle h2 e) (fun _ _ h3 => h3.1) fun _ _ he => he
  exact wp_ok hrun h

/-- Whatever happens to the lock: a password typed for the login goes to no pipe and a passphrase to
no password check, nothing typed goes out twice, and the lock opens by an "ok" to a request for the
label shown, with no suspend under way. -/
theorem secrets_apart (reaches : List Reach) (pipes : List Pipe) (clock : List Timespec) (events : List Event) (l : Lock)
    (h : run events (start reaches pipes clock) = .ok () l) :
    (∀ r ∈ l.sent, r.purpose = .checkPassword → ∀ t, .typed t ∈ r.text → t.under = .login) ∧
    (∀ r ∈ l.sent, r.purpose = .resumeState → ∀ t ∈ r.pipe, t.under = .state) ∧
    ((l.sent.flatMap Request.secret).map Typed.number).Nodup ∧
    ∀ e l', handle e l = .ok () l' → l.unlocked = false → l'.unlocked = true → Opened l l' := by
  have hapart := run_apart reaches pipes clock events h
  refine ⟨fun r hr hpurpose t ht => ?_, fun r hr hpurpose t ht => ?_, ?_, fun e l' hstep hlocked hopen => ?_⟩
  · have hsecret : t ∈ r.secret := mem_append_left _ (mem_flatMap.mpr ⟨_, ht, mem_singleton_self t⟩)
    have htakes := hapart.proper r hr t hsecret
    rw [hpurpose] at htakes
    exact (Option.some.inj htakes).symm
  · have htakes := hapart.proper r hr t (mem_append_right _ ht)
    rw [hpurpose] at htakes
    exact (Option.some.inj htakes).symm
  · have honce := hapart.once
    rw [map_append] at honce
    exact (nodup_append.mp honce).1
  · have hhandled : wp (handle e) _ (fun _ _ => True) l := wp_handle hapart e
    obtain ⟨-, hsame | hopened⟩ := wp_ok hhandled hstep
    · rw [hsame, hlocked] at hopen
      cases hopen
    · exact hopened

def letter : List Event := [.display .keymap, .display (.key true .other [97])]

def letterLock : Lock :=
  start [.reached (utf8 "ok login"), .reached (utf8 "ok login"), .reached (utf8 "ok login"), .reached (utf8 "ok")] [] []

def after (x : LockM Unit) (l : Lock) : Lock :=
  match x l with
  | .ok _ l' => l'
  | .error e _ => e.elim

lemma eq_after (x : LockM Unit) (l : Lock) : x l = .ok () (after x l) := by
  unfold after
  split
  · assumption
  · rename_i e _ _
    exact e.elim

theorem secrets_apart_letter : Opened (after (run letter) letterLock)
    (after (handle (.display (.key true .enter []))) (after (run letter) letterLock)) := by
  have hlocked : (after (run letter) letterLock).unlocked = false := by decide +kernel
  have hopen : (after (handle (.display (.key true .enter []))) (after (run letter) letterLock)).unlocked = true := by
    decide +kernel
  exact (secrets_apart _ _ _ letter _ (eq_after (run letter) letterLock)).2.2.2 _ _ (eq_after _ _) hlocked hopen

end Kept

end Kryptik.Desktop.ScreenLock
