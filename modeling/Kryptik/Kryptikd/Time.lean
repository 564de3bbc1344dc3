import Mathlib

namespace Kryptik.Kryptikd.Time

def slewBelowSecs : ℚ := 1
def ignoreBelowSecs : ℚ := 1 / 200
def claimIntervalSecs : ℚ := 600

structure Claim where
  offset : ℚ
  sources : ℕ

structure Knowledge where
  now : ℚ
  floor : ℤ
  bound : ℤ
  movedUnasked : ℚ

inductive Refusal
  | noFloor
  | tooSoon
  | beforeFloor (target : ℚ) (floor : ℤ)
  | unsaved (e : String)
  | slewFailed (e : String)
  | stepFailed (e : String)
  | noConsent (why : String)
  deriving DecidableEq

inductive Decision
  | ignore
  | slew (offset : ℚ)
  | step (target : ℚ)
  | ask (target : ℚ)
  | refuse (why : Refusal)

def decide (k : Knowledge) (c : Claim) : Decision :=
  let target := k.now + c.offset
  if target < k.floor then .refuse (.beforeFloor target k.floor)
  else if |c.offset| < ignoreBelowSecs then .ignore
  else if k.bound < |c.offset| + k.movedUnasked then .ask target
  else if |c.offset| < slewBelowSecs then .slew c.offset
  else .step target

def movedAfter (k : Knowledge) (c : Claim) (d : Decision) (consented : Bool) : ℚ :=
  match d with
  | .slew _ | .step _ => k.movedUnasked + |c.offset|
  | .ask _ => if consented then 0 else k.movedUnasked
  | _ => k.movedUnasked

def clampToFloor (now : ℚ) (floor : ℤ) : Option ℚ := if now < floor then some floor else none

structure State where
  movedUnasked : ℚ := 0
  lastClaim : Option ℚ := none
  deriving DecidableEq

inductive Outcome
  | ignored
  | slewed
  | stepped
  | steppedAfterConsent
  | refused (why : Refusal)
  deriving DecidableEq

/-- What the clock, the user and the state file go through, in order. -/
inductive Event
  | saved (s : State)
  | slewed (now offset : ℚ)
  | stepped (offset target : ℚ)
  | asked (now target : ℚ) (sources : ℕ)
  | consented (target : ℚ)
  | raised (target : ℚ)
  | rtcSet
  deriving DecidableEq

structure Machine where
  file : Option State
  log : List Event

def Machine.start : Machine := ⟨none, []⟩

def Machine.note (m : Machine) (e : Event) : Machine := { m with log := m.log ++ [e] }

structure Answers where
  /-- The clock when the claim arrives, when the question is answered and in the end. -/
  now : ℚ
  nowAnswered : ℚ
  nowAfter : ℚ
  saveAhead : Except String Unit
  saveAfter : Except String Unit
  slew : Except String Unit
  step : Except String Unit
  syncRtc : Except String Unit
  ask : Except String Unit

def loadState (file : Option State) : State :=
  match file with
  | none => {}
  | some s => { s with movedUnasked := if 0 ≤ s.movedUnasked then s.movedUnasked else 0 }

def saveState (answer : Except String Unit) (s : State) (m : Machine) : Machine × Except String Unit :=
  match answer with
  | .ok () => (({ m with file := some s }).note (.saved s), .ok ())
  | .error e => (m, .error e)

/-- The accounting of a decision that is to be believed or asked about. -/
def ahead (k : Knowledge) (c : Claim) (d : Decision) : Option State :=
  match d with
  | .step target => some ⟨movedAfter k c d false, some target⟩
  | .slew _ | .ask _ => some ⟨movedAfter k c d false, some k.now⟩
  | _ => none

def saveAhead (a : Answers) (k : Knowledge) (c : Claim) (d : Decision) (m : Machine) : Machine × Except String Unit :=
  match ahead k c d with
  | some s => saveState a.saveAhead s m
  | none => (m, .ok ())

def carryOut (a : Answers) (c : Claim) (d : Decision) (m : Machine) : Machine × Outcome :=
  match d with
  | .ignore => (m, .ignored)
  | .refuse why => (m, .refused why)
  | .slew offset =>
    match a.slew with
    | .ok () => (m.note (.slewed a.now offset), .slewed)
    | .error e => (m, .refused (.slewFailed e))
  | .step target =>
    match a.step with
    | .ok () => (m.note (.stepped c.offset target), .stepped)
    | .error e => (m, .refused (.stepFailed e))
  | .ask target =>
    let m := m.note (.asked a.now target c.sources)
    match a.ask with
    | .error why => (m, .refused (.noConsent why))
    | .ok () =>
      match a.step with
      | .ok () => (m.note (.consented (a.nowAnswered + c.offset)), .steppedAfterConsent)
      | .error e => (m, .refused (.stepFailed e))

/-- The state after an outcome, and the hardware clock after a step. -/
def settle (a : Answers) (k : Knowledge) (c : Claim) (d : Decision) (setRtc : Bool) (state : State)
    (o : Outcome) (m : Machine) : State × Machine :=
  let moved := movedAfter k c d (o = .steppedAfterConsent)
  match o with
  | .slewed => (⟨moved, some a.nowAfter⟩, m)
  | .stepped | .steppedAfterConsent =>
    (⟨moved, some a.nowAfter⟩, if setRtc && a.syncRtc.isOk then m.note .rtcSet else m)
  | _ => (state, m)

def considerWith (floor : Option ℤ) (bound : ℤ) (claim : Claim) (setRtc : Bool) (a : Answers)
    (m : Machine) : Machine × Outcome :=
  match floor with
  | none => (m, .refused .noFloor)
  | some floor =>
    let state := loadState m.file
    if state.lastClaim.any (fun last => |a.now - last| < claimIntervalSecs) then
      (m, .refused .tooSoon)
    else
      let state := { state with lastClaim := some a.now }
      let know : Knowledge := ⟨a.now, floor, bound, state.movedUnasked⟩
      let decision := decide know claim
      match saveAhead a know claim decision m with
      | (m, .error e) => (m, .refused (.unsaved e))
      | (m, .ok ()) =>
        let (m, outcome) := carryOut a claim decision m
        let (state, m) := settle a know claim decision setRtc state outcome m
        ((saveState a.saveAfter state m).1, outcome)

def clamp (floor : Option ℤ) (a : Answers) (m : Machine) : Machine :=
  match floor with
  | none => m
  | some floor =>
    match clampToFloor a.now floor with
    | none => m
    | some target =>
      match a.step with
      | .error _ => m
      | .ok () =>
        let m := m.note (.raised target)
        let m := if a.syncRtc.isOk then m.note .rtcSet else m
        (saveState a.saveAfter { loadState m.file with movedUnasked := 0 } m).1

inductive Call
  | consider (claim : Claim) (setRtc : Bool) (a : Answers)
  | clamp (a : Answers)

def Call.run (floor : Option ℤ) (bound : ℤ) (m : Machine) : Call → Machine
  | .consider claim setRtc a => (considerWith floor bound claim setRtc a m).1
  | .clamp a => Time.clamp floor a m

def runAll (floor : Option ℤ) (bound : ℤ) (calls : List Call) (m : Machine) : Machine :=
  calls.foldl (Call.run floor bound) m

end Kryptik.Kryptikd.Time
