import Kryptik.Lib.History
import Kryptik.Kryptikd.Time

namespace Kryptik.Kryptikd.Time

open Lib.History List

/-- The corrections nobody was asked about, since the clock was last anchored. -/
def Event.moves (sum : ℚ) : Event → ℚ
  | .slewed _ offset | .stepped offset _ => sum + |offset|
  | .consented _ | .raised _ => 0
  | _ => sum

def unasked (log : List Event) : ℚ := log.foldl Event.moves 0

@[simp] lemma unasked_snoc (log : List Event) (e : Event) :
    unasked (log ++ [e]) = e.moves (unasked log) := by simp [unasked]

def Event.target : Event → Option ℚ
  | .slewed now offset => some (now + offset)
  | .stepped _ target | .asked _ target _ | .consented target | .raised target => some target
  | _ => none

def stored (log : List Event) : ℚ :=
  log.foldl (fun sum e => match e with | .saved s => s.movedUnasked | _ => sum) 0

@[simp] lemma stored_snoc (log : List Event) (e : Event) : stored (log ++ [e]) =
    match e with | .saved s => s.movedUnasked | _ => stored log := by simp [stored]

/-- The accounting that stands right before a claim is applied or asked about. -/
def Accounted (pre : List Event) : Event → Prop
  | .slewed now offset => ∃ pre' s, pre = pre' ++ [.saved s] ∧
      s.movedUnasked = stored pre' + |offset| ∧ s.lastClaim = some now
  | .stepped offset target => ∃ pre' s, pre = pre' ++ [.saved s] ∧
      s.movedUnasked = stored pre' + |offset| ∧ s.lastClaim = some target
  | .asked now _ _ => ∃ pre' s, pre = pre' ++ [.saved s] ∧
      s.movedUnasked = stored pre' ∧ s.lastClaim = some now
  | .consented _ => ∃ pre' now target sources, pre = pre' ++ [.asked now target sources]
  | _ => True

/-- What every call keeps: the sum on file covers what was moved unasked and stays within
the bound. -/
structure Machine.Sound (floor : Option ℤ) (bound : ℤ) (m : Machine) : Prop where
  stored_eq : (loadState m.file).movedUnasked = stored m.log
  covered : unasked m.log ≤ stored m.log
  nonneg : 0 ≤ stored m.log
  bounded : stored m.log ≤ bound
  always : Always (fun pre => unasked pre ≤ bound) m.log
  above : ∀ e ∈ m.log, ∀ t, e.target = some t → ∃ f, floor = some f ∧ (f : ℚ) ≤ t
  accounted : Each Accounted m.log

namespace Machine.Sound

variable {floor : Option ℤ} {bound : ℤ} {m : Machine}

lemma start (floor : Option ℤ) (hb : 0 ≤ bound) : Machine.start.Sound floor bound where
  stored_eq := rfl
  covered := le_refl _
  nonneg := le_refl _
  bounded := by
    change (0 : ℚ) ≤ bound
    exact_mod_cast hb
  always := Always.nil (by
    change (0 : ℚ) ≤ bound
    exact_mod_cast hb)
  above := fun e he => absurd he not_mem_nil
  accounted := Each.nil

lemma note (h : m.Sound floor bound) {e : Event} (hs : ∀ s, e ≠ .saved s)
    (hmoves : e.moves (unasked m.log) ≤ stored m.log)
    (htarget : ∀ t, e.target = some t → ∃ f, floor = some f ∧ (f : ℚ) ≤ t)
    (hacc : Accounted m.log e) : (m.note e).Sound floor bound := by
  have hstored : stored (m.log ++ [e]) = stored m.log := by
    rw [stored_snoc]
    cases e with
    | saved s => exact absurd rfl (hs s)
    | _ => rfl
  have hcov : unasked (m.log ++ [e]) ≤ stored m.log := by rwa [unasked_snoc]
  exact
    { stored_eq := h.stored_eq.trans hstored.symm
      covered := hcov.trans_eq hstored.symm
      nonneg := h.nonneg.trans_eq hstored.symm
      bounded := hstored.le.trans h.bounded
      always := h.always.snoc (hcov.trans h.bounded)
      above := by
        intro e' he'
        obtain he' | he' := mem_append.mp he'
        · exact h.above e' he'
        · exact mem_singleton.mp he' ▸ htarget
      accounted := h.accounted.snoc hacc }

lemma save (h : m.Sound floor bound) (answer : Except String Unit) {s : State}
    (hcov : unasked m.log ≤ s.movedUnasked) (hn : 0 ≤ s.movedUnasked) (hb : s.movedUnasked ≤ bound) :
    (saveState answer s m).1.Sound floor bound := by
  cases answer with
  | error e => exact h
  | ok _ =>
    have hstored : stored (m.log ++ [.saved s]) = s.movedUnasked := by rw [stored_snoc]
    have hun : unasked (m.log ++ [.saved s]) = unasked m.log := by rw [unasked_snoc]; rfl
    exact
      { stored_eq := by
          change (if 0 ≤ s.movedUnasked then s.movedUnasked else 0) = _
          rw [if_pos hn]
          exact hstored.symm
        covered := (hun.le.trans hcov).trans_eq hstored.symm
        nonneg := hn.trans_eq hstored.symm
        bounded := hstored.le.trans hb
        always := h.always.snoc (hun.le.trans (hcov.trans hb))
        above := by
          intro e' he'
          obtain he' | he' := mem_append.mp he'
          · exact h.above e' he'
          · obtain rfl := mem_singleton.mp he'
            exact nofun
        accounted := h.accounted.snoc trivial }

lemma rtc (h : m.Sound floor bound) (b : Bool) : (if b then m.note .rtcSet else m).Sound floor bound := by
  cases b with
  | false => exact h
  | true => exact h.note nofun h.covered nofun trivial

end Machine.Sound

section Decide

variable {k : Knowledge} {c : Claim}

lemma decide_spec (k : Knowledge) (c : Claim) :
    match decide k c with
    | .slew offset => offset = c.offset ∧ (k.floor : ℚ) ≤ k.now + c.offset ∧
        k.movedUnasked + |c.offset| ≤ k.bound
    | .step target => target = k.now + c.offset ∧ (k.floor : ℚ) ≤ k.now + c.offset ∧
        k.movedUnasked + |c.offset| ≤ k.bound
    | .ask target => target = k.now + c.offset ∧ (k.floor : ℚ) ≤ k.now + c.offset
    | _ => True := by
  unfold decide
  dsimp only
  split_ifs with hfloor hignore hask hslew
  · trivial
  · trivial
  · exact ⟨rfl, not_lt.mp hfloor⟩
  · exact ⟨rfl, not_lt.mp hfloor, by linarith [not_lt.mp hask]⟩
  · exact ⟨rfl, not_lt.mp hfloor, by linarith [not_lt.mp hask]⟩

lemma movedAfter_bounds (hn : 0 ≤ k.movedUnasked) (hb : k.movedUnasked ≤ k.bound) (consented : Bool) :
    0 ≤ movedAfter k c (decide k c) consented ∧ movedAfter k c (decide k c) consented ≤ k.bound := by
  have hspec := decide_spec k c
  have hpos : 0 ≤ |c.offset| := abs_nonneg _
  cases hd : decide k c with
  | slew offset | step target =>
    rw [hd] at hspec
    exact ⟨add_nonneg hn hpos, hspec.2.2⟩
  | ask target =>
    cases consented with
    | false => exact ⟨hn, hb⟩
    | true => exact ⟨le_refl _, hn.trans hb⟩
  | ignore | refuse why => exact ⟨hn, hb⟩

end Decide

section Consider

variable {floor : ℤ} {bound : ℤ} {m : Machine} {a : Answers} {k : Knowledge} {c : Claim}

/-- The machine once the accounting of a decision is on file, where it needs one. -/
structure Ready (k : Knowledge) (c : Claim) (m : Machine) : Prop where
  sound : m.Sound (some k.floor) k.bound
  before : unasked m.log ≤ k.movedUnasked
  nonneg : 0 ≤ k.movedUnasked
  bounded : k.movedUnasked ≤ k.bound
  filed : ∀ s, ahead k c (decide k c) = some s → ∃ pre, m.log = pre ++ [.saved s] ∧ stored pre = k.movedUnasked

lemma ready_saveAhead (h : m.Sound (some k.floor) k.bound) (hk : k.movedUnasked = stored m.log)
    {m' : Machine} {r : Except String Unit} (hs : saveAhead a k c (decide k c) m = (m', r)) :
    m'.Sound (some k.floor) k.bound ∧ (r = .ok () → Ready k c m') := by
  have hn : 0 ≤ k.movedUnasked := hk ▸ h.nonneg
  have hb := hk ▸ h.bounded
  have hcov := hk ▸ h.covered
  unfold saveAhead at hs
  cases ha : ahead k c (decide k c) with
  | none =>
    rw [ha] at hs
    cases hs
    refine ⟨h, fun _ => ⟨h, hcov, hn, hb, ?_⟩⟩
    rw [ha]
    exact nofun
  | some s =>
    rw [ha] at hs
    have hmoved : s.movedUnasked = movedAfter k c (decide k c) false := by
      unfold ahead at ha
      split at ha <;> cases ha <;> rfl
    have hgrows : k.movedUnasked ≤ s.movedUnasked := by
      rw [hmoved]
      unfold movedAfter
      split
      · exact le_add_of_nonneg_right (abs_nonneg _)
      · exact le_add_of_nonneg_right (abs_nonneg _)
      · exact le_refl _
      · exact le_refl _
    have hle := hmoved ▸ (movedAfter_bounds hn hb false).2
    have hsound := h.save a.saveAhead (hcov.trans hgrows) (hn.trans hgrows) hle
    cases hans : a.saveAhead with
    | error e =>
      rw [hans] at hs
      cases hs
      exact ⟨h, nofun⟩
    | ok _ =>
      rw [hans] at hs hsound
      cases hs
      refine ⟨hsound, fun _ => ⟨hsound, ?_, hn, hb, ?_⟩⟩
      · change unasked (m.log ++ [.saved s]) ≤ _
        rw [unasked_snoc]
        exact hcov
      · intro s' hs'
        cases ha.symm.trans hs'
        exact ⟨m.log, rfl, hk.symm⟩

/-- What an outcome leaves in the file covers what was done. -/
def Outcome.leaves (k : Knowledge) (c : Claim) : Outcome → ℚ
  | .slewed | .stepped => movedAfter k c (decide k c) false
  | .steppedAfterConsent => movedAfter k c (decide k c) true
  | _ => k.movedUnasked

lemma sound_carryOut (h : Ready k c m) (hnow : a.now = k.now) (hforward : a.now ≤ a.nowAnswered) :
    (carryOut a c (decide k c) m).1.Sound (some k.floor) k.bound ∧
      unasked (carryOut a c (decide k c) m).1.log ≤ (carryOut a c (decide k c) m).2.leaves k c := by
  have hspec := decide_spec k c
  have hfiled := h.filed
  have hmoves : unasked m.log + |c.offset| ≤ k.movedUnasked + |c.offset| := by linarith [h.before]
  unfold Outcome.leaves carryOut
  cases hd : decide k c with
  | ignore | refuse why => exact ⟨h.sound, h.before⟩
  | slew offset =>
    rw [hd] at hspec hfiled
    obtain ⟨rfl, hfloor, -⟩ := hspec
    obtain ⟨pre, hlog, hpre⟩ := hfiled _ rfl
    have hst : stored m.log = k.movedUnasked + |c.offset| := by rw [hlog, stored_snoc]; rfl
    cases a.slew with
    | error e => exact ⟨h.sound, h.before⟩
    | ok _ =>
      refine ⟨h.sound.note nofun (hmoves.trans_eq hst.symm) ?_ ?_, ?_⟩
      · rintro t ⟨⟩
        exact ⟨k.floor, rfl, hnow ▸ hfloor⟩
      · exact ⟨pre, _, hlog, by rw [hpre]; rfl, by rw [hnow]⟩
      · change unasked (m.log ++ [.slewed a.now c.offset]) ≤ _
        rw [unasked_snoc]
        exact hmoves
  | step target =>
    rw [hd] at hspec hfiled
    obtain ⟨rfl, hfloor, -⟩ := hspec
    obtain ⟨pre, hlog, hpre⟩ := hfiled _ rfl
    have hst : stored m.log = k.movedUnasked + |c.offset| := by rw [hlog, stored_snoc]; rfl
    cases a.step with
    | error e => exact ⟨h.sound, h.before⟩
    | ok _ =>
      refine ⟨h.sound.note nofun (hmoves.trans_eq hst.symm) ?_ ?_, ?_⟩
      · rintro t ⟨⟩
        exact ⟨k.floor, rfl, hfloor⟩
      · exact ⟨pre, _, hlog, by rw [hpre]; rfl, rfl⟩
      · change unasked (m.log ++ [.stepped c.offset _]) ≤ _
        rw [unasked_snoc]
        exact hmoves
  | ask target =>
    rw [hd] at hspec hfiled
    obtain ⟨rfl, hfloor⟩ := hspec
    obtain ⟨pre, hlog, hpre⟩ := hfiled _ rfl
    have hasked : (m.note (.asked a.now (k.now + c.offset) c.sources)).Sound (some k.floor) k.bound := by
      refine h.sound.note nofun h.sound.covered ?_ ?_
      · rintro t ⟨⟩
        exact ⟨k.floor, rfl, hfloor⟩
      · exact ⟨pre, _, hlog, by rw [hpre]; rfl, by rw [hnow]⟩
    have hbefore : unasked (m.note (.asked a.now (k.now + c.offset) c.sources)).log ≤ k.movedUnasked := by
      change unasked (m.log ++ [_]) ≤ _
      rw [unasked_snoc]
      exact h.before
    cases a.ask with
    | error why => exact ⟨hasked, hbefore⟩
    | ok _ =>
      cases a.step with
      | error e => exact ⟨hasked, hbefore⟩
      | ok _ =>
        refine ⟨hasked.note nofun hasked.nonneg ?_ ?_, ?_⟩
        · rintro t ⟨⟩
          refine ⟨k.floor, rfl, hfloor.trans ?_⟩
          linarith
        · exact ⟨m.log, _, _, _, rfl⟩
        · change unasked ((m.note _).log ++ [_]) ≤ _
          rw [unasked_snoc]
          exact le_refl _

lemma sound_settle (h : m.Sound (some k.floor) k.bound) {state : State} {setRtc : Bool} {o : Outcome}
    (hstate : state.movedUnasked = k.movedUnasked) (hn : 0 ≤ k.movedUnasked)
    (hb : k.movedUnasked ≤ k.bound) (hleaves : unasked m.log ≤ o.leaves k c) :
    (saveState a.saveAfter (settle a k c (decide k c) setRtc state o m).1
      (settle a k c (decide k c) setRtc state o m).2).1.Sound (some k.floor) k.bound := by
  have hrtc (b : Bool) : unasked (if b then m.note .rtcSet else m).log = unasked m.log := by
    cases b with
    | false => rfl
    | true =>
      change unasked (m.log ++ [_]) = _
      rw [unasked_snoc]
      rfl
  have hunasked := movedAfter_bounds (c := c) hn hb false
  have hasked := movedAfter_bounds (c := c) hn hb true
  cases o with
  | ignored | refused why => exact h.save _ (hleaves.trans_eq hstate.symm) (hstate ▸ hn) (hstate ▸ hb)
  | slewed => exact h.save _ hleaves hunasked.1 hunasked.2
  | stepped => exact (h.rtc _).save _ ((hrtc _).le.trans hleaves) hunasked.1 hunasked.2
  | steppedAfterConsent => exact (h.rtc _).save _ ((hrtc _).le.trans hleaves) hasked.1 hasked.2

end Consider

variable {floor : Option ℤ} {bound : ℤ} {m : Machine}

lemma Machine.Sound.considerWith (h : m.Sound floor bound) {claim : Claim} {setRtc : Bool} {a : Answers}
    (hforward : a.now ≤ a.nowAnswered) :
    (considerWith floor bound claim setRtc a m).1.Sound floor bound := by
  cases floor with
  | none => exact h
  | some f =>
    unfold Time.considerWith
    dsimp only
    split_ifs
    · exact h
    · obtain ⟨k, hk⟩ : ∃ k : Knowledge, k = ⟨a.now, f, bound, (loadState m.file).movedUnasked⟩ := ⟨_, rfl⟩
      rw [← hk]
      have hmoved : k.movedUnasked = stored m.log := by rw [hk, ← h.stored_eq]
      have hfloor : k.floor = f := by rw [hk]
      have hbound : k.bound = bound := by rw [hk]
      rw [← hfloor, ← hbound] at h ⊢
      cases hs : saveAhead a k claim (decide k claim) m with
      | mk m' r =>
        obtain ⟨hsound, hready⟩ := ready_saveAhead h hmoved hs
        cases r with
        | error e => exact hsound
        | ok _ =>
          have hready := hready rfl
          obtain ⟨hcarried, hleaves⟩ := sound_carryOut (a := a) hready (by rw [hk]) hforward
          exact sound_settle hcarried (by rw [hk]) hready.nonneg hready.bounded hleaves

lemma Machine.Sound.clamp (h : m.Sound floor bound) {a : Answers} : (clamp floor a m).Sound floor bound := by
  cases floor with
  | none => exact h
  | some f =>
    unfold Time.clamp clampToFloor
    dsimp only
    by_cases hlow : a.now < f
    · rw [if_pos hlow]
      cases a.step with
      | error e => exact h
      | ok _ =>
        have hraised : (m.note (.raised f)).Sound (some f) bound := by
          refine h.note nofun h.nonneg ?_ trivial
          rintro t ⟨⟩
          exact ⟨f, rfl, le_refl _⟩
        have hzero : unasked (m.note (.raised f)).log = 0 := by
          change unasked (m.log ++ [_]) = _
          rw [unasked_snoc]
          rfl
        have hb : (0 : ℚ) ≤ bound := h.nonneg.trans h.bounded
        refine (hraised.rtc a.syncRtc.isOk).save (s := ⟨0, _⟩) a.saveAfter ?_ (le_refl _) hb
        cases a.syncRtc.isOk with
        | false => exact hzero.le
        | true =>
          change unasked ((m.note (.raised f)).log ++ [_]) ≤ _
          rw [unasked_snoc]
          exact hzero.le
    · rw [if_neg hlow]
      exact h

def Call.Forward : Call → Prop
  | .consider _ _ a => a.now ≤ a.nowAnswered
  | .clamp _ => True

lemma Machine.Sound.run (h : m.Sound floor bound) {calls : List Call} (hf : ∀ c ∈ calls, c.Forward) :
    (runAll floor bound calls m).Sound floor bound := by
  induction calls generalizing m with
  | nil => exact h
  | cons call calls ih =>
    refine ih ?_ (fun c hc => hf c (mem_cons_of_mem call hc))
    have hcall := hf call mem_cons_self
    cases call with
    | consider claim setRtc a => exact h.considerWith hcall
    | clamp a => exact h.clamp

theorem clock_stays_within_bound (floor : Option ℤ) (bound : ℤ) (hbound : 0 ≤ bound)
    (calls : List Call) (hforward : ∀ c ∈ calls, c.Forward) :
    Always (fun pre => unasked pre ≤ bound) (runAll floor bound calls .start).log ∧
      (∀ e ∈ (runAll floor bound calls .start).log, ∀ t, e.target = some t → ∃ f, floor = some f ∧ (f : ℚ) ≤ t) ∧
      Each Accounted (runAll floor bound calls .start).log := by
  have h := (Machine.Sound.start floor hbound).run hforward
  exact ⟨h.always, h.above, h.accounted⟩

def wellAnswered : Answers where
  now := 1000
  nowAnswered := 1002
  nowAfter := 1045
  saveAhead := .ok ()
  saveAfter := .error "no space left on device"
  slew := .ok ()
  step := .ok ()
  syncRtc := .ok ()
  ask := .ok ()

/-- A claim within the bound, and one past it, which is asked about. -/
def twoClaims : List Call :=
  [.consider ⟨42, 3⟩ true wellAnswered,
    .consider ⟨7200, 3⟩ false { wellAnswered with now := 5000, nowAnswered := 5001, nowAfter := 12210 }]

theorem clock_stays_within_bound_asked : (runAll (some 900) 3600 twoClaims .start).log =
      [.saved ⟨42, some 1042⟩, .stepped 42 1042, .rtcSet, .saved ⟨42, some 5000⟩, .asked 5000 12200 3,
        .consented 12201] ∧
    Always (fun pre => unasked pre ≤ (3600 : ℤ)) (runAll (some 900) 3600 twoClaims .start).log := by
  have hforward : ∀ c ∈ twoClaims, c.Forward := by
    refine forall_mem_cons.mpr ⟨?_, forall_mem_singleton.mpr ?_⟩
    · change (1000 : ℚ) ≤ 1002
      decide +kernel
    · change (5000 : ℚ) ≤ 5001
      decide +kernel
  exact ⟨by decide +kernel, (clock_stays_within_bound _ 3600 (by decide) _ hforward).1⟩

end Kryptik.Kryptikd.Time
