import Kryptik.Wlproxy.Main

namespace Kryptik.Wlproxy

open Lib Prog Tables Wire List Session

section Step

variable {σ α : Type} {Q : α → σ → Prop} {E : Halt → σ → Prop} {s : σ}

lemma wp_orEnd_other {why : SessionError → Why} {x : EStateM Fault σ α} {other : Why}
    (hwhy : ∀ e, why e ≠ other) (hE : ∀ e s, e ≠ .ended other → E e s) (hQ : ∀ a s, Q a s) :
    wp (orEnd why x) Q E s := by
  refine (wp_orEnd why x).mpr (wp_of_cases (fun a t _ => hQ a t) fun f t _ => hE _ t ?_)
  cases f with
  | refused e => simpa [Fault.halt] using hwhy e
  | panic | diverged => simp [Fault.halt]

end Step

namespace Session

lemma overBudget_iff {zone old : Charge} {s : Session} :
    overBudget zone old s = true ↔ ∃ r, zoneBound r < zone r + s.charge r - old r := by
  simp only [overBudget, any_eq_true, decide_eq_true_eq]
  constructor
  · rintro ⟨r, -, h⟩
    exact ⟨r, h⟩
  · rintro ⟨r, h⟩
    exact ⟨r, by cases r <;> simp [Resource.all], h⟩

lemma overBudget_congr {zone old : Charge} {s t : Session} (h : t.charge = s.charge) :
    overBudget zone old t = overBudget zone old s := by rw [overBudget, overBudget, h]

lemma wp_readSide_other {dir : Dir} {gone failed : Why} (hgone : gone ≠ .budget) (hfailed : failed ≠ .budget)
    {Q : Unit → Session × Clipboard → Prop} {E : Halt → Session × Clipboard → Prop} (r : Option Recv)
    (hE : ∀ e x, e ≠ .ended .budget → E e x) (hQ : ∀ u x, Q u x) (x : Session × Clipboard) :
    wp (readSide dir gone failed r) Q E x := by
  refine wp_readSide (fun _ => hQ () x) (fun _ _ => hQ _ _) fun _ why _ hwhy => hE _ _ ?_
  obtain rfl | rfl := hwhy
  · simpa using hgone
  · simpa using hfailed

lemma wp_step (io : SessionIo) (zone old : Charge) (x : Session × Clipboard) :
    wp (step io zone old) (fun _ y => overBudget zone old y.1 = false)
      (fun e y => e = .ended .budget → overBudget zone old y.1 = true) x := by
  have hother : ∀ (e : Halt) (y : Session × Clipboard), e ≠ .ended .budget →
      e = .ended .budget → overBudget zone old y.1 = true := fun _ _ hne he => absurd he hne
  refine wp_ite (fun _ => hother _ _ (by simp)) (fun _ => ?_)
  simp only [wp_bind, wp_get]
  refine wp_readSide_other (by simp) (by simp) _ hother (fun _ x1 => ?_) x
  refine wp_readSide_other (by simp) (by simp) _ hother (fun _ x2 => ?_) x1
  refine wp_orEnd_other (by simp) hother (fun _ x3 => ?_)
  refine wp_orEnd_other (by simp) hother (fun _ x4 => ?_)
  refine wp_ite (fun hover _ => hover) (fun hover => ?_)
  simp only [wp_bind, wp_orEnd, flushServer, flushClient, wp_zoom]
  refine wp_of_cases (fun _ o _ => ?_) (fun f o _ => hother _ _ ?_)
  · refine wp_of_cases (fun _ o' _ => ?_) (fun f o' _ => hother _ _ ?_)
    · refine (overBudget_congr (s := x4.1) (funext fun r => ?_)).trans (by simpa using hover)
      cases r <;> rfl
    · cases f <;> simp [Fault.halt]
  · cases f <;> simp [Fault.halt]

end Session

namespace Core

lemma keeps_register {n id' : ℕ} (id version : ℕ) (dir : Dir) :
    Keeps (fun c => c.toplevels = n ∧ c.id = id') (register id "wl_data_offer" version dir) := by
  intro c hc
  refine wp_ite (fun _ => hc) (fun _ => ?_)
  simp only [wp_bind, wp_orRefuse, find_wlDataOffer, wp_get]
  refine ⟨?_, by simp⟩
  rintro _ ⟨⟩
  refine wp_ite (fun h => absurd h.1 (by simp)) (fun _ => wp_ite (fun h => absurd h.1 (by simp)) (fun _ => ?_))
  simp only [wp_bind, wp_liftSession, wp_set]
  exact ⟨fun _ _ => by simpa using hc, fun _ _ => hc⟩

lemma steered_charged {n id' : ℕ} : Steered (fun c => c.toplevels = n ∧ c.id = id')
    (fun _ c => c.toplevels = n ∧ c.id = id') fun _ _ => True where
  stops h _ := h
  rest h hc := ⟨(congrArg (fun b : _ × _ × ℕ × _ => b.2.2.1) hc).trans h.1, (congrArg Prod.fst hc).trans h.2⟩
  own _ := trivial
  down h _ := h
  up h _ := h
  placed _ h := h
  offered := keeps_register

end Core

def Ended.Grew (e : Ended) : Prop :=
  e.why = .budget → ∃ r, e.before r < e.after r ∧ zoneBound r < e.zone r + e.after r - e.before r

namespace Proxy

variable {s' : Session}
variable {p : Proxy} {zone : Charge} {i n : ℕ}

def total (sessions : List Session) : Charge := fun r => (sessions.map (fun s => s.charge r)).sum

def openOnes (closed : List ℕ) (sessions : List Session) : List Session :=
  sessions.filter (fun s => s.core.id ∉ closed)

/-- When `i` sessions have had their turn. -/
structure Budgeted (p : Proxy) (i : ℕ) (zone : Charge) : Prop where
  counted : ∀ r, total (openOnes p.closed (p.sessions.take i)) r + total (p.sessions.drop i) r ≤ zone r
  within : ∀ r, zone r ≤ zoneBound r
  ended : ∀ e ∈ p.ended, e.Grew

lemma total_append (a b : List Session) (r : Resource) : total (a ++ b) r = total a r + total b r := by
  simp [total]

lemma total_filter_le (q : Session → Bool) (l : List Session) (r : Resource) : total (l.filter q) r ≤ total l r := by
  induction l with
  | nil => exact Nat.le_refl _
  | cons s l ih =>
    simp only [total, filter_cons, map_cons, sum_cons] at ih ⊢
    split
    · simp only [map_cons, sum_cons]
      omega
    · omega

lemma total_close_le (closed : List ℕ) (l : List Session) (id : ℕ) (r : Resource) :
    total (openOnes (closed ++ [id]) l) r ≤ total (openOnes closed l) r := by
  have hsub : openOnes (closed ++ [id]) l = (openOnes closed l).filter (fun s => s.core.id ≠ id) := by
    simp only [openOnes, filter_filter]
    simp [and_comm]
  rw [hsub]
  exact total_filter_le _ _ r

lemma openOnes_append (closed : List ℕ) (a b : List Session) :
    openOnes closed (a ++ b) = openOnes closed a ++ openOnes closed b := filter_append ..

lemma take_set_succ {l : List Session} (h : i < l.length) (s : Session) :
    (l.set i s).take (i + 1) = l.take i ++ [s] := by
  rw [take_add_one, take_set_of_le (Nat.le_refl i), getElem?_set_self h]
  rfl

lemma drop_set_succ (l : List Session) (i : ℕ) (s : Session) : (l.set i s).drop (i + 1) = l.drop (i + 1) :=
  drop_set_of_lt (Nat.lt_succ_self i)

lemma total_drop (h : i < p.sessions.length) (r : Resource) :
    total (p.sessions.drop i) r = (p.sessions[i]).charge r + total (p.sessions.drop (i + 1)) r := by
  rw [drop_eq_getElem_cons h]
  rfl

lemma Budgeted.pass (h : p.Budgeted i zone) (hi : i < p.sessions.length) (clip : Clipboard)
    (hfits : overBudget zone (p.sessions[i]).charge s' = false) :
    { p with sessions := p.sessions.set i s', clip := clip }.Budgeted (i + 1)
      (fun r => zone r - (p.sessions[i]).charge r + s'.charge r) := by
  refine ⟨fun r => ?_, fun r => ?_, h.ended⟩
  · have hcounted := h.counted r
    rw [total_drop hi r] at hcounted
    have hone : total (openOnes p.closed [s']) r ≤ s'.charge r :=
      (total_filter_le _ _ r).trans (by simp [total])
    dsimp only
    rw [take_set_succ hi, drop_set_succ, openOnes_append, total_append]
    omega
  · have hcounted := h.counted r
    rw [total_drop hi r] at hcounted
    have hle : ¬ zoneBound r < zone r + s'.charge r - (p.sessions[i]).charge r := by
      intro hover
      rw [overBudget_iff.mpr ⟨r, hover⟩] at hfits
      cases hfits
    omega

lemma Budgeted.close (h : p.Budgeted i zone) (hi : i < p.sessions.length) {e : Ended} (he : e.Grew) :
    (p.close i s' e).Budgeted (i + 1) zone := by
  refine ⟨fun r => ?_, h.within, fun e' he' => ?_⟩
  · have hcounted := h.counted r
    rw [total_drop hi r] at hcounted
    have hclose := total_close_le p.closed (p.sessions.take i) s'.core.id r
    have hnone : openOnes (p.closed ++ [s'.core.id]) [s'.refuse] = [] := by
      simp [openOnes, Session.refuse]
    unfold Proxy.close
    dsimp only
    rw [take_set_succ hi, drop_set_succ, openOnes_append, total_append, hnone]
    have hzero : total [] r = 0 := rfl
    omega
  · obtain he' | he' := mem_append.mp he'
    · exact h.ended e' he'
    · rw [mem_singleton.mp he']
      exact he

lemma stepSession_budgeted (io : ℕ → SessionIo) (h : p.Budgeted i zone) (hi : i < p.sessions.length) :
    wp (stepSession io i zone) (fun zone' p' => p'.Budgeted (i + 1) zone' ∧ p'.sessions.length = p.sessions.length)
      (fun _ p' => ∀ e ∈ p'.ended, e.Grew) p := by
  have hget := getElem?_eq_getElem hi
  have hstep := wp_step (io (p.sessions[i]).core.id) zone (p.sessions[i]).charge
    (p.sessions[i], p.clip)
  refine wp_stepSession hget ?_ ?_ (fun _ _ _ => h.ended)
  · intro s' clip hs
    have hfits := wp_ok hstep hs
    exact ⟨h.pass hi clip hfits, by simp⟩
  · intro why s' clip hs
    have hover : Halt.ended why = .ended .budget → overBudget zone (p.sessions[i]).charge s' = true := wp_error hstep hs
    have hclip : { p with clip := clip }.Budgeted i zone := ⟨h.counted, h.within, h.ended⟩
    refine ⟨hclip.close hi ?_, by simp [Proxy.close]⟩
    intro hwhy
    obtain ⟨r, hr⟩ := overBudget_iff.mp (hover (congrArg Halt.ended hwhy))
    have hb := h.within r
    exact ⟨r, by dsimp only; omega, hr⟩

lemma stepSessions_budgeted (io : ℕ → SessionIo) (k : ℕ) (h : p.Budgeted i zone) (hk : i + k = p.sessions.length) :
    wp (stepSessions io (range' i k) zone)
      (fun _ p' => ∃ zone', p'.Budgeted p'.sessions.length zone') (fun _ p' => ∀ e ∈ p'.ended, e.Grew) p := by
  induction k generalizing p i zone with
  | zero => exact ⟨zone, by rwa [← hk]⟩
  | succ k ih =>
    refine (wp_bind _ _).mpr ?_
    refine wp_mono (stepSession_budgeted io h (by omega)) (fun zone' p' h' => ?_) (fun _ _ he => he)
    exact ih h'.1 (by omega)

/-- What the turns leave for the rest of the loop: the windows of the sessions still open. -/
structure Windowed (p : Proxy) : Prop where
  windows : total (openOnes p.closed p.sessions) .toplevels ≤ zoneBound .toplevels
  ended : ∀ e ∈ p.ended, e.Grew

lemma Budgeted.windowed (h : p.Budgeted p.sessions.length zone) : p.Windowed := by
  refine ⟨?_, h.ended⟩
  have hcounted := h.counted .toplevels
  have hwithin := h.within .toplevels
  rw [take_length] at hcounted
  omega

lemma total_set {l : List Session} {s : Session} {closed : List ℕ} {r : Resource} (hs : l[i]? = some s)
    (hle : total (openOnes closed [s']) r ≤ total (openOnes closed [s]) r) :
    total (openOnes closed (l.set i s')) r ≤ total (openOnes closed l) r := by
  obtain ⟨hi, hget⟩ := List.getElem?_eq_some_iff.mp hs
  have hl : l = l.take i ++ ([s] ++ l.drop (i + 1)) := by
    rw [singleton_append, ← hget, cons_getElem_drop_succ, take_append_drop]
  have hset : l.set i s' = l.take i ++ ([s'] ++ l.drop (i + 1)) := set_eq_take_append_cons_drop.trans (if_pos hi)
  have hrhs := congrArg (fun l => total (openOnes closed l) r) hl
  rw [hset, hrhs]
  simp only [openOnes_append, total_append]
  omega

lemma Windowed.act (h : p.Windowed) {s : Session} {core : Core} (hs : p.sessions[i]? = some s)
    (hcore : core.toplevels = s.core.toplevels ∧ core.id = s.core.id) :
    { p with sessions := p.sessions.set i { s with core := core } }.Windowed := by
  refine ⟨Nat.le_trans (total_set hs ?_) h.windows, h.ended⟩
  simp only [openOnes, hcore.2, filter_cons, filter_nil]
  split
  · simp [total, Session.charge, hcore.1]
  · exact Nat.le_refl _

lemma Windowed.close (h : p.Windowed) {s : Session} {e : Ended} (hs : p.sessions[i]? = some s) (he : e.Grew) :
    (p.close i s' e).Windowed := by
  refine ⟨?_, fun e' he' => ?_⟩
  · have hnone : openOnes (p.closed ++ [s'.core.id]) [s'.refuse] = [] := by simp [openOnes, Session.refuse]
    have hset : total (openOnes (p.closed ++ [s'.core.id]) (p.sessions.set i s'.refuse)) .toplevels ≤
        total (openOnes (p.closed ++ [s'.core.id]) p.sessions) .toplevels :=
      total_set hs (by rw [hnone]; exact Nat.zero_le _)
    exact (hset.trans (total_close_le p.closed p.sessions s'.core.id .toplevels)).trans h.windows
  · obtain he' | he' := mem_append.mp he'
    · exact h.ended e' he'
    · rw [mem_singleton.mp he']
      exact he

lemma deliver_windowed (now : ℕ) (a : Action) : Keeps Windowed (deliver now a) := by
  intro p h
  refine wp_deliver (fun _ => ?_) h ?_ ?_ (fun _ _ _ _ _ _ _ => h)
  · obtain hsame | ⟨_, _, _, _, _, _, _, _, _, _, hwriter⟩ := paste_cases now a p
    · rwa [hsame]
    · rw [hwriter]
      exact ⟨h.windows, h.ended⟩
  · intro i s core hs _ _ hact
    have hkept := wp_ok (Core.steered_charged.act p.clip a s.core ⟨rfl, rfl⟩) hact
    exact h.act hs hkept
  · intro i s core e hs _ _ _
    exact h.close hs (fun hwhy => by cases hwhy)

lemma ended_foldl_drop (now : ℕ) (l : List Session) (p : Proxy) : (l.foldl (drop now) p).ended = p.ended := by
  induction l generalizing p with
  | nil => rfl
  | cons s l ih => exact ih (drop now p s)

lemma Windowed.dropClosed (h : p.Windowed) (now : ℕ) :
    (p.dropClosed now).Windowed ∧ (p.dropClosed now).closed = [] := by
  refine ⟨⟨?_, ?_⟩, rfl⟩
  · have hall : openOnes [] (openOnes p.closed p.sessions) = openOnes p.closed p.sessions := by simp [openOnes]
    exact (congrArg (fun l => total l .toplevels) hall).le.trans h.windows
  · have hended : (p.dropClosed now).ended = p.ended := ended_foldl_drop now _ p
    rw [hended]
    exact h.ended

lemma settle_windowed (now n : ℕ) (h : p.Windowed) :
    wp (settle now n) (fun _ p' => p'.Windowed ∧ p'.closed = []) (fun _ p' => ∀ e ∈ p'.ended, e.Grew) p := by
  induction n generalizing p with
  | zero => exact h.ended
  | succ n ih =>
    unfold settle
    simp only [wp_bind, wp_get, wp_set]
    have hdelivered := Ensures.forM (I := Windowed) p.clip.actions (fun a _ => deliver_windowed now a)
      { p with clip := { p.clip with actions := [] } } ⟨h.windows, h.ended⟩
    refine wp_mono hdelivered (fun _ p' h' => ?_) (fun _ _ h' => h'.ended)
    refine wp_ite (fun hclosed => ⟨h', hclosed⟩) (fun _ => ?_)
    exact ih (h'.dropClosed now).1

def Calm (p : Proxy) : Prop := p.Windowed ∧ p.closed = []

/-- The zone's pools are within its bounds, those that wait for their punch included. -/
def PoolsWithin (p : Proxy) : Prop :=
  p.charge .bytes ≤ Policy.maxShmBytesPerZone ∧ p.charge .pools ≤ Policy.maxShmPoolsPerZone

lemma Calm.budgeted (h : p.Calm) (hpools : p.PoolsWithin) : p.Budgeted 0 p.charge := by
  have hwindows := h.1.windows
  have hall : openOnes p.closed p.sessions = p.sessions := by simp [openOnes, h.2]
  rw [hall] at hwindows
  refine ⟨fun r => ?_, fun r => ?_, h.1.ended⟩
  · simp [total, charge, openOnes]
  · cases r with
    | bytes => exact hpools.1
    | pools => exact hpools.2
    | toplevels => exact hwindows

lemma turn_calm (io : TurnIo) (h : p.Calm) (hpools : p.PoolsWithin) :
    wp (turn io) (fun _ => Calm) (fun _ p' => ∀ e ∈ p'.ended, e.Grew) p := by
  unfold turn
  simp only [wp_bind, wp_get, wp_modify]
  rw [range_eq_range']
  have hsteps := stepSessions_budgeted io.sessions p.sessions.length (h.budgeted hpools) (Nat.zero_add _)
  refine wp_mono hsteps (fun _ p1 h1 => ?_) (fun _ _ he => he)
  obtain ⟨zone, h1⟩ := h1
  have hnew : (acceptMove io p1).Windowed := by
    unfold acceptMove
    split
    · exact ⟨h1.windowed.windows, h1.ended⟩
    · exact h1.windowed
  generalize acceptMove io p1 = p2 at hnew
  have hmove : wp (stepMove io) (fun _ => Windowed) (fun _ p' => ∀ e ∈ p'.ended, e.Grew) p2 := by
    unfold wp stepMove
    cases p2.moving with
    | none => exact hnew
    | some m =>
      dsimp only
      cases m.step io.control io.now p2.clip with
      | ok x => exact ⟨hnew.windows, hnew.ended⟩
      | error f => exact hnew.ended
  refine wp_mono hmove (fun _ p3 h3 => ?_) (fun _ _ he => he)
  refine wp_mono (settle_windowed io.now _ h3) (fun _ p4 h4 => ?_) (fun _ _ he => he)
  unfold accept
  split
  · refine ⟨⟨?_, h4.1.ended⟩, h4.2⟩
    have hopened : total (openOnes p4.closed [Session.opened p4.zone p4.holdAwake p4.nextId]) .toplevels = 0 := by
      simp only [openOnes, filter_cons, filter_nil]
      split <;> rfl
    have hwindows := h4.1.windows
    simp only [punchGone, stepWriters, openOnes_append, total_append]
    omega
  · exact ⟨⟨h4.1.windows, h4.1.ended⟩, h4.2⟩

lemma run_calm (turns : List TurnIo) (h : p.Calm)
    (hpools : ∀ before io after p', turns = before ++ io :: after → before.forM turn p = .ok () p' → p'.PoolsWithin) :
    wp (turns.forM turn) (fun _ => Calm) (fun _ p' => ∀ e ∈ p'.ended, e.Grew) p := by
  induction turns generalizing p with
  | nil => exact h
  | cons io turns ih =>
    have hturn := turn_calm io h (hpools [] io turns p rfl rfl)
    refine (wp_bind _ _).mpr (wp_of_cases (fun _ p' hok => ?_) (fun _ p' herr => wp_error hturn herr))
    have hcalm := wp_ok hturn hok
    refine ih hcalm (fun before io' after p'' hsplit hrun => ?_)
    refine hpools (io :: before) io' after p'' (by rw [hsplit]; rfl) ?_
    change (turn io >>= fun _ => before.forM turn) p = _
    simp [bind, EStateM.bind, hok, hrun]

/-- In a run whose every turn starts with the zone's pools within its bounds, no connection
ends on the budget but one whose own growth passed a bound. -/
theorem budget_ends_grown (zone : String) (holdAwake : Bool) (maxClients : ℕ) (turns : List TurnIo)
    (hpools : ∀ before io after p, turns = before ++ io :: after →
      before.forM turn (start zone holdAwake maxClients) = .ok () p → p.PoolsWithin) :
    match turns.forM turn (start zone holdAwake maxClients) with
    | .ok _ p | .error _ p => ∀ e ∈ p.ended, e.why = .budget →
      ∃ r, e.before r < e.after r ∧ zoneBound r < e.zone r + e.after r - e.before r := by
  have hstart : (start zone holdAwake maxClients).Calm :=
    ⟨⟨Nat.zero_le _, fun e he => by cases he⟩, rfl⟩
  have hrun := run_calm turns hstart hpools
  cases hr : turns.forM turn (start zone holdAwake maxClients) with
  | ok _ p =>
    have hcalm := wp_ok hrun hr
    exact hcalm.1.ended
  | error f p =>
    have hended := wp_error hrun hr
    exact hended

def hearsOfShm : SessionIo :=
  { client := hear [(MessageWriter.new 1 1).u32 2] []
    server := hear [(((MessageWriter.new 2 0).u32 1).string "wl_shm").u32 1] [] }

/-- It binds wl_shm and makes `n` pools of 128 MiB. -/
def makesPools (n : ℕ) : SessionIo :=
  { client := hear (((((MessageWriter.new 2 0).u32 1).string "wl_shm").u32 1).u32 3 ::
      (List.range n).map (fun i => ((MessageWriter.new 3 0).u32 (4 + i)).u32 (128 * 2 ^ 20))) (List.range n) }

/-- Two clients connect and hear of wl_shm; the first makes one pool and the second `n`. -/
def twoClients (n : ℕ) : List TurnIo :=
  [{ connects := true, now := 0, later := 0 }, { connects := true, now := 0, later := 0 },
    { sessions := fun _ => hearsOfShm, now := 0, later := 0 },
    { sessions := fun id => makesPools (if id = 1 then 1 else n), now := 0, later := 0 },
    { now := 10, later := 10 }]

def endedIn (turns : List TurnIo) : List Ended :=
  match turns.forM turn (start "work" false 16) with
  | .ok _ p | .error _ p => p.ended

def startsWithin (turns : List TurnIo) : Prop :=
  match turns.forM turn (start "work" false 16) with
  | .ok _ p => p.PoolsWithin
  | .error _ _ => True

instance (turns : List TurnIo) : Decidable (startsWithin turns) := by
  unfold startsWithin PoolsWithin
  split <;> infer_instance

lemma pools_within_of_starts {turns : List TurnIo}
    (hwithin : ∀ n < turns.length, startsWithin (turns.take n)) (before : List TurnIo) (io : TurnIo)
    (after : List TurnIo) (p : Proxy) (hsplit : turns = before ++ io :: after)
    (hrun : before.forM turn (start "work" false 16) = .ok () p) : p.PoolsWithin := by
  have h := hwithin before.length (by rw [hsplit, length_append, length_cons]; omega)
  rw [hsplit, take_left, startsWithin, hrun] at h
  exact h

/-- Eight pools pass the bound, and that turn ends the client that made them. -/
theorem budget_ends_grown_eight : (∃ e ∈ endedIn ((twoClients 8).take 4), e.id = 2 ∧ e.why = .budget) ∧
    match ((twoClients 8).take 4).forM turn (start "work" false 16) with
    | .ok _ p | .error _ p => ∀ e ∈ p.ended, e.why = .budget →
      ∃ r, e.before r < e.after r ∧ zoneBound r < e.zone r + e.after r - e.before r := by
  have hwithin : ∀ n < ((twoClients 8).take 4).length, startsWithin (((twoClients 8).take 4).take n) := by
    decide +kernel
  have hended : ∃ e ∈ endedIn ((twoClients 8).take 4), e.id = 2 ∧ e.why = .budget := by
    decide +kernel
  generalize (twoClients 8).take 4 = turns at hwithin hended ⊢
  exact ⟨hended, budget_ends_grown "work" false 16 turns (pools_within_of_starts hwithin)⟩

/-- In the next turn the other client is ended, which has done nothing since it made its one. -/
theorem neighbour_ends_on_budget : ∃ e ∈ endedIn (twoClients 8),
    e.id = 1 ∧ e.why = .budget ∧ ∀ r ∈ Resource.all, e.after r ≤ e.before r := by
  decide +kernel

end Proxy

end Kryptik.Wlproxy
