import Kryptik.Kryptikd.Battery
import Kryptik.Lib.Numeral

namespace Kryptik.Services.Power

open Lib Lib.Text Kryptikd Kryptikd.Battery List Option

def critical : ℤ := 3
def warnings : List ℤ := [10, 5]

def int64 (n : ℤ) : ℤ := n.bmod (2 ^ 64)

/-- The numbers that `[` can compare; with any other it fails. -/
def testable (n : ℤ) : Bool := -9223372036854775808 ≤ n && n ≤ 9223372036854775807

def testGt (a b : ℤ) : Bool := testable a && testable b && b < a
def testLt (a b : ℤ) : Bool := testable a && testable b && a < b
def testLe (a b : ℤ) : Bool := testable a && testable b && a ≤ b

def stripNewlines (cs : List Char) : List Char := (cs.reverse.dropWhile (· == '\n')).reverse

def capture (file : Option (List Char)) : List Char := stripNewlines (file.getD [])

def number (cs : List Char) : ℤ := ((decimal cs).getD 0 : ℕ)

def supplies (sys : List Supply) : List Supply := sys.filter (fun d => (d .type).isSome)

def onMainsLoop : List Supply → Bool
  | [] => false
  | d :: ds =>
    let type := capture (d .type)
    if type == "Mains".toList || type == "USB".toList then
      if capture (d .online) == "1".toList then true else onMainsLoop ds
    else onMainsLoop ds

def onMains (sys : List Supply) : Bool := onMainsLoop (supplies sys)

def batteriesLoop : List Supply → List Supply
  | [] => []
  | d :: ds =>
    if capture (d .type) != "Battery".toList then batteriesLoop ds
    else if capture (d .scope) == "Device".toList then batteriesLoop ds
    else if capture (some ((d .present).getD "1\n".toList)) == "1".toList then d :: batteriesLoop ds
    else batteriesLoop ds

def batteries (sys : List Supply) : List Supply := batteriesLoop (supplies sys)

/-- `^[0-9]*[1-9][0-9]*$` -/
def isPositive (cs : List Char) : Bool := cs.all isAsciiDigit && cs.any (· != '0')

/-- The two ways a battery without a capacity says what it holds; a division by zero ends the loop. -/
def percentLoop (d : Supply) : List (Attribute × Attribute) → Option ℤ
  | [] => none
  | (now, full) :: rest =>
    let now := capture (d now)
    let full := capture (d full)
    if isDigits now && isPositive full then
      if int64 (number full) = 0 then none
      else
        let c := (int64 (int64 (number now) * 100)).tdiv (int64 (number full))
        some (if testLe c 100 then c else 100)
    else percentLoop d rest

def percent (d : Supply) : Option ℤ :=
  let c := capture (d .capacity)
  if isDigits c then some (number c)
  else percentLoop d [(.energyNow, .energyFull), (.chargeNow, .chargeFull)]

def chargeLoop : List Supply → Option ℤ → Option ℤ
  | [], best => best
  | d :: ds, best =>
    match percent d with
    | none => chargeLoop ds best
    | some c => if best.all (testGt c ·) then chargeLoop ds (some c) else chargeLoop ds best

def charge (sys : List Supply) : Option ℤ := chargeLoop (batteries sys) none

def drainingLoop (mains : Bool) : List Supply → Bool → Bool
  | [], heard => !heard && !mains
  | d :: ds, heard =>
    let status := capture (d .status)
    if status == "Discharging".toList then true
    else drainingLoop mains ds (heard || holdsCharge status)

def draining (sys : List Supply) : Bool := drainingLoop (onMains sys) (batteries sys) false

structure Look where
  battery : Bool
  charger : Bool
  charge : Option ℤ
  low : Bool
  warning : Option ℤ

/-- `look`, where the last state's warning reads `was`. -/
def look (was : List Char) (sys : List Supply) : Look :=
  let charge := charge sys
  let charger := charge.isNone || onMains sys
  match charge with
  | none => { battery := false, charger, charge, low := false, warning := none }
  | some c =>
    if draining sys then
      let warned := if isDigits was then some (number was) else none
      { battery := true, charger, charge, low := testLe c critical, warning := warnings.foldl
          (fun warning w => if testLe c w && warning.all (testLt w ·) then some w else warning) warned }
    else { battery := false, charger, charge, low := false, warning := none }

def lows : ℤ → List Look → List ℤ
  | _, [] => []
  | low, l :: rest =>
    let low := if l.low then int64 (low + 1) else 0
    low :: lows low rest

section
variable {s : Supply} {w t : List Char} {n : ℕ}

lemma capture_eq (h : s.Printed) (a : Attribute) : capture (s a) = (attr s a).getD [] := by
  unfold capture attr
  cases hs : s a with
  | none => rfl
  | some text =>
    obtain ⟨l, hl⟩ := h.line a text hs
    simp only [getD_some, map_some, trim_line hl]
    refine dropEnd_line (by decide) hl.1 ?_
    cases hlast : l.getLast? with
    | none => rfl
    | some c =>
      have hc : c ≠ '\n' := fun heq => hl.2.1 (heq ▸ mem_of_getLast? hlast)
      simpa using hc

lemma capture_beq (h : s.Printed) (a : Attribute) (hw : w ≠ []) : (capture (s a) == w) = (attr s a == some w) := by
  rw [capture_eq h]
  cases attr s a with
  | none =>
    rw [getD_none, beq_eq_false_iff_ne.mpr (Ne.symm hw)]
    rfl
  | some t => simp

lemma decimal_of_digits (h : isDigits t = true) : ∃ n, decimal t = some n ∧ number t = n := by
  have hd : decimal t = some (t.foldl (fun n c => 10 * n + (c.toNat - 48)) 0) := by
    rw [decimal]
    simpa [isDigits] using h
  exact ⟨_, hd, by rw [number, hd]; rfl⟩

lemma isDigits_of_decimal (h : decimal t = some n) : isDigits t = true := by
  unfold decimal at h
  split_ifs at h with hd
  simpa [isDigits] using hd

lemma digits_foldl (t : List Char) :
    t.foldl (fun n c => 10 * n + (c.toNat - 48)) 0 = numeral 10 (fun c => c.toNat - 48) t := by
  congr 1
  funext n c
  rw [Nat.mul_comm]

lemma zero_of_digit {c : Char} (hc : isAsciiDigit c = true) : c.toNat - 48 = 0 ↔ c = '0' := by
  have hlow : 48 ≤ c.toNat := (Bool.and_eq_true_iff.mp hc).1 |> of_decide_eq_true
  constructor
  · intro h
    apply Char.toNat_inj.mp
    change c.toNat = 48
    omega
  · intro h
    subst h
    rfl

lemma isPositive_iff : isPositive t = true ↔ ∃ n, decimal t = some n ∧ 0 < n := by
  constructor
  · intro h
    obtain ⟨hall, hany⟩ := Bool.and_eq_true_iff.mp h
    obtain ⟨c, hc, hne⟩ := any_eq_true.mp hany
    have hdigits : isDigits t = true := by
      simp [isDigits, hall, ne_nil_of_mem hc]
    obtain ⟨n, hn, -⟩ := decimal_of_digits hdigits
    refine ⟨n, hn, Nat.pos_of_ne_zero ?_⟩
    rintro rfl
    unfold decimal at hn
    split_ifs at hn
    rw [digits_foldl, some_inj, numeral_eq_zero (by omega)] at hn
    have hzero := (zero_of_digit (all_eq_true.mp hall c hc)).mp (hn c hc)
    simp [hzero] at hne
  · rintro ⟨n, hn, hpos⟩
    have hdigits := isDigits_of_decimal hn
    obtain ⟨-, hall⟩ := Bool.and_eq_true_iff.mp hdigits
    unfold decimal at hn
    split_ifs at hn
    rw [digits_foldl, some_inj] at hn
    have hne : ¬ ∀ c ∈ t, c.toNat - 48 = 0 := by
      rw [← numeral_eq_zero (b := 10) (by omega)]
      omega
    push Not at hne
    obtain ⟨c, hc, hne⟩ := hne
    have hzero : c ≠ '0' := fun h => hne ((zero_of_digit (all_eq_true.mp hall c hc)).mpr h)
    rw [isPositive, hall, Bool.true_and, List.any_eq_true]
    exact ⟨c, hc, by simpa using hzero⟩

lemma parsed_of_digits (h : s.Printed) {a : Attribute} (ha : a ∈ numbers)
    (hdigits : isDigits (capture (s a)) = true) :
    ∃ n : ℕ, (attr s a).bind (parseUnsigned Battery.u64Max) = some n ∧ number (capture (s a)) = n ∧
      decimal (capture (s a)) = some n ∧ n < 9 * 10 ^ 16 := by
  rw [capture_eq h] at hdigits ⊢
  cases hs : attr s a with
  | none => simp [hs, isDigits] at hdigits
  | some t =>
    rw [hs, getD_some] at hdigits
    obtain ⟨hplus, hbound⟩ := h.number a ha t hs
    obtain ⟨n, hn, hnumber⟩ := decimal_of_digits hdigits
    have hlt := hbound n hn
    have hmax : n ≤ Battery.u64Max := (hlt.trans (by decide)).le
    refine ⟨n, ?_, hnumber, hn, hlt⟩
    rw [bind_some, parseUnsigned_eq hplus, hn]
    simp [hmax]

lemma decimal_of_parsed (h : s.Printed) {a : Attribute} (ha : a ∈ numbers)
    (hparsed : (attr s a).bind (parseUnsigned Battery.u64Max) = some n) : decimal (capture (s a)) = some n := by
  obtain ⟨t, ht, hn⟩ := bind_eq_some_iff.mp hparsed
  rw [parseUnsigned_eq (h.number a ha t ht).1, filter_eq_some_iff] at hn
  rw [capture_eq h, ht]
  exact hn.1

lemma int64_of_lt (h : n < 2 ^ 63) : int64 n = n := by
  unfold int64
  rw [Int.bmod_eq_of_le] <;> omega

lemma testable_of_lt (h : n < 2 ^ 63) : testable n = true := by
  rw [testable, Bool.and_eq_true, decide_eq_true_eq, decide_eq_true_eq]
  omega

lemma testLe_of_lt {m : ℕ} (hn : n < 2 ^ 63) (hm : m < 2 ^ 63) : testLe n m = decide (n ≤ m) := by
  simp [testLe, testable_of_lt hn, testable_of_lt hm]

lemma testGt_of_lt {m : ℕ} (hn : n < 2 ^ 63) (hm : m < 2 ^ 63) : testGt n m = decide (m < n) := by
  simp [testGt, testable_of_lt hn, testable_of_lt hm]

lemma share_bounds {now full : Attribute} (hshare : share s now full = some n) : n ≤ 100 := by
  simp only [share, bind, pure, bind_eq_some_iff, some_inj] at hshare
  obtain ⟨-, -, -, -, rfl⟩ := hshare
  exact Nat.min_le_right _ _

lemma percentLoop_cons (h : s.Printed) {now full : Attribute} (hnow : now ∈ numbers)
    (hfull : full ∈ numbers) (rest : List (Attribute × Attribute)) :
    percentLoop s ((now, full) :: rest) = ((share s now full).map Int.ofNat).or (percentLoop s rest) := by
  by_cases hguard : isDigits (capture (s now)) = true ∧ isPositive (capture (s full)) = true
  · obtain ⟨n, hn, hnumber, -, hbound⟩ := parsed_of_digits h hnow hguard.1
    obtain ⟨k, hk, hpos⟩ := isPositive_iff.mp hguard.2
    obtain ⟨m, hm, hmumber, hdecimal, hmound⟩ := parsed_of_digits h hfull (isDigits_of_decimal hk)
    obtain rfl : m = k := some_inj.mp (hdecimal.symm.trans hk)
    have hshare : share s now full = some (min (n * 100 / m) 100) := by
      have hsat : min (n * 100) Battery.u64Max = n * 100 := Nat.min_eq_left (by unfold Battery.u64Max; omega)
      have hfilter : (some m).filter (0 < ·) = some m := by simp [hpos]
      simp [share, hn, hm, hfilter, hsat]
    have hquot : n * 100 / m < 2 ^ 63 := (Nat.div_le_self _ _).trans_lt (by omega)
    have hc : (int64 (int64 (number (capture (s now))) * 100)).tdiv (int64 (number (capture (s full)))) =
        ((n * 100 / m : ℕ) : ℤ) := by
      rw [hnumber, hmumber, int64_of_lt (by omega), int64_of_lt (by omega)]
      have hmul : (n : ℤ) * 100 = ((n * 100 : ℕ) : ℤ) := by push_cast; rfl
      rw [hmul, int64_of_lt (by omega)]
      rfl
    have hne : int64 (number (capture (s full))) ≠ 0 := by
      rw [hmumber, int64_of_lt (by omega)]
      omega
    have hle := testLe_of_lt (m := 100) hquot (by omega)
    simp only [percentLoop, hguard.1, hguard.2, Bool.and_self, if_true, if_neg hne, hc, hshare]
    rw [Nat.cast_ofNat] at hle
    rw [hle]
    by_cases h100 : n * 100 / m ≤ 100
    · simp [h100]
    · simp [h100, Nat.min_eq_right (Nat.le_of_not_le h100)]
  · have hnone : share s now full = none := by
      rw [← not_isSome_iff_eq_none, isSome_iff_exists]
      rintro ⟨c, hc⟩
      obtain ⟨n, hn, hc⟩ := bind_eq_some_iff.mp hc
      obtain ⟨m, hm, -⟩ := bind_eq_some_iff.mp hc
      obtain ⟨hm, hpos⟩ := filter_eq_some_iff.mp hm
      exact hguard ⟨isDigits_of_decimal (decimal_of_parsed h hnow hn),
        isPositive_iff.mpr ⟨m, decimal_of_parsed h hfull hm, of_decide_eq_true hpos⟩⟩
    simp only [percentLoop, hnone]
    rw [if_neg (by simpa using hguard)]
    rfl

lemma percent_eq (h : s.Printed) :
    percent s = (Battery.percent s).map Int.ofNat ∧ ∀ n, Battery.percent s = some n → n < 2 ^ 63 := by
  by_cases hdigits : isDigits (capture (s .capacity)) = true
  · obtain ⟨n, hparsed, hnumber, -, hbound⟩ := parsed_of_digits h (by decide) hdigits
    have hpercent : Battery.percent s = some n := by
      obtain ⟨t, ht, hn⟩ := bind_eq_some_iff.mp hparsed
      rw [capture_eq h, ht, getD_some] at hdigits
      rw [Battery.percent, ht, filter_some, if_pos hdigits]
      exact hn
    refine ⟨?_, ?_⟩
    · simp only [percent, hdigits, if_true, hnumber, hpercent]
      rfl
    · intro m hm
      cases hpercent.symm.trans hm
      omega
  · have hnone : (attr s .capacity).filter isDigits = none := by
      rw [capture_eq h] at hdigits
      cases ht : attr s .capacity with
      | none => rfl
      | some t =>
        rw [ht, getD_some] at hdigits
        rw [filter_some, if_neg hdigits]
    have hpercent : Battery.percent s = (share s .energyNow .energyFull).or (share s .chargeNow .chargeFull) := by
      rw [Battery.percent, hnone]
    refine ⟨?_, ?_⟩
    · simp only [percent, hdigits, if_false, Bool.false_eq_true]
      rw [percentLoop_cons h (by decide) (by decide), percentLoop_cons h (by decide) (by decide), hpercent, percentLoop]
      cases share s .energyNow .energyFull <;> simp
    · intro n hn
      rw [hpercent, or_eq_some_iff] at hn
      obtain hn | ⟨-, hn⟩ := hn
      · have := share_bounds hn
        omega
      · have := share_bounds hn
        omega

end

def printsBattery (d : Supply) : Bool :=
  capture (d .type) == "Battery".toList && capture (d .scope) != "Device".toList &&
    capture (some ((d .present).getD "1\n".toList)) == "1".toList

def powers (d : Supply) : Bool :=
  (capture (d .type) == "Mains".toList || capture (d .type) == "USB".toList) &&
    capture (d .online) == "1".toList

lemma batteriesLoop_eq (ds : List Supply) : batteriesLoop ds = ds.filter printsBattery := by
  induction ds with
  | nil => rfl
  | cons d ds ih =>
    simp only [batteriesLoop, ih, filter_cons, printsBattery, bne]
    split_ifs <;> simp_all

lemma onMainsLoop_eq (ds : List Supply) : onMainsLoop ds = ds.any powers := by
  induction ds with
  | nil => rfl
  | cons d ds ih =>
    simp only [onMainsLoop, ih, any_cons, powers]
    cases capture (d .type) == "Mains".toList || capture (d .type) == "USB".toList <;>
      cases capture (d .online) == "1".toList <;> simp

section
variable {s : Supply} {l : List Supply}

def ownBattery (s : Supply) : Bool := (attr s .type).any (isOwnBattery s)

def mainsOnline (s : Supply) : Bool := (attr s .type).any (isMains s)

lemma present_eq (h : s.Printed) : (capture (some ((s .present).getD "1\n".toList)) == "1".toList) =
      (attr s .present).all (· == "1".toList) := by
  cases hs : s .present with
  | none =>
    rw [attr, hs]
    decide
  | some text =>
    have hbeq := capture_beq h .present (w := "1".toList) (by decide)
    rw [hs] at hbeq
    rw [getD_some, hbeq, attr, hs]
    simp

lemma printsBattery_eq (h : s.Printed) : printsBattery s = ownBattery s := by
  rw [printsBattery, capture_beq h .type (by decide), present_eq h, bne, capture_beq h .scope (by decide), ownBattery]
  cases attr s .type with
  | none => rfl
  | some t => simp [isOwnBattery, bne]

lemma powers_eq (h : s.Printed) : powers s = mainsOnline s := by
  rw [powers, capture_beq h .type (by decide), capture_beq h .type (by decide),
    capture_beq h .online (by decide), mainsOnline]
  cases attr s .type with
  | none => rfl
  | some t => simp [isMains]

lemma batteries_eq (h : ∀ s ∈ l, s.Printed) : batteries l = l.filter ownBattery := by
  rw [batteries, batteriesLoop_eq, supplies, List.filter_filter]
  apply List.filter_congr
  intro s hs
  rw [printsBattery_eq (h s hs), ownBattery, attr]
  cases s .type <;> simp

lemma onMains_eq (h : ∀ s ∈ l, s.Printed) : onMains l = l.any mainsOnline := by
  rw [onMains, onMainsLoop_eq, supplies, List.any_filter, Bool.eq_iff_iff, List.any_eq_true, List.any_eq_true]
  have hsame : ∀ s ∈ l, ((s .type).isSome && powers s) = mainsOnline s := by
    intro s hs
    rw [powers_eq (h s hs), mainsOnline, attr]
    cases s .type <;> simp
  constructor
  · rintro ⟨s, hs, hp⟩
    exact ⟨s, hs, hsame s hs ▸ hp⟩
  · rintro ⟨s, hs, hp⟩
    exact ⟨s, hs, (hsame s hs).symm ▸ hp⟩

lemma chargeLoop_eq (h : ∀ s ∈ l, s.Printed) (best : Option ℕ) (hbest : ∀ b, best = some b → b < 2 ^ 63) :
    chargeLoop l (best.map Int.ofNat) = (best.toList ++ l.filterMap Battery.percent).max?.map Int.ofNat := by
  induction l generalizing best with
  | nil => cases best <;> rfl
  | cons s l ih =>
    obtain ⟨hpercent, hbound⟩ := percent_eq (h s mem_cons_self)
    have ih := ih fun d hd => h d (mem_cons_of_mem s hd)
    rw [chargeLoop, hpercent, filterMap_cons]
    cases hc : Battery.percent s with
    | none => exact ih best hbest
    | some c =>
      have hlt := hbound c hc
      have hread : ∀ b, some c = some b → b < 2 ^ 63 := by
        intro b hb
        rw [some_inj] at hb
        rwa [← hb]
      have hstep := ih (some c) hread
      cases best with
      | none => exact hstep
      | some b =>
        have hgt : testGt (Int.ofNat c) (Int.ofNat b) = decide (b < c) := by
          exact testGt_of_lt hlt (hbest b rfl)
        have hmax : (some b).toList ++ c :: l.filterMap Battery.percent = b :: c :: l.filterMap Battery.percent := rfl
        simp only [map_some, all_some, hgt]
        rw [hmax, max?_cons', foldl_cons]
        by_cases hlarger : b < c
        · rw [if_pos (decide_eq_true hlarger), Nat.max_eq_right hlarger.le]
          exact hstep
        · rw [if_neg (by simpa using hlarger), Nat.max_eq_left (Nat.le_of_not_lt hlarger)]
          exact ih (some b) hbest

lemma drainingLoop_eq (h : ∀ s ∈ l, s.Printed) (mains heard : Bool) : drainingLoop mains l heard =
      ((l.filterMap (attr · .status)).any (· == "Discharging".toList) ||
        (!(heard || (l.filterMap (attr · .status)).any holdsCharge) && !mains)) := by
  induction l generalizing heard with
  | nil => simp [drainingLoop]
  | cons s l ih =>
    have ih := ih fun d hd => h d (mem_cons_of_mem s hd)
    rw [drainingLoop, capture_beq (h s mem_cons_self) .status (by decide),
      capture_eq (h s mem_cons_self), filterMap_cons, ih]
    cases attr s .status with
    | none =>
      have hempty : holdsCharge [] = false := by decide
      simp [hempty]
    | some t =>
      cases ht : t == "Discharging".toList with
      | true => simp_all
      | false => simp only [some_beq_some, ht, getD_some, any_cons, Bool.or_assoc,
          Bool.false_eq_true, if_false, Bool.false_or]

def typed (rd : List Supply) : List (Supply × List Char) :=
  rd.filterMap (fun s => (attr s .type).map (fun t => (s, t)))

lemma typed_batteries (rd : List Supply) :
    ((typed rd).filter (fun (s, t) => isOwnBattery s t)).map Prod.fst = rd.filter ownBattery := by
  induction rd with
  | nil => rfl
  | cons s rd ih =>
    unfold typed at ih ⊢
    rw [filterMap_cons, filter_cons, ← ih, ownBattery]
    cases attr s .type with
    | none => simp
    | some t => cases ht : isOwnBattery s t <;> simp [ht]

lemma typed_mains (rd : List Supply) : (typed rd).any (fun (s, t) => isMains s t) = rd.any mainsOnline := by
  induction rd with
  | nil => rfl
  | cons s rd ih =>
    unfold typed at ih ⊢
    rw [filterMap_cons, any_cons, ← ih, mainsOnline]
    cases attr s .type <;> simp

lemma max_perm {m m' : List ℕ} (h : m.Perm m') : m.max? = m'.max? := by
  ext n
  simp [max?_eq_some_iff, h.mem_iff]

/-- The daemon's verdict on the supplies as the directory lists them is the service's on the same ones
in the order of the glob. -/
lemma low_eq {rd : List Supply} (hperm : rd.Perm l) (h : ∀ s ∈ l, s.Printed) (was : List Char) :
    (look was l).low = criticalIn (some rd) := by
  have hbats : (rd.filter ownBattery).Perm (l.filter ownBattery) := hperm.filter _
  have hsaid := hbats.filterMap (attr · .status)
  have hcharge : charge l = ((rd.filter ownBattery).filterMap Battery.percent).max?.map Int.ofNat := by
    rw [charge, batteries_eq h, max_perm (hbats.filterMap Battery.percent)]
    exact chargeLoop_eq (fun s hs => h s (mem_of_mem_filter hs)) none (by simp)
  have hdraining : draining l = (((rd.filter ownBattery).filterMap (attr · .status)).any (· == "Discharging".toList) ||
        (!((rd.filter ownBattery).filterMap (attr · .status)).any holdsCharge && !rd.any mainsOnline)) := by
    rw [draining, batteries_eq h, onMains_eq h, drainingLoop_eq (fun s hs => h s (mem_of_mem_filter hs)),
      hsaid.any_eq, hsaid.any_eq, hperm.any_eq, Bool.false_or]
  have hbounds : ∀ c, ((rd.filter ownBattery).filterMap Battery.percent).max? = some c → c < 2 ^ 63 := by
    intro c hc
    obtain ⟨hmem, -⟩ := max?_eq_some_iff.mp hc
    obtain ⟨s, hs, hpercent⟩ := mem_filterMap.mp hmem
    exact (percent_eq (h s (hperm.subset (mem_of_mem_filter hs)))).2 c hpercent
  simp only [look, criticalIn, hcharge]
  have htyped : rd.filterMap (fun s => (attr s .type).map fun t => (s, t)) = typed rd := rfl
  rw [htyped, typed_batteries, typed_mains, ← hdraining]
  cases hmax : ((rd.filter ownBattery).filterMap Battery.percent).max? with
  | none => rfl
  | some c =>
    have hle := testLe_of_lt (m := 3) (hbounds c hmax) (by omega)
    cases draining l with
    | true => exact hle
    | false => rfl

end

/-- One sysfs, as the daemon lists it (`none` where it cannot) and as the shell's glob does. -/
structure Sysfs where
  listed : Option (List Supply)
  globbed : List Supply
  same : (listed.getD []).Perm globbed
  printed : ∀ s ∈ globbed, s.Printed

lemma Sysfs.low_eq (fs : Sysfs) (was : List Char) : (look was fs.globbed).low = criticalIn fs.listed := by
  have hsame := fs.same
  cases hlisted : fs.listed with
  | none =>
    rw [hlisted, getD_none, nil_perm] at hsame
    rw [hsame]
    rfl
  | some rd =>
    rw [hlisted] at hsame
    exact Power.low_eq hsame fs.printed was

def NoRun (n : ℕ) (cs : List Bool) : Prop := ¬ List.replicate n true <:+: cs

lemma sealedLooks_eq (looks : List Look) (low : ℕ)
    (h : NoRun (Battery.u32Max + 1) (replicate low true ++ looks.map Look.low)) :
    sealedLooks low (looks.map Look.low) = some ((lows low looks).map (fun n => decide (2 ≤ n))) := by
  induction looks generalizing low with
  | nil => rfl
  | cons l looks ih =>
    cases hl : l.low with
    | false =>
      have hrest : NoRun (Battery.u32Max + 1) (replicate 0 true ++ looks.map Look.low) := by
        intro hrun
        apply h
        refine hrun.trans ?_
        rw [map_cons, hl]
        exact ⟨replicate low true ++ [false], [], by simp⟩
      have hnext := ih 0 hrest
      simp [sealedLooks, sealedLook, lows, hl, hnext]
    | true =>
      have hshift : replicate low true ++ (l :: looks).map Look.low =
          replicate (low + 1) true ++ looks.map Look.low := by
        rw [map_cons, hl, replicate_succ', append_assoc, singleton_append]
      have hlow : low < Battery.u32Max := by
        by_contra hge
        apply h
        rw [hshift]
        obtain ⟨k, hk⟩ := Nat.exists_eq_add_of_le (show Battery.u32Max + 1 ≤ low + 1 by omega)
        rw [hk, replicate_add (n := k), append_assoc]
        exact (prefix_append _ _).isInfix
      have hnext := ih (low + 1) (hshift ▸ h)
      have hsum : int64 ((low : ℤ) + 1) = ((low + 1 : ℕ) : ℤ) := by
        rw [← Nat.cast_succ]
        exact int64_of_lt (by unfold Battery.u32Max at hlow; omega)
      have hoff : decide (2 ≤ low + 1) = decide ((2 : ℤ) ≤ ((low + 1 : ℕ) : ℤ)) := by
        rw [decide_eq_decide]
        omega
      simp only [map_cons, hl, sealedLooks, sealedLook, lows, if_true, if_pos hlow]
      rw [hsum, hoff]
      simp only [bind, bind_some, hnext]
      rfl

/-- `critical_in` and `look` judge every sysfs alike; along every sequence of looks with fewer than 2^32
critical ones in a row, the daemon powers off at exactly the looks at which the service's count is at
least two. -/
theorem battery_rules_agree :
    (∀ (fs : Sysfs) (was : List Char), criticalIn fs.listed = true ↔ (look was fs.globbed).low = true) ∧
      ∀ looks : List (Sysfs × List Char), NoRun (2 ^ 32) (looks.map (fun v => criticalIn v.1.listed)) →
        sealedLooks 0 (looks.map (fun v => criticalIn v.1.listed)) =
          some ((lows 0 (looks.map (fun v => look v.2 v.1.globbed))).map (fun n => decide (2 ≤ n))) := by
  refine ⟨fun fs was => by rw [fs.low_eq], ?_⟩
  intro looks h
  have hsame : looks.map (fun v => criticalIn v.1.listed) = (looks.map (fun v => look v.2 v.1.globbed)).map Look.low := by
    simp [Sysfs.low_eq]
  rw [hsame] at h ⊢
  exact sealedLooks_eq _ 0 h

def nearlyEmpty : Supply
  | .type => some "Battery\n".toList
  | .capacity => some "2\n".toList
  | .status => some "Discharging\n".toList
  | _ => none

lemma printed_nearlyEmpty : nearlyEmpty.Printed where
  line := by
    intro a text h
    cases a <;> simp only [nearlyEmpty, some_inj, reduceCtorEq] at h
    · exact ⟨"Battery".toList, .inr h.symm, by decide, by decide, by decide⟩
    · exact ⟨"2".toList, .inr h.symm, by decide, by decide, by decide⟩
    · exact ⟨"Discharging".toList, .inr h.symm, by decide, by decide, by decide⟩
  number := by
    intro a ha t h
    have hcapacity : attr nearlyEmpty .capacity = some "2".toList := by decide
    have hothers : ∀ a ∈ numbers, a ≠ .capacity → attr nearlyEmpty a = none := by decide
    obtain rfl : a = .capacity := by
      by_contra hne
      rw [hothers a ha hne] at h
      cases h
    obtain rfl : "2".toList = t := some_inj.mp (hcapacity.symm.trans h)
    refine ⟨by decide, ?_⟩
    intro n hn
    obtain rfl : 2 = n := some_inj.mp hn
    decide

def nearlyEmptySysfs : Sysfs where
  listed := some [nearlyEmpty]
  globbed := [nearlyEmpty]
  same := List.Perm.refl _
  printed := by
    intro s hs
    rw [List.mem_singleton.mp hs]
    exact printed_nearlyEmpty

lemma critical_nearlyEmpty : criticalIn nearlyEmptySysfs.listed = true := by decide

theorem battery_rules_agree_twice : NoRun (2 ^ 32) (replicate 2 (criticalIn nearlyEmptySysfs.listed)) ∧
      sealedLooks 0 (replicate 2 (criticalIn nearlyEmptySysfs.listed)) =
        some ((lows 0 (replicate 2 (look [] nearlyEmptySysfs.globbed))).map (fun n => decide (2 ≤ n))) := by
  have hrun : NoRun (2 ^ 32) (replicate 2 (criticalIn nearlyEmptySysfs.listed)) := by
    intro h
    have hlen := h.length_le
    rw [length_replicate, length_replicate] at hlen
    omega
  exact ⟨hrun, battery_rules_agree.2 (replicate 2 (nearlyEmptySysfs, [])) hrun⟩

lemma sealedLooks_overflow (n low : ℕ) (h : Battery.u32Max < low + n) :
    low ≤ Battery.u32Max → sealedLooks low (replicate n true) = none := by
  induction n generalizing low with
  | zero => omega
  | succ n ih =>
    intro hlow
    rw [replicate_succ, sealedLooks, sealedLook, if_pos rfl]
    by_cases hlast : low < Battery.u32Max
    · rw [if_pos hlast]
      simp only [bind, bind_some, ih (low + 1) (by omega) (by omega)]
      rfl
    · rw [if_neg hlast]
      rfl

lemma lows_replicate {l : Look} (hl : l.low = true) (n low : ℕ) (h : low + n < 2 ^ 63) :
    (lows low (replicate n l)).getLast?.getD low = ((low + n : ℕ) : ℤ) := by
  induction n generalizing low with
  | zero => rfl
  | succ n ih =>
    have hsum : int64 ((low : ℤ) + 1) = ((low + 1 : ℕ) : ℤ) := by
      rw [← Nat.cast_succ]
      exact int64_of_lt (by omega)
    have hnext := ih (low + 1) (by omega)
    rw [replicate_succ, lows]
    simp only [hl, if_true, hsum, getLast?_cons, getD_some]
    rw [hnext, Nat.add_right_comm, Nat.add_assoc]

/-- After 2^32 critical looks in a row the service's count is 2^32, and the daemon's has overflowed. -/
theorem sealed_count_overflows : criticalIn nearlyEmptySysfs.listed = true ∧
      sealedLooks 0 (replicate (2 ^ 32) (criticalIn nearlyEmptySysfs.listed)) = none ∧
      (lows 0 (replicate (2 ^ 32) (look [] nearlyEmptySysfs.globbed))).getLast?.getD 0 = 2 ^ 32 := by
  have hlow : (look [] nearlyEmptySysfs.globbed).low = true := by
    rw [Sysfs.low_eq]
    exact critical_nearlyEmpty
  refine ⟨critical_nearlyEmpty, ?_, ?_⟩
  · rw [critical_nearlyEmpty]
    exact sealedLooks_overflow (2 ^ 32) 0 (by decide) (Nat.zero_le _)
  · have hcount := lows_replicate hlow (2 ^ 32) 0 (by decide)
    exact hcount

end Kryptik.Services.Power
