import Mathlib

namespace Kryptik.Calendar

def daysFromCivil (y m d : ℤ) : ℤ :=
  let y := if m ≤ 2 then y - 1 else y
  let era := (if 0 ≤ y then y else y - 399).tdiv 400
  let yoe := y - era * 400
  let doy := (153 * (if 2 < m then m - 3 else m + 9) + 2).tdiv 5 + d - 1
  let doe := yoe * 365 + yoe.tdiv 4 - yoe.tdiv 100 + doy
  era * 146097 + doe - 719468

/-- The date of a day of an era of 400 years, the part `civil_from_days` and the stick's `civil` share. -/
def dateOfEra (era doe : ℤ) : ℤ × ℤ × ℤ :=
  let yoe := (doe - doe.tdiv 1460 + doe.tdiv 36524 - doe.tdiv 146096).tdiv 365
  let doy := doe - (365 * yoe + yoe.tdiv 4 - yoe.tdiv 100)
  let mp := (5 * doy + 2).tdiv 153
  let d := doy - (153 * mp + 2).tdiv 5 + 1
  let m := if mp < 10 then mp + 3 else mp - 9
  (yoe + era * 400 + (if m ≤ 2 then 1 else 0), m, d)

def civilFromDays (z : ℤ) : ℤ × ℤ × ℤ :=
  let z := z + 719468
  let era := (if 0 ≤ z then z else z - 146096).tdiv 146097
  dateOfEra era (z - era * 146097)

def stamp (year month day rem : ℤ) : ℤ × ℤ × ℤ × ℤ × ℤ × ℤ :=
  (year % 65536, month % 65536, day % 65536, rem / 3600 % 65536, rem / 60 % 60 % 65536, rem % 60 % 65536)

/-- Seconds since 1970 as the stick dates a file, the year held to what FAT can say. -/
def civil (secs : UInt64) : ℤ × ℤ × ℤ × ℤ × ℤ × ℤ :=
  let z : ℤ := secs.toNat / 86400 + 719468
  let date := dateOfEra (z / 146097) (z % 146097)
  let rem : ℤ := secs.toNat % 86400
  if date.1 < 1980 then stamp 1980 1 1 0
  else if 2107 < date.1 then stamp 2107 12 31 86399
  else stamp date.1 date.2.1 date.2.2 rem

def IsLeap (y : ℤ) : Prop := y % 4 = 0 ∧ (y % 100 ≠ 0 ∨ y % 400 = 0)

instance (y : ℤ) : Decidable (IsLeap y) := inferInstanceAs (Decidable (_ ∧ _))

def monthLength (y m : ℤ) : ℤ :=
  if m = 2 then if IsLeap y then 29 else 28 else if m = 4 ∨ m = 6 ∨ m = 9 ∨ m = 11 then 30 else 31

def Valid : ℤ × ℤ × ℤ → Prop
  | (y, m, d) => 1 ≤ m ∧ m ≤ 12 ∧ 1 ≤ d ∧ d ≤ monthLength y m

def next : ℤ × ℤ × ℤ → ℤ × ℤ × ℤ
  | (y, m, d) => if d < monthLength y m then (y, m, d + 1) else if m < 12 then (y, m + 1, 1) else (y + 1, 1, 1)

/-- Moved down first, a negative number's quotient is rounded down too. -/
lemma tdiv_moved (a : ℤ) {n : ℤ} (hn : 0 < n) : (if 0 ≤ a then a else a - (n - 1)).tdiv n = a / n := by
  split_ifs with ha
  · exact Int.tdiv_eq_ediv_of_nonneg ha
  · rw [show a - (n - 1) = -(n - 1 - a) by omega, Int.neg_tdiv, Int.tdiv_eq_ediv_of_nonneg (by omega)]
    have hq := Int.emod_add_mul_ediv (n - 1 - a) n
    have hr0 := Int.emod_nonneg (n - 1 - a) (b := n) (by omega)
    have hr := Int.emod_lt_of_pos (n - 1 - a) hn
    refine ((Int.ediv_emod_unique hn (r := a + n * ((n - 1 - a) / n))).mpr ⟨?_, ?_, ?_⟩).1.symm
    · rw [Int.mul_neg]
      omega
    · omega
    · omega

/-- Where a day lies in its era: the year counted from March, and the day of that year. -/
def InYear (yoe doy : ℤ) : Prop :=
  0 ≤ yoe ∧ yoe < 400 ∧ 0 ≤ doy ∧ (doy < 365 ∨ doy = 365 ∧ yoe % 4 = 3 ∧ (yoe % 100 ≠ 99 ∨ yoe = 399))

lemma inYear_of_doe {doe yoe doy : ℤ} (h0 : 0 ≤ doe) (h : doe < 146097)
    (hyoe : yoe = (doe - doe / 1460 + doe / 36524 - doe / 146096) / 365)
    (hdoy : doy = doe - (365 * yoe + yoe / 4 - yoe / 100)) : InYear yoe doy := by
  have hcentury : yoe / 100 = 0 ∨ yoe / 100 = 1 ∨ yoe / 100 = 2 ∨ yoe / 100 = 3 := by omega
  have hc : doe / 36524 - doe / 146096 = yoe / 100 := by
    obtain h | h | h | h := hcentury <;> omega
  unfold InYear
  omega

lemma yoe_of_inYear {yoe doy doe : ℤ} (h : InYear yoe doy) (hdoe : doe = yoe * 365 + yoe / 4 - yoe / 100 + doy) :
    (doe - doe / 1460 + doe / 36524 - doe / 146096) / 365 = yoe := by
  obtain ⟨h0, hlt, hdoy0, hdoy⟩ := h
  have hlo : 36524 * (yoe / 100) ≤ doe := by omega
  have hhi : doe < 36524 * (yoe / 100) + 36524 ∨ doe = 146096 := by omega
  have hc : doe / 36524 - doe / 146096 = yoe / 100 := by omega
  omega

def daysOf (date : ℤ × ℤ × ℤ) : ℤ := daysFromCivil date.1 date.2.1 date.2.2

def ofYear (era yoe doy : ℤ) : ℤ × ℤ × ℤ :=
  let mp := (5 * doy + 2) / 153
  let m := if mp < 10 then mp + 3 else mp - 9
  (yoe + era * 400 + (if m ≤ 2 then 1 else 0), m, doy - (153 * mp + 2) / 5 + 1)

lemma dateOfEra_eq {era yoe doy : ℤ} (h : InYear yoe doy) :
    dateOfEra era (yoe * 365 + yoe / 4 - yoe / 100 + doy) = ofYear era yoe doy := by
  have hyoe := yoe_of_inYear h rfl
  obtain ⟨h0, hlt, hdoy0, hdoy⟩ := h
  generalize hdoe : yoe * 365 + yoe / 4 - yoe / 100 + doy = doe at *
  have hdiv {a : ℤ} (n : ℤ) (ha : 0 ≤ a) : a.tdiv n = a / n := Int.tdiv_eq_ediv_of_nonneg ha
  have hdoy' : doe - (365 * yoe + yoe / 4 - yoe / 100) = doy := by omega
  rw [dateOfEra, hdiv 1460 (by omega), hdiv 36524 (by omega), hdiv 146096 (by omega), hdiv 365 (by omega), hyoe,
    hdiv 4 h0, hdiv 100 h0, hdoy', hdiv 153 (by omega), hdiv 5 (by omega)]
  rfl

lemma daysOf_eq {y m d : ℤ} {date : ℤ × ℤ × ℤ} (h : Valid date) (hdate : date = (y, m, d)) : daysOf date =
      let y := if m ≤ 2 then y - 1 else y
      365 * y + y / 4 - y / 100 + y / 400 + (153 * (if 2 < m then m - 3 else m + 9) + 2) / 5 + d - 719469 := by
  subst hdate
  have hm := h.1
  have hera := tdiv_moved (if m ≤ 2 then y - 1 else y) (n := 400) (by decide)
  simp only [daysOf, daysFromCivil]
  generalize (if m ≤ 2 then y - 1 else y) = y at *
  change (if 0 ≤ y then y else y - 399).tdiv 400 = _ at hera
  rw [hera, Int.tdiv_eq_ediv_of_nonneg (a := 153 * _ + 2) (by split_ifs <;> omega),
    Int.tdiv_eq_ediv_of_nonneg (b := 4) (by omega), Int.tdiv_eq_ediv_of_nonneg (b := 100) (by omega)]
  omega

lemma valid_ofYear {yoe doy : ℤ} (h : InYear yoe doy) (era : ℤ) : Valid (ofYear era yoe doy) := by
  obtain ⟨h0, hlt, hdoy0, hdoy⟩ := h
  simp only [ofYear, Valid, monthLength, IsLeap]
  split_ifs <;> omega

lemma daysOf_ofYear {yoe doy : ℤ} (h : InYear yoe doy) (era : ℤ) :
    daysOf (ofYear era yoe doy) = era * 146097 + (yoe * 365 + yoe / 4 - yoe / 100 + doy) - 719468 := by
  rw [daysOf_eq (valid_ofYear h era) rfl]
  obtain ⟨h0, hlt, hdoy0, hdoy⟩ := h
  dsimp only
  split_ifs <;> omega

lemma exists_ofYear {date : ℤ × ℤ × ℤ} (h : Valid date) : ∃ era yoe doy, InYear yoe doy ∧ ofYear era yoe doy = date := by
  obtain ⟨y, m, d⟩ := date
  obtain ⟨hm1, hm2, hd1, hd2⟩ := h
  simp only [monthLength, IsLeap] at hd2
  let y' := if m ≤ 2 then y - 1 else y
  let mp := if 2 < m then m - 3 else m + 9
  refine ⟨y' / 400, y' % 400, (153 * mp + 2) / 5 + d - 1, ?_, ?_⟩
  · unfold InYear y' mp
    split_ifs at * <;> omega
  · have hmp : (5 * ((153 * mp + 2) / 5 + d - 1) + 2) / 153 = mp := by
      unfold mp
      by_cases hjuly : m = 7 <;> split_ifs at * <;> omega
    simp only [ofYear, hmp, Prod.mk.injEq]
    unfold mp y'
    split_ifs <;> omega

lemma valid_next {date : ℤ × ℤ × ℤ} (h : Valid date) : Valid (next date) := by
  obtain ⟨y, m, d⟩ := date
  obtain ⟨hm1, hm2, hd1, hd2⟩ := h
  rw [next]
  split_ifs with hd hm
  · exact ⟨hm1, hm2, by omega, by omega⟩
  · refine ⟨by omega, by omega, by omega, ?_⟩
    unfold monthLength
    split_ifs <;> omega
  · exact ⟨by decide, by decide, by decide, by simp [monthLength]⟩

lemma daysOf_next {date : ℤ × ℤ × ℤ} (h : Valid date) : daysOf (next date) = daysOf date + 1 := by
  have hnext := valid_next h
  obtain ⟨y, m, d⟩ := date
  rw [daysOf_eq h rfl]
  obtain ⟨hm1, hm2, hd1, hd2⟩ := h
  rw [next] at *
  by_cases hd : d < monthLength y m
  · rw [if_pos hd] at *
    rw [daysOf_eq hnext rfl]
    dsimp only
    omega
  · rw [if_neg hd] at *
    simp only [monthLength, IsLeap] at hd2 hd
    by_cases hm : m < 12
    · rw [if_pos hm] at *
      rw [daysOf_eq hnext rfl]
      dsimp only
      by_cases hjuly : m = 7 <;> split_ifs at * <;> omega
    · rw [if_neg hm] at *
      rw [daysOf_eq hnext rfl]
      dsimp only
      split_ifs at * <;> omega

lemma civilFromDays_eq (z : ℤ) : civilFromDays z = dateOfEra ((z + 719468) / 146097) ((z + 719468) % 146097) := by
  have hera := tdiv_moved (z + 719468) (n := 146097) (by decide)
  change (if 0 ≤ z + 719468 then z + 719468 else z + 719468 - 146096).tdiv 146097 = _ at hera
  rw [civilFromDays, hera]
  congr 1
  omega

lemma exists_civilFromDays (z : ℤ) : ∃ era yoe doy, InYear yoe doy ∧ civilFromDays z = ofYear era yoe doy ∧
    z = era * 146097 + (yoe * 365 + yoe / 4 - yoe / 100 + doy) - 719468 := by
  rw [civilFromDays_eq]
  have hdoe0 : 0 ≤ (z + 719468) % 146097 := by omega
  have hdoe : (z + 719468) % 146097 < 146097 := by omega
  have hz : z = (z + 719468) / 146097 * 146097 + (z + 719468) % 146097 - 719468 := by omega
  generalize (z + 719468) / 146097 = era, (z + 719468) % 146097 = doe at *
  have h := inYear_of_doe hdoe0 hdoe rfl rfl
  refine ⟨era, _, _, h, ?_, ?_⟩
  · rw [← dateOfEra_eq h]
    congr 1
    omega
  · omega

lemma daysOf_civilFromDays (z : ℤ) : daysOf (civilFromDays z) = z := by
  obtain ⟨era, yoe, doy, h, hdate, hz⟩ := exists_civilFromDays z
  rw [hdate, daysOf_ofYear h, ← hz]

lemma civilFromDays_daysOf {date : ℤ × ℤ × ℤ} (h : Valid date) : civilFromDays (daysOf date) = date := by
  obtain ⟨era, yoe, doy, hin, rfl⟩ := exists_ofYear h
  rw [civilFromDays_eq, daysOf_ofYear hin, ← dateOfEra_eq hin]
  obtain ⟨h0, hlt, hdoy0, hdoy⟩ := hin
  congr 1 <;> omega

lemma valid_civilFromDays (z : ℤ) : Valid (civilFromDays z) := by
  obtain ⟨era, yoe, doy, h, hdate, -⟩ := exists_civilFromDays z
  rw [hdate]
  exact valid_ofYear h era

lemma civilFromDays_succ (z : ℤ) : civilFromDays (z + 1) = next (civilFromDays z) := by
  have hz := daysOf_civilFromDays z
  have h := valid_civilFromDays z
  generalize civilFromDays z = date at *
  rw [← civilFromDays_daysOf (valid_next h), daysOf_next h, hz]

lemma civil_eq {secs : UInt64} {y m d : ℤ} (h : civilFromDays (secs.toNat / 86400) = (y, m, d)) (hlo : 1980 ≤ y)
    (hhi : y ≤ 2107) : ∃ hour min sec, civil secs = (y, m, d, hour, min, sec) ∧ 0 ≤ min ∧ min < 60 ∧ 0 ≤ sec ∧
      sec < 60 ∧ hour * 3600 + min * 60 + sec = secs.toNat % 86400 := by
  have hvalid := valid_civilFromDays (secs.toNat / 86400)
  rw [h] at hvalid
  obtain ⟨hm1, hm2, hd1, hd2⟩ := hvalid
  have hd : d ≤ 31 := by
    unfold monthLength at hd2
    split_ifs at hd2 <;> omega
  rw [civilFromDays_eq] at h
  rw [civil, h, if_neg (Int.not_lt.mpr hlo), if_neg (Int.not_lt.mpr hhi), stamp]
  generalize (secs.toNat : ℤ) = n
  refine ⟨n % 86400 / 3600 % 65536, n % 86400 / 60 % 60 % 65536, n % 86400 % 60 % 65536, ?_, ?_⟩
  · rw [Int.emod_eq_of_lt (a := y) (by omega) (by omega), Int.emod_eq_of_lt (a := m) (by omega) (by omega),
      Int.emod_eq_of_lt (a := d) (by omega) (by omega)]
  · omega

/-- The two directions of the calendar are inverse, and the stick's clock agrees with it where FAT has the year. -/
theorem calendar_correct : (∀ y m d, Valid (y, m, d) → civilFromDays (daysFromCivil y m d) = (y, m, d)) ∧
    (∀ z, daysFromCivil (civilFromDays z).1 (civilFromDays z).2.1 (civilFromDays z).2.2 = z) ∧
    (∀ z, Valid (civilFromDays z)) ∧ (∀ z, civilFromDays (z + 1) = next (civilFromDays z)) ∧
    ∀ (secs : UInt64) (y m d : ℤ), civilFromDays (secs.toNat / 86400) = (y, m, d) → 1980 ≤ y → y ≤ 2107 →
      ∃ hour min sec, civil secs = (y, m, d, hour, min, sec) ∧ 0 ≤ min ∧ min < 60 ∧ 0 ≤ sec ∧ sec < 60 ∧
        hour * 3600 + min * 60 + sec = secs.toNat % 86400 :=
  ⟨fun _ _ _ => civilFromDays_daysOf, daysOf_civilFromDays, valid_civilFromDays, civilFromDays_succ,
    fun _ _ _ _ => civil_eq⟩

end Kryptik.Calendar
