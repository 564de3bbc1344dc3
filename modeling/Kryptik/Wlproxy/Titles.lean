import Kryptik.Wlproxy.Policy

namespace Kryptik.Wlproxy.Policy

open String List

variable {c : Char} {zone : String}
variable {cs front rest : List Char} {i cut max : ℕ}

lemma isCharBoundary_append (front rest : List Char) : isCharBoundary (front ++ rest) (utf8Len front) = true := by
  induction front with
  | nil => cases rest <;> simp [isCharBoundary]
  | cons c front ih => simp [isCharBoundary, utf8Len_cons, ih]

lemma boundaryBelow_le (cs : List Char) (cut : ℕ) : boundaryBelow cs cut ≤ cut := by
  induction cut with
  | zero => exact le_rfl
  | succ cut ih =>
    unfold boundaryBelow
    split
    · exact le_rfl
    · exact ih.trans (Nat.le_succ cut)

lemma le_boundaryBelow (hb : isCharBoundary cs i = true) (hi : i ≤ cut) : i ≤ boundaryBelow cs cut := by
  induction cut with
  | zero => exact hi
  | succ cut ih =>
    unfold boundaryBelow
    split
    · exact hi
    · rename_i hne
      have : i ≠ cut + 1 := fun h => hne (h ▸ hb)
      exact ih (by omega)

lemma utf8Len_truncate_le (cs : List Char) (i : ℕ) : utf8Len (truncate cs i) ≤ i := by
  induction cs generalizing i with
  | nil => exact Nat.zero_le i
  | cons c cs ih =>
    unfold truncate
    split
    · have := ih (i - c.utf8Size)
      rw [utf8Len_cons]
      omega
    · exact Nat.zero_le i

lemma truncate_append (h : utf8Len front ≤ i) :
    truncate (front ++ rest) i = front ++ truncate rest (i - utf8Len front) := by
  induction front generalizing i with
  | nil => rfl
  | cons c front ih =>
    rw [utf8Len_cons] at h
    have hsub : i - c.utf8Size - utf8Len front = i - utf8Len (c :: front) := by
      rw [utf8Len_cons]
      omega
    rw [cons_append, truncate, if_pos (by omega), ih (by omega), hsub, cons_append]

lemma mem_of_mem_truncate (h : c ∈ truncate cs i) : c ∈ cs := by
  induction cs generalizing i with
  | nil => exact h
  | cons d cs ih =>
    unfold truncate at h
    split at h
    · obtain rfl | h := mem_cons.mp h
      · exact mem_cons_self
      · exact mem_cons_of_mem d (ih h)
    · cases h

lemma boundUtf8_append (front rest : String) (h : front.utf8ByteSize + 3 ≤ max) :
    ∃ kept, boundUtf8 (front ++ rest) max = front ++ kept ∧
      (front ++ kept).utf8ByteSize ≤ max ∧ ∀ c ∈ kept.toList, c ∈ rest.toList ∨ c = '.' := by
  unfold boundUtf8
  split
  · exact ⟨rest, rfl, ‹_›, fun c hc => .inl hc⟩
  · obtain ⟨n, hn⟩ : ∃ n, n = boundaryBelow (front ++ rest).toList (max - 3) := ⟨_, rfl⟩
    have hle : n ≤ max - 3 := hn ▸ boundaryBelow_le _ _
    have hge : utf8Len front.toList ≤ n := by
      rw [hn, toList_append]
      refine le_boundaryBelow (isCharBoundary_append _ _) ?_
      rw [utf8Len_toList]
      omega
    have hcut := utf8Len_truncate_le rest.toList (n - utf8Len front.toList)
    rw [← hn, toList_append, truncate_append hge, ofList_append, ofList_toList, String.append_assoc]
    refine ⟨_, rfl, ?_, fun c hc => ?_⟩
    · have hdots : "...".utf8ByteSize = 3 := by decide
      rw [utf8Len_toList] at hge hcut
      simp only [utf8ByteSize_append, utf8ByteSize_ofList, hdots, utf8Len_toList]
      omega
    · simp only [toList_append, toList_ofList, mem_append] at hc
      obtain hc | hc := hc
      · exact .inl (mem_of_mem_truncate hc)
      · exact .inr (by simpa using hc)

def Plain (c : Char) : Prop := isControl c = false ∧ isBidi c = false
  deriving Decidable

lemma plain_cleanTitleChar (c : Char) : Plain (cleanTitleChar c) := by
  unfold cleanTitleChar
  split
  · decide
  · rename_i h
    simpa [Plain] using h

lemma toNat_isIdentChar (h : isIdentChar c = true) : 45 ≤ c.toNat ∧ c.toNat ≤ 122 := by
  simp only [isIdentChar, Char.isAlphanum, Char.isAlpha, Char.isUpper, Char.isLower, Char.isDigit,
    ge_iff_le, UInt32.le_iff_toNat_le, Bool.or_eq_true, Bool.and_eq_true, decide_eq_true_eq] at h
  obtain (h | rfl) | rfl := h
  · have hr : ((65 ≤ c.toNat ∧ c.toNat ≤ 90) ∨ (97 ≤ c.toNat ∧ c.toNat ≤ 122)) ∨ (48 ≤ c.toNat ∧ c.toNat ≤ 57) := h
    omega
  · decide
  · decide

lemma plain_of_isIdentChar (h : isIdentChar c = true) : Plain c := by
  obtain ⟨hl, hu⟩ := toNat_isIdentChar h
  simp only [Plain, isControl, isBidi, Bool.or_eq_false_iff, Bool.and_eq_false_iff,
    decide_eq_false_iff_not]
  omega

lemma zoneOk_chars (hz : zoneOk zone = true) : zone.utf8ByteSize ≤ 32 ∧ ∀ c ∈ zone.toList, isIdentChar c = true := by
  simp only [zoneOk, Bool.and_eq_true, decide_eq_true_eq, all_eq_true] at hz
  exact ⟨hz.1.2, hz.2⟩

lemma titleFor_spec (hz : zoneOk zone = true) (title : String) :
    ∃ kept, titleFor zone title = "[" ++ zone ++ "] " ++ kept ∧ (titleFor zone title).utf8ByteSize ≤ maxTitleBytes ∧
      ∀ c ∈ (titleFor zone title).toList, Plain c := by
  obtain ⟨hlen, hident⟩ := zoneOk_chars hz
  have hfront : ("[" ++ zone ++ "] ").utf8ByteSize + 3 ≤ maxTitleBytes := by
    have h1 : "[".utf8ByteSize = 1 := by decide
    have h2 : "] ".utf8ByteSize = 2 := by decide
    simp only [utf8ByteSize_append, h1, h2, maxTitleBytes]
    omega
  obtain ⟨kept, hk, hsize, hchars⟩ :=
    boundUtf8_append _ (String.ofList (title.toList.map cleanTitleChar)) hfront
  refine ⟨kept, hk, ?_, fun c hc => ?_⟩
  · rw [titleFor, hk]
    exact hsize
  · rw [titleFor, hk] at hc
    simp only [toList_append, mem_append] at hc
    obtain ((hc | hc) | hc) | hc := hc
    · obtain rfl : c = '[' := by simpa using hc
      decide
    · exact plain_of_isIdentChar (hident c hc)
    · obtain rfl | rfl : c = ']' ∨ c = ' ' := by simpa using hc
      · decide
      · decide
    · obtain hc | rfl := hchars c hc
      · rw [toList_ofList] at hc
        obtain ⟨d, _, rfl⟩ := mem_map.mp hc
        exact plain_cleanTitleChar d
      · decide

lemma appIdFor_spec (zone claimed : String) :
    ∃ name : List Char, appIdFor zone claimed = "kryptik." ++ zone ++ "." ++ String.ofList name ∧
      1 ≤ name.length ∧ name.length ≤ 64 ∧ ∀ c ∈ name, isIdentChar c = true := by
  unfold appIdFor
  split
  · exact ⟨['a', 'p', 'p'], rfl, by decide, by decide, List.all_eq_true.mp (by decide)⟩
  · rename_i h
    refine ⟨cleanClaim claimed, rfl, ?_, ?_, fun c hc => ?_⟩
    · exact List.length_pos_iff.mpr (by simpa using h)
    · simp only [cleanClaim, List.length_map, List.length_take]
      omega
    · obtain ⟨d, _, rfl⟩ := List.mem_map.mp hc
      split
      · assumption
      · decide

lemma plain_ne_nul (h : Plain c) : c.toNat ≠ 0 := by
  intro h0
  have := h.1
  simp [isControl, h0] at this

lemma titleFor_nulFree (hz : zoneOk zone = true) (title : String) :
    ∀ c ∈ (titleFor zone title).toList, c.toNat ≠ 0 := by
  obtain ⟨_, _, _, hp⟩ := titleFor_spec hz title
  exact fun c hc => plain_ne_nul (hp c hc)

lemma appIdFor_nulFree (hz : zoneOk zone = true) (claimed : String) :
    ∀ c ∈ (appIdFor zone claimed).toList, c.toNat ≠ 0 := by
  obtain ⟨name, hn, _, _, hname⟩ := appIdFor_spec zone claimed
  intro c hc
  rw [hn] at hc
  simp only [toList_append, toList_ofList, mem_append] at hc
  obtain ((hc | hc) | hc) | hc := hc
  · have hfix : "kryptik.".toList.all (fun c => c.toNat != 0) = true := by decide
    simpa using all_eq_true.mp hfix c hc
  · exact plain_ne_nul (plain_of_isIdentChar ((zoneOk_chars hz).2 c hc))
  · obtain rfl : c = '.' := by simpa using hc
    decide
  · exact plain_ne_nul (plain_of_isIdentChar (hname c hc))

lemma appIdFor_empty (zone : String) : appIdFor zone "" = "kryptik." ++ zone ++ ".app" := by
  unfold appIdFor
  rw [String.append_assoc]
  rfl

end Kryptik.Wlproxy.Policy
