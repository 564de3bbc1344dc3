import Kryptik.Desktop.Launch
import Kryptik.Wlproxy.Reader

namespace Kryptik.Desktop

open Lib Lib.Scanf Wlproxy Wlproxy.Wire List Option Policy
open Wlproxy.Control (digits Reply)
open Lib.Text (prefix_append_cases prefix_cons_cases)

variable {rest line : Bytes}
variable {quoted : String → String} {n g : ℕ} {mime : String} {data p x : Bytes} {memory : Bool}

lemma isDigit_digits : ∀ c ∈ digits n, isDigit c = true := by
  intro c hc
  obtain ⟨d, hd, rfl⟩ := mem_map.mp hc
  have hdigit := Nat.isDigit_of_mem_toDigits (by omega) (by omega) hd
  simp only [Char.isDigit, Bool.and_eq_true, decide_eq_true_eq] at hdigit
  have hlo : 48 ≤ d.toNat := hdigit.1
  have hhi : d.toNat ≤ 57 := hdigit.2
  have hbyte : (UInt8.ofNat d.toNat).toNat = d.toNat := by
    rw [UInt8.toNat_ofNat']
    omega
  have h48 : (48 : UInt8).toNat = 48 := rfl
  have h57 : (57 : UInt8).toNat = 57 := rfl
  simp only [isDigit, Bool.and_eq_true, decide_eq_true_eq, UInt8.le_iff_toNat_le, hbyte]
  omega

lemma digits_ne_nil : digits n ≠ [] := by
  simp [digits, Nat.toDigits_ne_nil]

lemma length_digits_le {k : ℕ} (hk : 0 < k) (h : n < 10 ^ k) : (digits n).length ≤ k := by
  rw [digits, length_map]
  exact (Nat.length_toDigits_le_iff (by omega) hk).mpr h

lemma digits_of_lt (h : n < 10) : digits n = [UInt8.ofNat (48 + n)] := by
  rw [digits, Nat.toDigits_of_lt_base h, map_singleton, Nat.toNat_digitChar_of_lt_ten h]

lemma digits_of_le (h : 10 ≤ n) : digits n = digits (n / 10) ++ [UInt8.ofNat (48 + n % 10)] := by
  rw [digits, Nat.toDigits_of_base_le (by omega) h, map_append, map_singleton,
    Nat.toNat_digitChar_of_lt_ten (Nat.mod_lt n (by omega))]
  rfl

lemma decimal_append (s : Bytes) (c : UInt8) : decimal (s ++ [c]) = 10 * decimal s + (c.toNat - 48) := by
  simp [decimal]

lemma decimal_digits (n : ℕ) : decimal (digits n) = n := by
  induction n using Nat.strongRecOn with
  | ind n ih =>
    by_cases h : n < 10
    · have hbyte : (UInt8.ofNat (48 + n)).toNat = 48 + n := by
        rw [UInt8.toNat_ofNat']
        omega
      rw [digits_of_lt h]
      simp only [decimal, foldl_cons, foldl_nil, hbyte]
      omega
    · have hbyte : (UInt8.ofNat (48 + n % 10)).toNat = 48 + n % 10 := by
        rw [UInt8.toNat_ofNat']
        omega
      rw [digits_of_le (by omega), decimal_append, ih (n / 10) (by omega)]
      omega

lemma eq_zero_of_head (hp : p <+: digits n) (hne : p ≠ []) (hzero : decimal p = 0) : n = 0 := by
  induction n using Nat.strongRecOn generalizing p with
  | ind n ih =>
    by_cases h : n < 10
    · have hwhole : p = digits n := by
        apply hp.eq_of_length_le
        rw [digits_of_lt h]
        exact length_pos_iff.mpr hne
      rw [← decimal_digits n, ← hwhole, hzero]
    · rw [digits_of_le (by omega)] at hp
      obtain hwhole | hp := prefix_concat_iff.mp hp
      · rw [← decimal_digits n, digits_of_le (by omega), ← hwhole, hzero]
      · have := ih (n / 10) (by omega) hp hne hzero
        omega

lemma word_of_moveType (h : mime ∈ moveTypes) :
    (∀ c ∈ utf8 mime, isSpace c = false ∧ c ≠ 0 ∧ c ≠ 10) ∧ utf8 mime ≠ [] ∧ (utf8 mime).length ≤ 24 := by
  have hall : moveTypes.all (fun m => (utf8 m).all (fun c => !isSpace c && c != 0 && c != 10) &&
      utf8 m != [] && (utf8 m).length ≤ 24) = true := by decide +kernel
  have hmime := List.all_eq_true.mp hall mime h
  simp only [Bool.and_eq_true, List.all_eq_true, bne_iff_ne, decide_eq_true_eq, Bool.not_eq_true'] at hmime
  exact ⟨fun c hc => ⟨(hmime.1.1 c hc).1.1, (hmime.1.1 c hc).1.2, (hmime.1.1 c hc).2⟩, hmime.1.2, hmime.2⟩

lemma head_space {f : UInt8 → Bool} {b : Bool} (h : f 32 = b) : ∀ c, (32 :: rest).head? = some c → f c = b := by
  rintro _ ⟨⟩
  exact h

lemma scanTaken_ok (s : Bytes) : scanTaken (utf8 "ok " ++ s) =
    (scanUnsigned u64 s).bind fun x => (scanWord 63 x.2).bind fun y => some (x.1, y.1, y.2) := rfl

lemma scanUnsigned_number (hg : g < u64) (hrest : ∀ c, rest.head? = some c → isDigit c = false) :
    scanUnsigned u64 (digits g ++ rest) = some (g, rest) := by
  rw [scanUnsigned_digits isDigit_digits digits_ne_nil hrest, decimal_digits, if_neg (by omega)]

lemma scanTaken_takenLine (hg : g < u64) (hmime : mime ∈ moveTypes)
    (hrest : ∀ c, rest.head? = some c → isSpace c = true) :
    scanTaken (utf8 "ok " ++ (digits g ++ 32 :: (utf8 mime ++ rest))) = some (g, utf8 mime, rest) := by
  obtain ⟨hword, hne, hlen⟩ := word_of_moveType hmime
  rw [scanTaken_ok, scanUnsigned_number hg (head_space rfl), bind_some, scanWord_space,
    scanWord_word (fun c hc => (hword c hc).1) hne (by omega) hrest]
  rfl

lemma scanLength_short (hg : g < u64) (hmime : mime ∈ moveTypes)
    (hp : p <+: utf8 "ok " ++ (digits g ++ 32 :: (utf8 mime ++ [32]))) : scanLength p = none := by
  obtain ⟨hword, hne, hlen⟩ := word_of_moveType hmime
  have hnumber : ∀ q, q <+: digits g → scanLength (utf8 "ok " ++ q) = none := by
    intro q hq
    rw [scanLength, scanTaken_ok]
    by_cases hqne : q = []
    · rw [hqne]
      rfl
    · have hall : ∀ c ∈ q, isDigit c = true := fun c hc => isDigit_digits c (hq.subset hc)
      rw [scanUnsigned_all u64 hall hqne]
      rfl
  obtain hp | ⟨q, rfl, hq⟩ := prefix_append_cases hp
  · have hshort : (utf8 "ok ").inits.all (fun q => scanLength q == none) = true := by decide
    simpa using all_eq_true.mp hshort p ((mem_inits p _).mpr hp)
  obtain hq | ⟨r, rfl, hr⟩ := prefix_append_cases hq
  · exact hnumber q hq
  obtain rfl | ⟨t, rfl, ht⟩ := prefix_cons_iff.mp hr
  · rw [append_nil]
    exact hnumber _ (prefix_refl _)
  rw [scanLength, scanTaken_ok, scanUnsigned_number hg (head_space rfl), bind_some, scanWord_space]
  obtain ht | ⟨u, rfl, hu⟩ := prefix_append_cases ht
  · by_cases htne : t = []
    · rw [htne]
      rfl
    · have := ht.length_le
      rw [scanWord_all (fun c hc => (hword c (ht.subset hc)).1) htne (by omega)]
      rfl
  · obtain rfl | rfl : u = [] ∨ u = [32] := by simpa [prefix_cons_iff] using hu
    · rw [scanWord_word (fun c hc => (hword c hc).1) hne (by omega) (by simp)]
      rfl
    · rw [scanWord_word (fun c hc => (hword c hc).1) hne (by omega) (head_space rfl)]
      rfl

lemma scanLength_number (hg : g < u64) (hmime : mime ∈ moveTypes) (hne : p ≠ []) (hp : p <+: digits n) :
    scanLength (utf8 "ok " ++ (digits g ++ 32 :: (utf8 mime ++ 32 :: p))) =
      some (if u64 ≤ decimal p then u64 - 1 else decimal p) := by
  have hall : ∀ c ∈ p, isDigit c = true := fun c hc => isDigit_digits c (hp.subset hc)
  rw [scanLength, scanTaken_takenLine hg hmime (head_space rfl)]
  simp only [bind_eq_bind, bind_some, scanUnsigned_space, scanUnsigned_all u64 hall hne]
  rfl

lemma takeWhile_ne {b : UInt8} (h : ∀ c ∈ line, c ≠ b) : line.takeWhile (· != b) = line := by
  have hall : ∀ c ∈ line, (c != b) = true := by simpa using h
  simpa using takeWhile_append_of_all hall (by simp : ∀ c, ([] : Bytes).head? = some c → (c != b) = false)

lemma readLine_eq (htake : p.takeWhile (· != 10) = line) (hlen : line.length < 159) :
    readLine p = (line, p.drop (line.length + 1)) := by
  have hsize : line.length + 1 < lineSize := by
    unfold lineSize
    omega
  rw [readLine, htake, take_of_length_le (Nat.le_sub_one_of_lt (Nat.lt_of_succ_lt hsize)), if_pos hsize]

lemma readLine_line (hline : ∀ c ∈ line, c ≠ 10) (hlen : line.length < 159) :
    readLine (line ++ 10 :: rest) = (line, rest) := by
  rw [readLine_eq _ hlen]
  · simp
  · rw [takeWhile_append_of_pos (by simpa using hline)]
    simp

lemma readLine_cut (hline : ∀ c ∈ line, c ≠ 10) (hlen : line.length < 159) : readLine line = (line, []) := by
  rw [readLine_eq (takeWhile_ne hline) hlen]
  simp

lemma answerOf_data (h : (answerOf true memory p).data = some x) :
    ∃ line rest n, readLine p = (line, rest) ∧ (answerOf true memory p).line = line.takeWhile (· != 0) ∧
      scanLength (line.takeWhile (· != 0)) = some n ∧ n ≤ rest.length ∧ n ≤ 2 ^ 20 ∧ x = rest.take n := by
  obtain ⟨line, rest, hread⟩ : ∃ line rest, readLine p = (line, rest) := ⟨_, _, rfl⟩
  refine ⟨line, rest, ?_⟩
  simp only [answerOf, hread, Bool.not_true, Bool.false_eq_true, if_false] at h ⊢
  cases hscan : scanLength (line.takeWhile (· != 0)) with
  | none => simp [hscan] at h
  | some n =>
    simp only [hscan] at h ⊢
    split_ifs at h with hbig hroom
    rw [if_neg hbig, if_pos hroom]
    exact ⟨n, trivial, rfl, rfl, hroom.2, Nat.le_of_not_lt hbig, (some_inj.mp h).symm⟩

lemma digits_marks : ∀ c ∈ digits n, c ≠ 10 ∧ c ≠ 0 := by
  intro c hc
  have := isDigit_digits c hc
  refine ⟨?_, ?_⟩ <;>
  · rintro rfl
    exact absurd this (by decide)

lemma head_marks (hmime : mime ∈ moveTypes) :
    ∀ c ∈ utf8 "ok " ++ (digits g ++ 32 :: (utf8 mime ++ 32 :: digits n)), c ≠ 10 ∧ c ≠ 0 := by
  have hok : ∀ c ∈ utf8 "ok ", c ≠ 10 ∧ c ≠ 0 := by
    simpa using all_eq_true.mp (by decide : (utf8 "ok ").all (fun c => c != 10 && c != 0) = true)
  intro c hc
  simp only [mem_append, mem_cons] at hc
  obtain hc | hc | rfl | hc | rfl | hc := hc
  · exact hok c hc
  · exact digits_marks c hc
  · decide
  · exact ⟨((word_of_moveType hmime).1 c hc).2.2, ((word_of_moveType hmime).1 c hc).2.1⟩
  · decide
  · exact digits_marks c hc

lemma length_head (hmime : mime ∈ moveTypes) (hg : g < u64) (hn : n ≤ 2 ^ 20) :
    (utf8 "ok " ++ (digits g ++ 32 :: (utf8 mime ++ 32 :: digits n))).length < 159 := by
  have hok : (utf8 "ok ").length = 3 := by decide
  have h1 := length_digits_le (n := g) (k := 20) (by omega) (by unfold u64 at hg; omega)
  have h2 := length_digits_le (n := n) (k := 20) (by omega) (by omega)
  have h3 := (word_of_moveType hmime).2.2
  simp only [length_append, length_cons, hok]
  omega

/-- Whatever of an answer to a take came, data that came with it is the whole selection, in the type and of
the generation the proxy said. -/
lemma heard_taken (hmime : mime ∈ moveTypes) (hg : g < u64) (hlen : data.length ≤ 2 ^ 20)
    (hp : p <+: (Reply.taken g mime data).bytes quoted) (hdata : (answerOf true memory p).data = some x) :
    x = data ∧ ∃ rest, scanTaken (answerOf true memory p).line = some (g, utf8 mime, rest) := by
  have hbytes : (Reply.taken g mime data).bytes quoted =
      (utf8 "ok " ++ (digits g ++ 32 :: (utf8 mime ++ 32 :: digits data.length))) ++ 10 :: data := by
    simp [Reply.bytes]
  rw [hbytes] at hp
  have hmarks := head_marks (g := g) (n := data.length) hmime
  have hshort := length_head hmime hg hlen
  obtain ⟨line, rest, n, hread, hline, hscan, hroom, hbig, rfl⟩ := answerOf_data hdata
  rw [hline]
  obtain hp | ⟨q, rfl, hq⟩ := prefix_cons_cases hp
  · rw [readLine_cut (fun c hc => (hmarks c (hp.subset hc)).1) (by have := hp.length_le; omega)] at hread
    cases hread
    rw [takeWhile_ne (fun c hc => (hmarks c (hp.subset hc)).2)] at hscan ⊢
    have hzero : n = 0 := Nat.le_zero.mp hroom
    rw [hzero] at hscan
    have hsplit : utf8 "ok " ++ (digits g ++ 32 :: (utf8 mime ++ 32 :: digits data.length)) =
        (utf8 "ok " ++ (digits g ++ 32 :: (utf8 mime ++ [32]))) ++ digits data.length := by simp
    rw [hsplit] at hp
    obtain hp | ⟨q, rfl, hq⟩ := prefix_append_cases hp
    · rw [scanLength_short hg hmime hp] at hscan
      exact absurd hscan (by simp)
    have hshape : utf8 "ok " ++ (digits g ++ 32 :: (utf8 mime ++ [32])) ++ q =
        utf8 "ok " ++ (digits g ++ 32 :: (utf8 mime ++ 32 :: q)) := by simp
    rw [hshape] at hscan ⊢
    by_cases hqne : q = []
    · rw [scanLength_short hg hmime (by rw [hqne])] at hscan
      exact absurd hscan (by simp)
    rw [scanLength_number hg hmime hqne hq, some_inj] at hscan
    have hnumber : decimal q = 0 := by
      split_ifs at hscan
      · unfold u64 at hscan
        omega
      · exact hscan
    have hnone : data = [] := length_eq_zero_iff.mp (eq_zero_of_head hq hqne hnumber)
    exact ⟨by simp [hnone], _, scanTaken_takenLine hg hmime (head_space rfl)⟩
  · rw [readLine_line (fun c hc => (hmarks c hc).1) hshort] at hread
    obtain ⟨rfl, rfl⟩ := Prod.mk.inj hread
    rw [takeWhile_ne (fun c hc => (hmarks c hc).2)] at hscan ⊢
    rw [scanLength_number hg hmime digits_ne_nil (prefix_refl _), decimal_digits, some_inj,
      if_neg (by unfold u64; omega)] at hscan
    subst hscan
    have hwhole : q = data := hq.eq_of_length_le hroom
    exact ⟨by rw [hwhole, take_length], _, scanTaken_takenLine hg hmime (head_space rfl)⟩

lemma heard_error (hp : p <+: 101 :: rest) :
    (answerOf true memory p).data = none ∧ (answerOf true memory p).line ≠ utf8 "ok" := by
  obtain ⟨line, rest', hread⟩ : ∃ line rest, readLine p = (line, rest) := ⟨_, _, rfl⟩
  have hline : line.takeWhile (· != 0) = [] ∨ ∃ t, line.takeWhile (· != 0) = 101 :: t := by
    have hfirst := (Prod.mk.inj hread).1.symm
    obtain rfl | ⟨t, rfl, -⟩ := prefix_cons_iff.mp hp
    · exact .inl (by simp [hfirst])
    · exact .inr ⟨((t.takeWhile (· != 10)).take 158).takeWhile (· != 0), by rw [hfirst]; rfl⟩
  have hscan : scanLength (line.takeWhile (· != 0)) = none := by
    obtain hline | ⟨t, hline⟩ := hline
    · rw [hline]
      rfl
    · rw [hline]
      rfl
  have hanswer : answerOf true memory p = ⟨line.takeWhile (· != 0), none⟩ := by
    simp [answerOf, hread, hscan]
  rw [hanswer]
  refine ⟨rfl, ?_⟩
  obtain hline | ⟨t, hline⟩ := hline
  · rw [hline]
    decide
  · rw [hline]
    intro heq
    exact absurd (cons.inj heq).1 (by decide)

lemma heard_done (hline : (answerOf true memory p).line = utf8 "ok") {r : Reply}
    (hr : r = .done ∨ ∃ why, r = .refused why) (hp : p <+: r.bytes quoted) : r = .done := by
  obtain rfl | ⟨why, rfl⟩ := hr
  · rfl
  · exact absurd hline (heard_error hp).2

lemma utf8_ofList_append (a b : List Char) :
    utf8 (String.ofList (a ++ b)) = utf8 (String.ofList a) ++ utf8 (String.ofList b) := by
  simp [utf8_eq]

lemma utf8_digits (n : ℕ) : utf8 (String.ofList (Nat.toDigits 10 n)) = digits n := by
  rw [utf8_eq, String.toList_ofList, digits, map_eq_flatMap]
  apply flatMap_congr
  intro c hc
  have hdigit := Nat.isDigit_of_mem_toDigits (by omega) (by omega) hc
  simp only [Char.isDigit, Bool.and_eq_true, decide_eq_true_eq] at hdigit
  have hsmall : c.val.toNat ≤ 127 := Nat.le_trans (UInt32.le_iff_toNat_le.mp hdigit.2) (by decide)
  exact if_pos hsmall

lemma parse_cut {line : String} {body : Bytes} {r : Control.Request} (hline : ∀ c ∈ utf8 line, c ≠ 10)
    (hlen : (utf8 line).length ≤ Control.lineMax) (h : Control.parseLine line body = .ok (some r))
    (hp : p <+: utf8 line ++ 10 :: body) : Control.parse p = .ok none ∨ Control.parse p = .ok (some r) := by
  have hn : 10 ∉ utf8 line := fun h => hline 10 h rfl
  have hparse : Control.parse (utf8 line ++ 10 :: body) = .ok (some r) := by
    rw [Control.parse_newline hn, fromUTF8_utf8]
    exact h
  by_cases hwhole : p = utf8 line ++ 10 :: body
  · exact .inr (hwhole ▸ hparse)
  · refine .inl (Control.parse_prefix hparse ?_ hp hwhole)
    rw [Control.lineLength, Control.idxOf?_newline hn]
    exact hlen

lemma parseUnsigned_digits (h : n < u64) : Text.parseUnsigned Control.u64Max (Nat.toDigits 10 n) = some n := by
  apply Text.parseUnsigned_toDigits
  unfold Control.u64Max
  unfold u64 at h
  omega

lemma space_notMem_toDigits (n : ℕ) : ∀ c ∈ Nat.toDigits 10 n, (c == ' ') = false := by
  intro c hc
  have hdigit := Nat.isDigit_of_mem_toDigits (by omega) (by omega) hc
  rw [beq_eq_false_iff_ne]
  rintro rfl
  exact absurd hdigit (by decide)

lemma parse_clear (hg : g < u64) {type : Bytes} {length : ℕ} (hp : p <+: (Ask.clear g type length).request) :
    Control.parse p = .ok none ∨ Control.parse p = .ok (some (.clear g)) := by
  let line := String.ofList ("clear ".toList ++ Nat.toDigits 10 g)
  have hline : utf8 line = utf8 "clear " ++ digits g := by
    rw [utf8_ofList_append, utf8_digits]
    rfl
  have hbytes : (Ask.clear g type length).request = utf8 line ++ 10 :: [] := by
    rw [hline]
    rfl
  have hnewline : ∀ c ∈ utf8 line, c ≠ 10 := by
    have hclear : ∀ c ∈ utf8 "clear ", c ≠ 10 := by
      simpa using all_eq_true.mp (by decide : (utf8 "clear ").all (fun c => c != 10) = true)
    intro c hc
    rw [hline, mem_append] at hc
    exact hc.elim (hclear c) fun hc => (digits_marks c hc).1
  have hlen : (utf8 line).length ≤ Control.lineMax := by
    have hclear : (utf8 "clear ").length = 6 := by decide
    have := length_digits_le (n := g) (k := 20) (by omega) (by unfold u64 at hg; omega)
    rw [hline, length_append]
    unfold Control.lineMax
    omega
  have hsplit : Text.splitBy (· == ' ') line.toList = ["clear".toList, Nat.toDigits 10 g] := by
    have happ : line.toList = "clear".toList ++ ' ' :: Nat.toDigits 10 g := by simp [line]
    have hword : ∀ c ∈ "clear".toList, (c == ' ') = false := by simp
    rw [happ, Text.splitBy_append hword rfl, Text.splitBy_single (space_notMem_toDigits g)]
  rw [hbytes] at hp
  refine parse_cut hnewline hlen ?_ hp
  rw [Control.parseLine, hsplit]
  simp [parseUnsigned_digits hg]

lemma parse_give (hmime : mime ∈ moveTypes) (hlen : data.length ≤ 2 ^ 20)
    (hp : p <+: (Ask.give g (utf8 mime) data).request) :
    Control.parse p = .ok none ∨ Control.parse p = .ok (some (.give mime data)) := by
  let line := String.ofList ("give ".toList ++ (mime.toList ++ ([' '] ++ Nat.toDigits 10 data.length)))
  have hline : utf8 line = utf8 "give " ++ (utf8 mime ++ ([32] ++ digits data.length)) := by
    have hspace : utf8 (String.ofList [' ']) = [32] := by decide
    rw [utf8_ofList_append, utf8_ofList_append, utf8_ofList_append, utf8_digits, hspace]
    simp
  have hbytes : (Ask.give g (utf8 mime) data).request = utf8 line ++ 10 :: data := by
    rw [hline]
    simp [Ask.request]
  have hnewline : ∀ c ∈ utf8 line, c ≠ 10 := by
    have hgive : ∀ c ∈ utf8 "give ", c ≠ 10 := by
      simpa using all_eq_true.mp (by decide : (utf8 "give ").all (fun c => c != 10) = true)
    intro c hc
    simp only [hline, mem_append, mem_singleton] at hc
    obtain hc | hc | rfl | hc := hc
    · exact hgive c hc
    · exact ((word_of_moveType hmime).1 c hc).2.2
    · decide
    · exact (digits_marks c hc).1
  have hshort : (utf8 line).length ≤ Control.lineMax := by
    have hgive : (utf8 "give ").length = 5 := by decide
    have := length_digits_le (n := data.length) (k := 20) (by omega) (by omega)
    have := (word_of_moveType hmime).2.2
    simp only [hline, length_append, length_singleton, hgive]
    unfold Control.lineMax
    omega
  have hsplit : Text.splitBy (· == ' ') line.toList = ["give".toList, mime.toList, Nat.toDigits 10 data.length] := by
    have happ : line.toList = "give".toList ++ ' ' :: (mime.toList ++ ' ' :: Nat.toDigits 10 data.length) := by
      simp [line]
    have hword : ∀ c ∈ "give".toList, (c == ' ') = false := by simp
    have htypes : moveTypes.all (fun m => m.toList.all (fun c => !(c == ' '))) = true := by decide +kernel
    have htype : ∀ c ∈ mime.toList, (c == ' ') = false := by
      simpa using all_eq_true.mp htypes mime hmime
    rw [happ, Text.splitBy_append hword rfl, Text.splitBy_append htype rfl,
      Text.splitBy_single (space_notMem_toDigits data.length)]
  rw [hbytes] at hp
  refine parse_cut hnewline hshort ?_ hp
  have hnumber := parseUnsigned_digits (n := data.length) (by unfold u64; omega)
  have hmax : ¬ maxMoveBytes < data.length := by
    unfold maxMoveBytes
    omega
  rw [Control.parseLine, hsplit]
  simp [Control.parseGive, hmime, hnumber, hmax]

lemma parse_take (hp : p <+: Ask.take.request) : Control.parse p = .ok none ∨ Control.parse p = .ok (some .take) := by
  have hall : (Ask.take.request.inits).all
      (fun q => Control.parse q = .ok none ∨ Control.parse q = .ok (some .take)) = true := by decide +kernel
  exact of_decide_eq_true (all_eq_true.mp hall p ((mem_inits p _).mpr hp))

end Kryptik.Desktop
