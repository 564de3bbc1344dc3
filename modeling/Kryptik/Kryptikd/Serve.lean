import Kryptik.Lib.Text

namespace Kryptik.Kryptikd.Serve

open Lib Text List

abbrev Bytes := List UInt8

def bytes (s : String) : Bytes := s.toByteArray.data.toList

/-- `run`, `wifi-add`, `wifi-forget` and `desktop` end at an `end` line, other verbs at a newline. -/
def requestComplete (text : Bytes) : Bool :=
  if !(bytes "\n").isSuffixOf text then false
  else if (bytes "run ").isPrefixOf text || (bytes "wifi-add\n").isPrefixOf text ||
      (bytes "wifi-forget\n").isPrefixOf text || (bytes "desktop\n").isPrefixOf text then
    (bytes "\nend\n").isSuffixOf text
  else true

def maxRequest : ℕ := 16 * 1024
def maxCarried : ℕ := 3
def bufLen : ℕ := 4096

inductive RequestError
  | notCompleted
  | poll
  | invalid
  | recvmsg
  | lateDescriptor
  | tooManyDescriptors (got : ℕ)
  | tooLong
  | nul
  deriving DecidableEq

/-- What a turn of the loop meets before the deadline; `again` when poll or recvmsg is interrupted or has nothing. -/
inductive Recv
  | again
  | pollFailed
  | invalid
  | failed
  | got (bytes : Bytes) (fds : List ℕ)

def readRequestFrom (text : Bytes) (carried : List ℕ) : List Recv → Except RequestError (Bytes × List ℕ)
  | [] => .error .notCompleted
  | .again :: rest => readRequestFrom text carried rest
  | .pollFailed :: _ => .error .poll
  | .invalid :: _ => .error .invalid
  | .failed :: _ => .error .recvmsg
  | .got bytes fds :: rest =>
    if fds ≠ [] ∧ (text ≠ [] ∨ carried ≠ []) then .error .lateDescriptor
    else if maxCarried < fds.length then .error (.tooManyDescriptors fds.length)
    else
      let carried := if fds = [] then carried else fds
      if bytes = [] then .ok (text, carried)
      else if maxRequest < (text ++ bytes).length then .error .tooLong
      else if 0 ∈ text ++ bytes then .error .nul
      else if requestComplete (text ++ bytes) then .ok (text ++ bytes, carried)
      else readRequestFrom (text ++ bytes) carried rest

def readRequest : List Recv → Except RequestError (Bytes × List ℕ) := readRequestFrom [] []

def checkPassword (text : String) : Option (List Char) :=
  match lines text.toList with
  | [verb, line, last] =>
    if verb = "check-password".toList ∧ last = "end".toList then "password ".toList.isPrefixOf? line else none
  | _ => none

/-- After its last byte a peer closes the connection, or leaves it open. -/
def ending (closed : Bool) : List Recv := if closed then [.got [] []] else []

/-- How these bytes can arrive within the deadline, the descriptors with the first of them. -/
inductive Arrives (closed : Bool) : Bytes → List ℕ → List Recv → Prop
  | ended : Arrives closed [] [] (ending closed)
  | again {t : Bytes} {fds : List ℕ} {rs : List Recv} (h : Arrives closed t fds rs) :
      Arrives closed t fds (.again :: rs)
  | piece {t : Bytes} {rs : List Recv} (p : Bytes) (fds : List ℕ) (hne : p ≠ []) (hlen : p.length ≤ bufLen)
      (h : Arrives closed t [] rs) : Arrives closed (p ++ t) fds (.got p fds :: rs)

variable {closed : Bool} {s rest p q : Bytes} {c fds out : List ℕ} {rs : List Recv}

lemma readRequestFrom_ended : readRequestFrom s c (ending closed) =
    if closed then .ok (s, c) else .error .notCompleted := by
  cases closed <;> simp [ending, readRequestFrom]

lemma readRequestFrom_got {r : Bytes × List ℕ} (hne : p ≠ []) (h : readRequestFrom s c (.got p fds :: rs) = .ok r) :
    fds.length ≤ maxCarried ∧ (s ++ p).length ≤ maxRequest ∧ 0 ∉ s ++ p ∧
      (requestComplete (s ++ p) = true ∧ r.1 = s ++ p ∨ requestComplete (s ++ p) = false ∧
        ∃ d, readRequestFrom (s ++ p) d rs = .ok r) := by
  simp only [readRequestFrom, if_neg hne] at h
  generalize (if fds = [] then c else fds) = d at h
  split_ifs at h with _ hfds hlen hnul hend
  · cases h
    exact ⟨Nat.le_of_not_lt hfds, Nat.le_of_not_lt hlen, hnul, Or.inl ⟨hend, rfl⟩⟩
  · exact ⟨Nat.le_of_not_lt hfds, Nat.le_of_not_lt hlen, hnul, .inr ⟨Bool.eq_false_iff.mpr hend, d, h⟩⟩

/-- What is read whole passes every check, and ends where the loop stops. -/
lemma Arrives.checked (ha : Arrives closed rest fds rs)
    (h : readRequestFrom s c rs = .ok (s ++ rest, out)) : fds.length ≤ maxCarried ∧
      (rest ≠ [] → (s ++ rest).length ≤ maxRequest ∧ 0 ∉ s ++ rest) ∧
      (closed = true ∨ rest ≠ [] ∧ requestComplete (s ++ rest) = true) := by
  induction ha generalizing s c with
  | ended =>
    rw [readRequestFrom_ended] at h
    split_ifs at h with hc
    exact ⟨Nat.zero_le _, fun hne => absurd rfl hne, Or.inl hc⟩
  | again _ ih => exact ih h
  | @piece t rs p fds hne _ _ ih =>
    rw [← append_assoc] at h ⊢
    obtain ⟨hfds, hlen, hnul, ⟨hend, heq⟩ | ⟨_, d, hmore⟩⟩ := readRequestFrom_got hne h
    · have heq : s ++ p ++ t = s ++ p := heq
      rw [heq]
      exact ⟨hfds, fun _ => ⟨hlen, hnul⟩, Or.inr ⟨by simp [hne], hend⟩⟩
    · obtain ⟨-, hrest, hstop⟩ := ih hmore
      refine ⟨hfds, fun _ => ?_, hstop.imp_right fun h => ⟨by simp [hne], h.2⟩⟩
      by_cases ht : t = []
      · rw [ht, append_nil]
        exact ⟨hlen, hnul⟩
      · exact hrest ht

lemma Arrives.returns (ha : Arrives closed rest fds rs) (hfirst : fds = [] ∨ s = [] ∧ c = [])
    (hfds : fds.length ≤ maxCarried) (hlen : (s ++ rest).length ≤ maxRequest) (hnul : 0 ∉ s ++ rest)
    (hend : closed = true ∨ rest ≠ [] ∧ requestComplete (s ++ rest) = true)
    (hnot : ∀ p, p <+: rest → p ≠ [] → p ≠ rest → requestComplete (s ++ p) = false) :
    readRequestFrom s c rs = .ok (s ++ rest, if fds = [] then c else fds) := by
  induction ha generalizing s c with
  | ended =>
    have hc : closed = true := hend.elim id fun h => absurd rfl h.1
    rw [readRequestFrom_ended, if_pos hc, append_nil, if_pos rfl]
  | again _ ih => exact ih hfirst hfds hlen hnul hend hnot
  | @piece t rs p fds hne _ _ ih =>
    rw [← append_assoc] at hlen hnul hend ⊢
    have hpart := Nat.le_trans (prefix_append _ t).length_le hlen
    have hpast : ¬ (fds ≠ [] ∧ (s ≠ [] ∨ c ≠ [])) := by
      rintro ⟨h, ht | hc⟩ <;> simp_all
    simp only [readRequestFrom, if_neg hpast, if_neg (Nat.not_lt.mpr hfds), if_neg hne]
    rw [if_neg (Nat.not_lt.mpr hpart), if_neg fun h => hnul (mem_append_left t h)]
    generalize (if fds = [] then c else fds) = d
    split_ifs with hfin
    · have ht : t = [] := by
        by_contra ht
        exact absurd (hnot p (prefix_append p t) hne (by simpa using ht)) (by simp [hfin])
      rw [ht, append_nil]
    · have hstop : closed = true ∨ t ≠ [] ∧ requestComplete (s ++ p ++ t) = true := by
        refine hend.imp_right fun h => ⟨fun ht => hfin ?_, h.2⟩
        have hdone := h.2
        rwa [ht, append_nil] at hdone
      refine (ih (.inl rfl) (Nat.zero_le _) hlen hnul hstop fun q hq hqne hqt => ?_).trans ?_
      · rw [append_assoc]
        exact hnot (p ++ q) ((prefix_append_right_inj p).mpr hq) (by simp [hne]) (by simpa using hqt)
      · rw [if_pos rfl]

def bytewise (closed : Bool) : List ℕ → Bytes → List Recv
  | _, [] => ending closed
  | fds, b :: t => .got [b] fds :: bytewise closed [] t

lemma arrives_bytewise (closed : Bool) (fds : List ℕ) (b : UInt8) (t : Bytes) :
    Arrives closed (b :: t) fds (bytewise closed fds (b :: t)) := by
  induction t generalizing b fds with
  | nil => exact .piece [b] fds (by simp) (by simp [bufLen]) .ended
  | cons c t ih => exact .piece [b] fds (by simp) (by simp [bufLen]) (ih [] c)

lemma readRequestFrom_bytewise {r : Bytes × List ℕ} (hne : p ≠ []) (hend : requestComplete (s ++ p) = true)
    (h : readRequestFrom s c (bytewise closed fds (p ++ q)) = .ok r) :
    r.1.length ≤ (s ++ p).length := by
  induction p generalizing s c fds with
  | nil => exact absurd rfl hne
  | cons b p ih =>
    rw [append_cons] at hend ⊢
    obtain ⟨-, -, -, ⟨-, heq⟩ | ⟨hnot, d, hmore⟩⟩ := readRequestFrom_got (cons_ne_nil b []) h
    · rw [heq]
      exact (prefix_append _ p).length_le
    · refine ih (fun hp => ?_) hend hmore
      rw [hp, append_nil, hnot] at hend
      cases hend

/-- A request that is read whole in some way, in one piece say, is read so in every way exactly if no part of it that
can arrive first is taken for a whole request. -/
theorem read_split_iff_no_early_end (closed : Bool) (t : Bytes) (fds : List ℕ) (whole : List Recv)
    (ha : Arrives closed t fds whole) (h : readRequest whole = .ok (t, fds)) :
    (∀ rs, Arrives closed t fds rs → readRequest rs = .ok (t, fds)) ↔
      ∀ p, p <+: t → p ≠ [] → p ≠ t → requestComplete p = false := by
  refine ⟨fun hall p hp hne hpt => ?_, fun hnot rs hrs => ?_⟩
  · by_contra hend
    rw [Bool.not_eq_false] at hend
    obtain ⟨q, rfl⟩ := hp
    obtain ⟨b, p, rfl⟩ := exists_cons_of_ne_nil hne
    have hlen := readRequestFrom_bytewise (s := []) hne hend (hall _ (arrives_bytewise closed fds b (p ++ q)))
    exact hpt (prefix_append _ q |>.eq_of_length_le hlen)
  · obtain ⟨hfds, hrest, hstop⟩ := ha.checked (s := []) h
    have hok : t.length ≤ maxRequest ∧ 0 ∉ t := by
      by_cases ht : t = []
      · simp [ht]
      · exact hrest ht
    refine (hrs.returns (s := []) (c := []) (.inr ⟨rfl, rfl⟩) hfds hok.1 hok.2 hstop hnot).trans ?_
    split_ifs with hnil
    · rw [hnil]
      rfl
    · rfl

lemma requestComplete_line (line : Bytes) {p : Bytes} (hline : 10 ∉ line) (hp : p <+: line ++ [10])
    (hne : p ≠ line ++ [10]) : requestComplete p = false := by
  have hbefore : p <+: line := (prefix_concat_iff.mp hp).resolve_left hne
  refine if_pos ?_
  rw [Bool.not_eq_true', ← Bool.not_eq_true, isSuffixOf_iff_suffix]
  exact fun hend => hline (hbefore.subset (hend.subset (by decide)))

/-- A verb that is ended by `end` has no newline before its own last byte. -/
lemma requestComplete_block {verb rest p : Bytes}
    (hverb : verb ∈ ["run ", "wifi-add\n", "wifi-forget\n", "desktop\n"].map bytes)
    (hend : ¬ bytes "\nend\n" <:+ p) (hp : p <+: verb ++ rest) : requestComplete p = false := by
  by_cases hlong : verb <+: p
  · rw [← isPrefixOf_iff_prefix] at hlong
    rw [← isSuffixOf_iff_suffix, Bool.not_eq_true] at hend
    simp only [map_cons, map_nil, mem_cons, not_mem_nil, or_false] at hverb
    obtain rfl | rfl | rfl | rfl := hverb <;> simp [requestComplete, hlong, hend]
  · have hparts : ∀ verb ∈ ["run ", "wifi-add\n", "wifi-forget\n", "desktop\n"].map bytes, ∀ n < verb.length,
        requestComplete (verb.take n) = false := by decide +kernel
    have hor := prefix_or_prefix_of_prefix hp (prefix_append verb rest)
    have hshort := hor.resolve_right hlong
    rw [prefix_iff_eq_take.mp hshort]
    refine hparts verb hverb _ (Nat.lt_of_le_of_ne hshort.length_le fun hlen => hlong ?_)
    rw [hshort.eq_of_length hlen]

theorem read_split_status : readRequest [.again, .got (bytes "sta") [], .got (bytes "tus\n") []] =
    .ok (bytes "status\n", []) := by
  have ha : Arrives false (bytes "status\n") [] [.got (bytes "status\n") []] :=
    .piece (bytes "status\n") _ (by decide) (by decide) .ended
  exact (read_split_iff_no_early_end false _ _ _ ha (by decide +kernel)).mpr
    (fun p hp _ hpt => requestComplete_line (bytes "status") (by decide) hp hpt) _
    (.again (.piece (bytes "sta") _ (by decide) (by decide) (.piece (bytes "tus\n") _ (by decide) (by decide) .ended)))

/-- The lines of `check-password` are three, and its first alone is taken for the whole request. -/
theorem check_password_ends_early :
    ∃ first rest, Arrives false (bytes "check-password\npassword x\nend\n") [] [.got first [], .got rest []] ∧
      checkPassword "check-password\npassword x\nend\n" = some ['x'] ∧
      readRequest [.got (bytes "check-password\npassword x\nend\n") []] =
        .ok (bytes "check-password\npassword x\nend\n", []) ∧
      readRequest [.got first [], .got rest []] = .ok (bytes "check-password\n", []) ∧
      checkPassword "check-password\n" = none :=
  ⟨bytes "check-password\n", bytes "password x\nend\n", .piece (bytes "check-password\n") _ (by decide) (by decide)
      (.piece (bytes "password x\nend\n") _ (by decide) (by decide) .ended),
    by decide +kernel, by decide +kernel, by decide +kernel, by decide +kernel⟩

end Kryptik.Kryptikd.Serve
