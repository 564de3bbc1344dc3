import Kryptik.Kryptikd.UpdateSteps
import Kryptik.Lib.History

namespace Kryptik.Kryptikd.Update

open Lib.Prog Lib.History Lib.Fallible List Option

variable {a : LatestArgs} {p : Pointer} {role : String} {standing : Standing} {m' : Machine} {calls : List LatestArgs}
variable {m : Machine}

/-- The reads `latest` goes by do not fail; they may still be cut short by a crash. -/
def LatestArgs.Reads (a : LatestArgs) : Prop :=
  a.io.readConsidered ≠ .failed ∧ a.io.readPointer ≠ .failed

instance (a : LatestArgs) : Decidable a.Reads := inferInstanceAs (Decidable (_ ∧ _))

/-- What `latest` stores, and on what grounds. -/
structure Stores (role : String) (a : LatestArgs) (m : Machine) (standing : Standing) (m' : Machine) :
    Prop where
  apart : m.store.considered.any (within a.now) = false
  verified : a.verdict = .ok ()
  accepted : ∃ p, pointerIn a.pointer = some p ∧
    acceptPointer p role a.running (m.store.storedPointer.map Pointer.issued) a.now = .ok standing
  stored : m' = ((m.consider a.now).check a.now).edit (fun s => { s with pointer := some a.pointer })

inductive Moved (role : String) (a : LatestArgs) (m : Machine) : Machine → Prop
  | nothing : Moved role a m m
  | considered (h : m.store.considered.any (within a.now) = false) : Moved role a m (m.consider a.now)
  | checked (h : m.store.considered.any (within a.now) = false) :
      Moved role a m ((m.consider a.now).check a.now)
  | stored {standing : Standing} {m' : Machine} (h : Stores role a m standing m') : Moved role a m m'

lemma latest_moves (role : String) (ha : a.Reads) (m : Machine) :
    wp (latest role a) (Stores role a m) (fun _ => Moved role a m) m := by
  unfold latest
  simp only [wp_bind]
  refine wp_must_id ?_ (fun _ => .nothing)
  refine wp_look ha.1 ?_ (fun _ => .nothing)
  refine wp_ite (fun _ => .nothing) (fun hapart => ?_)
  have hapart : m.store.considered.any (within a.now) = false := by simpa using hapart
  simp only [wp_bind]
  refine wp_mustChange ?_ (fun _ => .nothing) (.considered hapart)
  refine wp_orRefuse (fun text htext => ?_) (fun _ => .considered hapart)
  refine wp_must_id ?_ (fun _ => .considered hapart)
  refine wp_must_id ?_ (fun _ => .considered hapart)
  refine wp_orElseRefuse (fun _ hverdict => ?_) (fun _ => .checked hapart)
  refine wp_orElseRefuse (fun p hp => ?_) (fun _ => .checked hapart)
  refine wp_look ha.2 ?_ (fun _ => .checked hapart)
  refine wp_orElseRefuse (fun standing hstanding => ?_) (fun _ => .checked hapart)
  have hpointer : pointerIn a.pointer = some p := by simp [pointerIn, htext, hp, Except.toOption]
  have hstores : Stores role a m standing
      (((m.consider a.now).check a.now).edit (fun s => { s with pointer := some a.pointer })) :=
    ⟨hapart, hverdict, ⟨p, hpointer, hstanding⟩, rfl⟩
  exact wp_mustChange hstores (fun _ => .checked hapart) (.stored hstores)

lemma acceptPointer_ok {running : String} {newest : Option ℤ} {now : ℤ}
    (h : acceptPointer p role running newest now = .ok standing) :
    p.role = role ∧ p.issued ≤ now + maxAheadSecs ∧ (∀ seen, newest = some seen → seen ≤ p.issued) ∧
      ∀ v, standing = .available v → v = p.version ∧ versionCmp v running = .gt := by
  unfold acceptPointer at h
  split_ifs at h with hrole hahead hseen hnewer
  · refine ⟨by simpa using hrole, ?_, ?_, ?_⟩
    · exact (not_lt.mp hahead).trans (min_le_left _ _)
    · rintro seen rfl
      simpa using hseen
    · rintro v rfl
      obtain rfl := Standing.available.inj (Except.ok.inj h)
      exact ⟨rfl, hnewer⟩
  · refine ⟨by simpa using hrole, ?_, ?_, ?_⟩
    · exact (not_lt.mp hahead).trans (min_le_left _ _)
    · rintro seen rfl
      simpa using hseen
    · rintro v rfl
      simp at h

lemma Stores.storedPointer {m : Machine} (h : Stores role a m standing m') : ∃ p, pointerIn a.pointer = some p ∧
      m'.store.pointer = some a.pointer ∧ m'.store.storedPointer = some p ∧
      acceptPointer p role a.running (m.store.storedPointer.map Pointer.issued) a.now = .ok standing := by
  obtain ⟨p, hp, haccept⟩ := h.accepted
  obtain rfl := h.stored
  exact ⟨p, hp, rfl, hp, haccept⟩

def runLatest (role : String) (m : Machine) (a : LatestArgs) : Machine := m.after (latest role a)

lemma runLatest_moved (role : String) (ha : a.Reads) (m : Machine) : Moved role a m (runLatest role m a) :=
  after_of_wp (wp_mono (latest_moves role ha m) (fun _ _ h => .stored h) (fun _ _ h => h))

/-- What one call may do to the stored statement, and what it may answer. -/
structure Proper (role : String) (a : LatestArgs) (m : Machine) : Prop where
  newer : ∀ p, m.store.storedPointer = some p →
    ∃ p', (runLatest role m a).store.storedPointer = some p' ∧ p.issued ≤ p'.issued
  grounds : (runLatest role m a).store.pointer = m.store.pointer ∨
    (runLatest role m a).store.pointer = some a.pointer ∧ a.verdict = .ok () ∧
      ∃ p, pointerIn a.pointer = some p ∧ p.role = role ∧ p.issued ≤ a.now + maxAheadSecs
  told : ∀ v m', latest role a m = .ok (.available v) m' →
    ∃ p, m'.store.storedPointer = some p ∧ p.version = v ∧ versionCmp v a.running = .gt

lemma latest_proper (role : String) (ha : a.Reads) (m : Machine) : Proper role a m := by
  have hmoved := runLatest_moved role ha m
  refine ⟨?_, ?_, ?_⟩
  · intro p hp
    generalize runLatest role m a = m' at hmoved
    cases hmoved with
    | nothing | considered | checked => exact ⟨p, hp, le_rfl⟩
    | stored h =>
      obtain ⟨p', -, -, hp', haccept⟩ := h.storedPointer
      obtain ⟨-, -, hseen, -⟩ := acceptPointer_ok haccept
      exact ⟨p', hp', hseen p.issued (by rw [hp]; rfl)⟩
  · generalize runLatest role m a = m' at hmoved
    cases hmoved with
    | nothing | considered | checked => exact .inl rfl
    | stored h =>
      obtain ⟨p, hp, hbytes, -, haccept⟩ := h.storedPointer
      obtain ⟨hrole, hahead, -, -⟩ := acceptPointer_ok haccept
      exact .inr ⟨hbytes, h.verified, p, hp, hrole, hahead⟩
  · intro v m' hm
    obtain ⟨p, -, -, hp, haccept⟩ := (wp_ok (latest_moves role ha m) hm).storedPointer
    obtain ⟨rfl, hgt⟩ := (acceptPointer_ok haccept).2.2.2 v rfl
    exact ⟨p, hp, rfl, hgt⟩

def Apart (t u : ℤ × Bool) : Prop := (pointerIntervalSecs : ℤ) ≤ |u.1 - t.1|

lemma le_abs_of_not_within {now t : ℤ} (h : within now t = false) : (pointerIntervalSecs : ℤ) ≤ |now - t| := by
  by_contra hlt
  have hlt : |now - t| < 3600 := not_le.mp hlt
  obtain ⟨hlo, hhi⟩ := abs_lt.mp hlt
  have hmod : (now - t).bmod (2 ^ 64) = now - t := Int.bmod_eq_of_le_mul_two (by omega) (by omega)
  rw [within, hmod] at h
  have hge : ¬ (now - t).natAbs < 3600 := of_decide_eq_false h
  omega

/-- The pace `latest` keeps: the calls considered are apart, and `considered` is the last. -/
structure Paced (m : Machine) : Prop where
  last : ∀ t, m.tried.getLast? = some t → m.store.considered = some t.1
  apart : m.tried.IsChain Apart

lemma Paced.snoc {m : Machine} {now : ℤ} {ran : Bool} (h : Paced m)
    (hfar : m.store.considered.any (within now) = false) (htried : m'.tried = m.tried ++ [(now, ran)])
    (hnow : m'.store.considered = some now) : Paced m' := by
  refine ⟨?_, ?_⟩
  · intro t ht
    obtain rfl : (now, ran) = t := by simpa [htried] using ht
    exact hnow
  · rw [htried, isChain_append]
    refine ⟨h.apart, isChain_singleton _, ?_⟩
    intro t ht u hu
    obtain rfl : (now, ran) = u := by simpa using hu
    have hlast := h.last t ht
    rw [hlast] at hfar
    exact le_abs_of_not_within (by simpa using hfar)

lemma Moved.tried {m : Machine} (h : Moved role a m m') :
    m' = m ∨ m.store.considered.any (within a.now) = false ∧ m'.store.considered = some a.now ∧
      ∃ ran, m'.tried = m.tried ++ [(a.now, ran)] := by
  cases h with
  | nothing => exact .inl rfl
  | considered hfar => exact .inr ⟨hfar, rfl, false, rfl⟩
  | checked hfar => exact .inr ⟨hfar, rfl, true, by simp [Machine.check, Machine.consider]⟩
  | stored h =>
    obtain rfl := h.stored
    exact .inr ⟨h.apart, rfl, true, by simp [Machine.edit, Machine.check, Machine.consider]⟩

lemma run_paced (role : String) (hreads : ∀ a ∈ calls, a.Reads) {m : Machine} (h : Paced m) :
    Paced (calls.foldl (runLatest role) m) := by
  induction calls generalizing m with
  | nil => exact h
  | cons a calls ih =>
    refine ih (fun b hb => hreads b (mem_cons_of_mem a hb)) ?_
    rcases (runLatest_moved role (hreads a mem_cons_self) m).tried with
      heq | ⟨hfar, hnow, ran, htried⟩
    · rwa [heq]
    · exact h.snoc hfar htried hnow

lemma run_tried (role : String) (hreads : ∀ a ∈ calls, a.Reads) (m : Machine) :
    ((calls.foldl (runLatest role) m).tried.map Prod.fst).Sublist
      (m.tried.map Prod.fst ++ calls.map LatestArgs.now) := by
  induction calls generalizing m with
  | nil => simp
  | cons a calls ih =>
    refine (ih (fun b hb => hreads b (mem_cons_of_mem a hb)) (runLatest role m a)).trans ?_
    rcases (runLatest_moved role (hreads a mem_cons_self) m).tried with
      heq | ⟨-, -, ran, htried⟩
    · rw [heq]
      exact List.Sublist.append_left (sublist_cons_self _ _) _
    · rw [htried]
      simp

lemma run_role (role : String) (hreads : ∀ a ∈ calls, a.Reads) {m : Machine}
    (h : ∀ p, m.store.storedPointer = some p → p.role = role) :
    ∀ p, (calls.foldl (runLatest role) m).store.storedPointer = some p → p.role = role := by
  induction calls generalizing m with
  | nil => exact h
  | cons a calls ih =>
    refine ih (fun b hb => hreads b (mem_cons_of_mem a hb)) ?_
    intro p hp
    rcases (latest_proper role (hreads a mem_cons_self) m).grounds with
      hsame | ⟨hbytes, -, q, hq, hrole, -⟩
    · exact h p (by rwa [Store.storedPointer, hsame] at hp)
    · rw [Store.storedPointer, hbytes] at hp
      obtain rfl : q = p := Option.some.inj (hq.symm.trans hp)
      exact hrole

/-- The clocks of the calls in which the check of the signature ran. -/
def Machine.ranAt (m : Machine) : List ℤ := (m.tried.filter Prod.snd).map Prod.fst

def Later (t u : ℤ) : Prop := t + (pointerIntervalSecs : ℤ) ≤ u

instance : Trans Later Later Later := ⟨fun htu huv => by unfold Later at *; omega⟩

lemma Paced.ranAt {m : Machine} (h : Paced m) (hclock : (m.tried.map Prod.fst).Pairwise (· ≤ ·)) :
    m.ranAt.Pairwise Later := by
  have hle := (pairwise_map.mp hclock).isChain
  have hstep : (m.tried.map Prod.fst).IsChain Later := by
    rw [isChain_map, isChain_iff_forall_rel_of_append_cons_cons]
    intro t u pre post hsplit
    have hfar := isChain_iff_forall_rel_of_append_cons_cons.mp h.apart hsplit
    have htu := isChain_iff_forall_rel_of_append_cons_cons.mp hle hsplit
    rw [Apart, abs_of_nonneg (by omega)] at hfar
    rw [Later]
    omega
  have hall := pairwise_map.mp (isChain_iff_pairwise.mp hstep)
  exact pairwise_map.mpr (hall.filter _)

def Store.opened (s : Store) : Machine := ⟨s, [], [], 0⟩

theorem pointer_history (role : String) (s : Store) (calls : List LatestArgs)
    (hreads : ∀ a ∈ calls, a.Reads) (hrole : ∀ p, s.storedPointer = some p → p.role = role) :
    Along (runLatest role) (Proper role) calls s.opened ∧
      (∀ p, (calls.foldl (runLatest role) s.opened).store.storedPointer = some p → p.role = role) ∧
      (calls.foldl (runLatest role) s.opened).tried.IsChain Apart ∧
      ((calls.map LatestArgs.now).Pairwise (· ≤ ·) → (calls.foldl (runLatest role) s.opened).ranAt.Pairwise Later) := by
  have hpaced : Paced (calls.foldl (runLatest role) s.opened) :=
    run_paced role hreads ⟨by simp [Store.opened], isChain_nil⟩
  refine ⟨?_, run_role role hreads hrole, hpaced.apart, ?_⟩
  · exact Along.of_forall (fun a ha m => latest_proper role (hreads a ha) m) _
  · intro hclock
    exact hpaced.ranAt (List.Pairwise.sublist (run_tried role hreads s.opened) (by simpa [Store.opened]))

def statement (issued : String) : String :=
  String.ofList ("KRYPTIK-LATEST-1\nrole: r\nversion: 2\nissued: ".toList ++ issued.toList ++
    "\nmanifest-sha256: ".toList ++ List.replicate 64 '0' ++ "\nbase: b\n".toList)

def stated (issued : ℤ) : Pointer := ⟨"r", "2", issued, String.ofList (List.replicate 64 '0'), "b"⟩

lemma pointerIn_toUTF8 {text : String} (h : (parsePointer text).toOption = some p) :
    pointerIn text.toUTF8 = some p := by
  have htext : String.fromUTF8? text.toUTF8 = some text := by
    unfold String.fromUTF8?
    rw [String.toUTF8_eq_toByteArray, dif_pos text.isValidUTF8]
    rfl
  rw [pointerIn, htext]
  exact h

lemma statement_2001 : pointerIn (statement "2001-01-01T00:00:00Z").toUTF8 = some (stated 978307200) := by
  refine pointerIn_toUTF8 ?_
  unfold parsePointer statement
  rw [String.toList_ofList]
  decide +kernel

lemma statement_2002 : pointerIn (statement "2002-01-01T00:00:00Z").toUTF8 = some (stated 1009843200) := by
  refine pointerIn_toUTF8 ?_
  unfold parsePointer statement
  rw [String.toList_ofList]
  decide +kernel

def Store.empty : Store := ⟨none, none, none, none, none, false, none, fun _ => none, 0⟩

def LatestIo.fine : LatestIo := ⟨.done, .done, .done, .done, .done, .done, .done⟩

def in2002 (pointer : ByteArray) (io : LatestIo) : LatestArgs :=
  ⟨1010000000, "1", pointer, .ok (), io⟩

/-- Two statements, the second older and at once after the first. -/
theorem pointer_history_twice :
    let calls := [in2002 (statement "2002-01-01T00:00:00Z").toUTF8 .fine,
      in2002 (statement "2001-01-01T00:00:00Z").toUTF8 .fine]
    (∀ a ∈ calls, a.Reads) ∧ Along (runLatest "r") (Proper "r") calls Store.empty.opened := by
  intro calls
  have hreads : ∀ a ∈ calls, a.Reads := by decide
  exact ⟨hreads, (pointer_history "r" Store.empty calls hreads (fun p hp => by cases hp)).1⟩

lemma storedPointer_of {s : Store} {bytes : ByteArray} (h : s.pointer = some bytes) :
    s.storedPointer = pointerIn bytes := by rw [Store.storedPointer, h, bind_some]

lemma replaced_unread {s : Store} (hconsidered : s.considered = none)
    (hio : a.io = { LatestIo.fine with readPointer := .failed }) (hverdict : a.verdict = .ok ())
    (hp : pointerIn a.pointer = some p) (haccept : acceptPointer p role a.running none a.now = .ok standing) :
    (runLatest role s.opened a).store.storedPointer = some p := by
  obtain ⟨text, htext, hparse⟩ := bind_eq_some_iff.mp hp
  have hparse := toOption_eq_some.mp hparse
  have hnone : (s.opened.edit id).store.considered = none := hconsidered
  refine after_of_wp (P := fun m => m.store.storedPointer = some p) ?_
  simp only [latest, LatestIo.fine, hio, hnone, htext, hverdict, hparse, haccept, wp_bind, wp_must_done,
    wp_mustChange_done, wp_look_done, wp_look_failed, wp_orRefuse_some, wp_orElseRefuse_ok, any_none,
    map_none, Bool.false_eq_true, if_false, wp_modify]
  exact (storedPointer_of rfl).trans hp

lemma acceptable_2001 : acceptPointer (stated 978307200) "r" "1" none 1010000000 = .ok (.available "2") := by
  have hgt : versionCmp "2" "1" = .gt := by
    have h2 : "2".toUTF8.data.toList = [50] := by decide +kernel
    have h1 : "1".toUTF8.data.toList = [49] := by decide +kernel
    rw [versionCmp, h2, h1]
    simp [compareVersions, isDigitByte, compareRuns]
    decide
  have hlate : ¬ min ((1010000000 : ℤ) + maxAheadSecs) i64Max < 978307200 := by decide
  simp only [acceptPointer, stated, ne_eq, not_true, if_false, hlate, any_none, Bool.false_eq_true, hgt, if_true]

/-- The statement of 2002 is stored; its read fails, and the one of 2001 takes its place. -/
theorem unread_pointer_replaced :
    let m := { Store.empty with pointer := some (statement "2002-01-01T00:00:00Z").toUTF8 }.opened
    let a := in2002 (statement "2001-01-01T00:00:00Z").toUTF8 { LatestIo.fine with readPointer := .failed }
    m.store.storedPointer = some (stated 1009843200) ∧
      (runLatest "r" m a).store.storedPointer = some (stated 978307200) := by
  have h2002 := statement_2002
  have h2001 := statement_2001
  generalize (statement "2001-01-01T00:00:00Z").toUTF8 = older at h2001 ⊢
  exact ⟨(storedPointer_of rfl).trans h2002, replaced_unread rfl rfl rfl h2001 acceptable_2001⟩

end Kryptik.Kryptikd.Update
