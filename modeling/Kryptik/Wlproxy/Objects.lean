import Kryptik.Lib.Slots
import Kryptik.Wlproxy.Endpoint

namespace Kryptik.Wlproxy

open Lib Wire Protocol List

abbrev Obj := Interface × ℕ

structure Objects where
  client : List (Option Obj)
  server : List (Option Obj)
  live : ℕ

namespace Objects

def new (display : Obj) : Objects := ⟨[none, some display], [], 1⟩

def slot (o : Objects) (id : ℕ) : Option (Option Obj) :=
  if id < serverIdBase then o.client[id]? else o.server[id - serverIdBase]?

def setSlot (o : Objects) (id : ℕ) (x : Option Obj) : Objects :=
  if id < serverIdBase then { o with client := o.client.set id x }
  else { o with server := o.server.set (id - serverIdBase) x }

/-- Whether `id` is the next slot of its range, and its range may still grow. -/
def isNext (o : Objects) (id : ℕ) : Bool :=
  if id < serverIdBase then id = o.client.length && o.client.length < Policy.maxIdSlots
  else id - serverIdBase = o.server.length && o.server.length < Policy.maxIdSlots

def pushSlot (o : Objects) (id : ℕ) (x : Option Obj) : Objects :=
  if id < serverIdBase then { o with client := o.client ++ [x] }
  else { o with server := o.server ++ [x] }

def get (o : Objects) (id : ℕ) : Option Obj := (o.slot id).join

def insert (o : Objects) (id : ℕ) (x : Obj) : Except SessionError Objects :=
  match o.slot id with
  | some (some _) => .error (.duplicateObject id)
  | some none =>
    if Policy.maxObjects ≤ o.live then .error .tooManyObjects
    else .ok { o.setSlot id (some x) with live := o.live + 1 }
  | none =>
    if Policy.maxObjects ≤ o.live then .error .tooManyObjects
    else if o.isNext id then .ok { o.pushSlot id (some x) with live := o.live + 1 }
    else .error (.sparseId id)

def remove (id : ℕ) : EStateM Fault Objects Unit := do
  let o ← MonadState.get
  match o.get id with
  | some _ =>
    let live ← checkedSub o.live 1
    set { o.setSlot id none with live := live }
  | none => return

/-- The lowest free server id, for an object the proxy creates itself. -/
def freeServerId (o : Objects) : Option ℕ :=
  let i := (o.server.findIdx? Option.isNone).getD o.server.length
  if i < Policy.maxIdSlots then some (serverIdBase + i) else none

section

variable {o o' : Objects} {id : ℕ} {x : Obj} {old new : Option Obj}

lemma get_eq (o : Objects) (id : ℕ) : o.get id =
    if id < serverIdBase then Slots.get o.client id else Slots.get o.server (id - serverIdBase) := by
  unfold get slot
  split <;> rfl

lemma get_new (display : Obj) (id : ℕ) : (Objects.new display).get id = if id = 1 then some display else none := by
  unfold get slot Objects.new
  match id with
  | 0 | 1 => rfl
  | id + 2 =>
    split <;> simp

def count (p : Obj → Bool) (o : Objects) : ℕ := Slots.count p o.client + Slots.count p o.server

lemma get_setSlot (h : o.slot id = some old) (y : ℕ) :
    (o.setSlot id new).get y = if y = id then new else o.get y := by
  unfold slot at h
  rw [get_eq, get_eq]
  unfold setSlot
  by_cases hid : id < serverIdBase
  · rw [if_pos hid] at h ⊢
    by_cases hy : y < serverIdBase
    · rw [if_pos hy, if_pos hy, Slots.get_set (List.getElem?_eq_some_iff.mp h).1]
    · rw [if_neg hy, if_neg hy, if_neg (by omega)]
  · rw [if_neg hid] at h ⊢
    by_cases hy : y < serverIdBase
    · rw [if_pos hy, if_pos hy, if_neg (by omega)]
    · rw [if_neg hy, if_neg hy, Slots.get_set (List.getElem?_eq_some_iff.mp h).1]
      exact if_congr (by omega) rfl rfl

lemma get_pushSlot (h : o.isNext id = true) (y : ℕ) :
    (o.pushSlot id new).get y = if y = id then new else o.get y := by
  unfold isNext at h
  rw [get_eq, get_eq]
  unfold pushSlot
  by_cases hid : id < serverIdBase
  · simp only [if_pos hid, Bool.and_eq_true, decide_eq_true_eq] at h ⊢
    by_cases hy : y < serverIdBase
    · rw [if_pos hy, if_pos hy, Slots.get_push, h.1]
    · rw [if_neg hy, if_neg hy, if_neg (by omega)]
  · simp only [if_neg hid, Bool.and_eq_true, decide_eq_true_eq] at h ⊢
    by_cases hy : y < serverIdBase
    · rw [if_pos hy, if_pos hy, if_neg (by omega)]
    · rw [if_neg hy, if_neg hy, Slots.get_push]
      exact if_congr (by omega) rfl rfl

lemma count_setSlot (p : Obj → Bool) (h : o.slot id = some old) (new : Option Obj) :
    count p (o.setSlot id new) + (old.any p).toNat = count p o + (new.any p).toNat := by
  unfold slot at h
  unfold count setSlot
  split at h
  · rw [if_pos ‹_›]
    have := Slots.count_set p h new
    dsimp only
    omega
  · rw [if_neg ‹_›]
    have := Slots.count_set p h new
    dsimp only
    omega

lemma count_pushSlot (p : Obj → Bool) (o : Objects) (id : ℕ) (new : Option Obj) :
    count p (o.pushSlot id new) = count p o + (new.any p).toNat := by
  unfold count pushSlot
  split <;> simp only [Slots.count_push] <;> omega

structure Inserted (o : Objects) (id : ℕ) (x : Obj) (o' : Objects) : Prop where
  free : o.get id = none
  get : ∀ y, o'.get y = if y = id then some x else o.get y
  count : ∀ p, o'.count p = o.count p + (p x).toNat
  live : o'.live = o.live + 1
  dense : id < serverIdBase → id ≤ o.client.length ∧ o'.client.length = max o.client.length (id + 1)
  client : serverIdBase ≤ id → o'.client = o.client

lemma Inserted.kept (h : Inserted o id x o') {y : ℕ} {z : Obj} (hy : o.get y = some z) : o'.get y = some z := by
  rw [h.get, if_neg, hy]
  rintro rfl
  cases h.free.symm.trans hy

lemma inserted (h : o.insert id x = .ok o') : Inserted o id x o' := by
  unfold insert at h
  split at h
  · cases h
  · rename_i hs
    split at h
    · cases h
    cases h
    refine ⟨by simp [Objects.get, hs], get_setSlot hs, fun p => ?_, rfl, fun hid => ?_, fun hid => ?_⟩
    · exact count_setSlot p hs (some x)
    · rw [slot, if_pos hid] at hs
      have := (List.getElem?_eq_some_iff.mp hs).1
      simp only [setSlot, if_pos hid, length_set]
      omega
    · simp [setSlot, if_neg (Nat.not_lt.mpr hid)]
  · rename_i hs
    split at h
    · cases h
    split at h
    · rename_i hn
      cases h
      refine ⟨by simp [Objects.get, hs], get_pushSlot hn, fun p => count_pushSlot p o id (some x), rfl,
        fun hid => ?_, fun hid => ?_⟩
      · simp only [isNext, if_pos hid, Bool.and_eq_true, decide_eq_true_eq] at hn
        simp only [pushSlot, if_pos hid, length_append, length_singleton]
        omega
      · simp [pushSlot, if_neg (Nat.not_lt.mpr hid)]
    · cases h

def erase (o : Objects) (id : ℕ) : Objects :=
  if (o.get id).isSome then { o.setSlot id none with live := o.live - 1 } else o

lemma slot_of_get (h : o.get id = some x) : o.slot id = some (some x) := Option.join_eq_some_iff.mp h

lemma get_erase (o : Objects) (id y : ℕ) : (o.erase id).get y = if y = id then none else o.get y := by
  unfold erase
  cases h : o.get id with
  | none =>
    split
    · contradiction
    · split
      · rw [‹y = id›, h]
      · rfl
  | some x => exact get_setSlot (slot_of_get h) y

lemma count_erase (p : Obj → Bool) (h : o.get id = some x) : count p (o.erase id) + (p x).toNat = count p o := by
  simp only [erase, h, Option.isSome_some, if_true]
  exact count_setSlot p (slot_of_get h) none

lemma length_client_erase (o : Objects) (id : ℕ) : (o.erase id).client.length = o.client.length := by
  unfold erase setSlot
  split
  · split <;> simp
  · rfl

def Counted (o : Objects) : Prop := o.live = o.count (fun _ => true)

lemma Inserted.counted (h : Inserted o id x o') (hc : o.Counted) : o'.Counted := by
  unfold Counted at hc ⊢
  rw [h.live, h.count, hc]
  rfl

lemma Counted.erase (hc : o.Counted) (id : ℕ) : (o.erase id).Counted := by
  cases h : o.get id with
  | none =>
    have he : o.erase id = o := by simp [Objects.erase, h]
    exact he.symm ▸ hc
  | some x =>
    have hn := count_erase (fun _ => true) h
    unfold Counted at hc ⊢
    have hl : (o.erase id).live = o.live - 1 := by simp [Objects.erase, h]
    rw [hl, hc, ← hn]
    rfl

structure Bounded (o : Objects) : Prop where
  live : o.live ≤ Policy.maxObjects
  client : o.client.length ≤ Policy.maxIdSlots
  server : o.server.length ≤ Policy.maxIdSlots

lemma bounded_new (display : Obj) : (Objects.new display).Bounded where
  live := (by decide : 1 ≤ Policy.maxObjects)
  client := (by decide : 2 ≤ Policy.maxIdSlots)
  server := Nat.zero_le _

lemma Bounded.setSlot (h : o.Bounded) (id : ℕ) (x : Option Obj) {live : ℕ} (hl : live ≤ Policy.maxObjects) :
    Bounded { o.setSlot id x with live := live } := by
  unfold Objects.setSlot
  split
  · exact ⟨hl, by simpa using h.client, h.server⟩
  · exact ⟨hl, h.client, by simpa using h.server⟩

lemma Bounded.insert (h : o.Bounded) (hi : o.insert id x = .ok o') : o'.Bounded := by
  unfold Objects.insert at hi
  split at hi
  · cases hi
  · split at hi
    · cases hi
    · cases hi
      exact h.setSlot id (some x) (by omega)
  · split at hi
    · cases hi
    split at hi
    · rename_i hfull hnext
      cases hi
      unfold isNext at hnext
      unfold pushSlot
      split at hnext
      · rw [if_pos ‹_›]
        simp only [Bool.and_eq_true, decide_eq_true_eq] at hnext
        exact ⟨by simp only; omega, by simp only [length_append, length_singleton]; omega, h.server⟩
      · rw [if_neg ‹_›]
        simp only [Bool.and_eq_true, decide_eq_true_eq] at hnext
        exact ⟨by simp only; omega, h.client, by simp only [length_append, length_singleton]; omega⟩
    · cases hi

lemma Bounded.erase (h : o.Bounded) (id : ℕ) : (o.erase id).Bounded := by
  have hlive := h.live
  unfold Objects.erase
  split
  · exact h.setSlot id none (by omega)
  · exact h

lemma wp_remove (o : Objects) (id : ℕ) : Prog.wp (remove id) (fun _ o' => o' = o.erase id)
    (fun e _ => e = .panic ∧ ¬ o.Counted) o := by
  unfold remove
  simp only [Prog.wp_bind, Prog.wp_get]
  cases h : o.get id with
  | none => simp [erase, h]
  | some x =>
    simp only [Prog.wp_bind]
    refine Prog.wp_ite (fun _ => ?_) fun hl => ⟨rfl, fun hc => hl ?_⟩
    · simp [erase, h]
    · have hn := count_erase (fun _ => true) h
      rw [hc, ← hn]
      exact Nat.le_add_left _ _

end

end Objects

end Kryptik.Wlproxy
