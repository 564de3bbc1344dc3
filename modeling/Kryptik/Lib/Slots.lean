import Mathlib

namespace Kryptik.Lib.Slots

open List

variable {α : Type} {l : List (Option α)} {i j : ℕ} {x old : Option α} {a : α}

def get (l : List (Option α)) (i : ℕ) : Option α := l[i]?.join

def count (p : α → Bool) (l : List (Option α)) : ℕ := l.countP (Option.any p)

lemma get_set (h : i < l.length) (j : ℕ) : get (l.set i x) j = if j = i then x else get l j := by
  unfold get
  rw [getElem?_set]
  by_cases hj : i = j
  · simp [hj, hj ▸ h]
  · rw [if_neg hj, if_neg (Ne.symm hj)]

lemma get_push (l : List (Option α)) (x : Option α) (j : ℕ) :
    get (l ++ [x]) j = if j = l.length then x else get l j := by
  unfold get
  rw [getElem?_append]
  obtain hj | hj | hj := Nat.lt_trichotomy j l.length
  · rw [if_pos hj, if_neg (Nat.ne_of_lt hj)]
  · simp [hj]
  · have hn : l[j]? = none := getElem?_eq_none (Nat.le_of_lt hj)
    have hs : [x][j - l.length]? = none := getElem?_eq_none (by simp; omega)
    rw [if_neg (Nat.lt_asymm hj), if_neg (Nat.ne_of_gt hj), hs, hn]

lemma count_set (p : α → Bool) (h : l[i]? = some old) (x : Option α) :
    count p (l.set i x) + (old.any p).toNat = count p l + (x.any p).toNat := by
  obtain ⟨hi, he⟩ := List.getElem?_eq_some_iff.mp h
  have hb (b : Bool) : (if b = true then 1 else 0) = b.toNat := by cases b <;> rfl
  have hle := boole_getElem_le_countP (p := Option.any p) hi
  unfold count
  rw [countP_set hi]
  simp only [he, hb] at hle ⊢
  omega

lemma count_push (p : α → Bool) (l : List (Option α)) (x : Option α) :
    count p (l ++ [x]) = count p l + (x.any p).toNat := by
  unfold count
  cases h : x.any p <;> simp [h]

@[simp] lemma get_nil (i : ℕ) : get ([] : List (Option α)) i = none := rfl

@[simp] lemma get_cons_zero (x : Option α) (l : List (Option α)) : get (x :: l) 0 = x := rfl

@[simp] lemma get_cons_succ (x : Option α) (l : List (Option α)) (i : ℕ) : get (x :: l) (i + 1) = get l i := rfl

lemma slot_of_get (h : get l i = some a) : l[i]? = some (some a) := Option.join_eq_some_iff.mp h

lemma get_map_bind (f : α → Option α) (l : List (Option α)) (i : ℕ) :
    get (l.map (fun x => x.bind f)) i = (get l i).bind f := by
  unfold get
  rw [getElem?_map]
  cases l[i]? <;> rfl

lemma count_le_count (p : α → Bool) {l l' : List (Option α)} (hlen : l'.length = l.length)
    (h : ∀ i a', get l' i = some a' → p a' = true → ∃ a, get l i = some a ∧ p a = true) :
    count p l' ≤ count p l := by
  induction l generalizing l' with
  | nil =>
    obtain rfl := length_eq_zero_iff.mp hlen
    exact Nat.le_refl _
  | cons x l ih =>
    obtain ⟨x', l', rfl⟩ := exists_cons_of_length_eq_add_one hlen
    have hrest : count p l' ≤ count p l :=
      ih (by simpa using hlen) fun i a' hget hp => h (i + 1) a' hget hp
    have hhead : (x'.any p).toNat ≤ (x.any p).toNat := by
      cases hx' : x'.any p with
      | false => exact Nat.zero_le _
      | true =>
        obtain ⟨a', rfl, hp⟩ := (Option.any_eq_true p x').mp hx'
        obtain ⟨a, ha, hpa⟩ := h 0 a' rfl hp
        subst ha
        simp [hpa]
    have hcons : ∀ (y : Option α) (k : List (Option α)), count p (y :: k) = count p k + (y.any p).toNat := by
      intro y k
      unfold count
      rw [countP_cons]
      cases y.any p <;> rfl
    rw [hcons, hcons]
    omega

end Kryptik.Lib.Slots
