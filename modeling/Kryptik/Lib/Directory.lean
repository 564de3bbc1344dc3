import Mathlib

namespace Kryptik.Lib.Directory

open List

variable {α β : Type} [DecidableEq α] {d : List (α × β)} {k k' : α} {v : β}

def names (d : List (α × β)) : List α := d.map Prod.fst

def get (d : List (α × β)) (k : α) : Option β := d.lookup k

def put (place : ℕ) (k : α) (v : β) (d : List (α × β)) : List (α × β) :=
  if k ∈ names d then d.map (fun e => if e.1 = k then (k, v) else e)
  else d.take place ++ (k, v) :: d.drop place

def remove (k : α) (d : List (α × β)) : List (α × β) := d.filter (fun e => e.1 ≠ k)

lemma get_cons (e : α × β) (d : List (α × β)) (k : α) : get (e :: d) k = if k = e.1 then some e.2 else get d k := by
  obtain ⟨a, b⟩ := e
  by_cases h : k = a <;> simp [get, List.lookup, h, beq_eq_false_iff_ne.mpr]

lemma get_isSome : (get d k).isSome ↔ k ∈ names d := by
  induction d with
  | nil => simp [get, names]
  | cons e d ih =>
    rw [get_cons]
    split_ifs with h
    · simp [names, h]
    · simp [ih, names, h]

lemma get_eq_none : get d k = none ↔ k ∉ names d := by
  rw [← get_isSome, Option.not_isSome_iff_eq_none]

lemma get_append (d d' : List (α × β)) (k : α) : get (d ++ d') k = (get d k).or (get d' k) := by
  induction d with
  | nil => rfl
  | cons e d ih =>
    rw [cons_append, get_cons, get_cons, ih]
    split_ifs <;> rfl

lemma names_put_of_mem (place : ℕ) (h : k ∈ names d) : names (put place k v d) = names d := by
  rw [put, if_pos h]
  simp only [names, map_map]
  apply map_congr_left
  intro e _
  by_cases he : e.1 = k <;> simp [he]

lemma names_put_of_not_mem (place : ℕ) (h : k ∉ names d) :
    names (put place k v d) = (names d).take place ++ k :: (names d).drop place := by
  rw [put, if_neg h]
  simp [names, map_take, map_drop]

lemma get_map_update (d : List (α × β)) (k : α) (v : β) (k' : α) :
    get (d.map (fun e => if e.1 = k then (k, v) else e)) k' =
      if k' = k then (get d k).map (fun _ => v) else get d k' := by
  induction d with
  | nil => simp [get]
  | cons e d ih =>
    rw [map_cons, get_cons, get_cons, get_cons]
    by_cases he : e.1 = k <;> by_cases hk : k' = k <;> by_cases hke : k' = e.1 <;> simp_all

lemma get_put (place : ℕ) (k : α) (v : β) (d : List (α × β)) (k' : α) :
    get (put place k v d) k' = if k' = k then some v else get d k' := by
  by_cases h : k ∈ names d
  · rw [put, if_pos h, get_map_update]
    obtain ⟨w, hw⟩ := Option.isSome_iff_exists.mp (get_isSome.mpr h)
    simp [hw]
  · rw [put, if_neg h, get_append, get_cons]
    have hsplit := get_append (d.take place) (d.drop place) k'
    rw [take_append_drop] at hsplit
    by_cases hk : k' = k
    · have hnone : get (d.take place) k' = none := by
        rw [get_eq_none, hk]
        exact fun hmem => h (map_subset _ (take_subset place d) hmem)
      rw [if_pos hk, if_pos hk, hnone]
      rfl
    · rw [if_neg hk, if_neg hk]
      exact hsplit.symm

lemma get_remove (k : α) (d : List (α × β)) (k' : α) : get (remove k d) k' = if k' = k then none else get d k' := by
  induction d with
  | nil => simp [get, remove]
  | cons e d ih =>
    by_cases he : e.1 = k
    · have hcons : remove k (e :: d) = remove k d := by simp [remove, he]
      rw [hcons, ih, get_cons, he]
      split_ifs <;> rfl
    · have hcons : remove k (e :: d) = e :: remove k d := by simp [remove, he]
      rw [hcons, get_cons, get_cons, ih]
      by_cases hk : k' = k
      · rw [if_neg (fun h => he (h.symm.trans hk)), if_pos hk, if_pos hk]
      · rw [if_neg hk, if_neg hk]

end Kryptik.Lib.Directory
