import Mathlib

namespace Kryptik.Lib.Tables

open List

variable {K V : Type} [DecidableEq K]

abbrev Table (K V : Type) := AList (fun _ : K => V)

def total (f : K → V → ℕ) (m : Table K V) : ℕ := (m.entries.map fun e => f e.1 e.2).sum

def size (m : Table K V) : ℕ := m.entries.length

variable (f : K → V → ℕ) {m : Table K V} {k k' : K} {v : V}

omit [DecidableEq K] in
@[simp] lemma total_empty : total f (∅ : Table K V) = 0 := rfl

lemma sum_kerase (l : List (Σ _ : K, V)) (h : l.dlookup k = some v) :
    f k v + ((l.kerase k).map fun e => f e.1 e.2).sum = (l.map fun e => f e.1 e.2).sum := by
  induction l with
  | nil => simp at h
  | cons e l ih =>
    obtain ⟨a, b⟩ := e
    by_cases ha : k = a
    · subst a
      obtain rfl : b = v := by simpa [dlookup] using h
      simp
    · have ht : l.dlookup k = some v := by simpa [dlookup, Ne.symm ha] using h
      have hc : kerase k (⟨a, b⟩ :: l) = (⟨a, b⟩ : Σ _ : K, V) :: l.kerase k :=
        kerase_cons_ne ha
      simp only [hc, map_cons, sum_cons, ← ih ht]
      omega

lemma total_erase (h : m.lookup k = some v) : f k v + total f (m.erase k) = total f m :=
  sum_kerase f m.entries h

lemma total_insert (h : m.lookup k = none) (v : V) : total f (m.insert k v) = f k v + total f m := by
  have hk : k ∉ m.entries.keys := AList.lookup_eq_none.mp h
  simp [total, AList.entries_insert, kerase_of_notMem_keys hk]

lemma total_update (h : m.lookup k = some v) (v' : V) : f k v + total f (m.insert k v') = f k v' + total f m := by
  have hs := sum_kerase f m.entries h
  simp only [total, AList.entries_insert, map_cons, sum_cons] at hs ⊢
  omega

lemma total_put (d : V) (hd : f k d = 0) (m : Table K V) (v : V) :
    f k ((m.lookup k).getD d) + total f (m.insert k v) = f k v + total f m := by
  cases h : m.lookup k with
  | none => simp [hd, total_insert f h v]
  | some w => exact total_update f h v

lemma le_total (h : m.lookup k = some v) : f k v ≤ total f m := by
  have := total_erase f h
  omega

lemma total_congr {g : K → V → ℕ} (h : ∀ k v, m.lookup k = some v → f k v = g k v) : total f m = total g m := by
  unfold total
  congr 1
  refine map_congr_left (fun e he => h e.1 e.2 ?_)
  exact Option.mem_def.mp (AList.mem_lookup_iff.mpr he)

lemma total_eq_zero (h : ∀ k v, m.lookup k = some v → f k v = 0) : total f m = 0 := by
  rw [total_congr f (g := fun _ _ => 0) h]
  simp [total]

omit [DecidableEq K] in
lemma total_le_total {g : K → V → ℕ} (h : ∀ k v, f k v ≤ g k v) (m : Table K V) : total f m ≤ total g m := by
  unfold total
  induction m.entries with
  | nil => exact Nat.le_refl _
  | cons e l ih =>
    simp only [map_cons, sum_cons]
    exact Nat.add_le_add (h e.1 e.2) ih

omit [DecidableEq K] in
lemma size_eq_total (m : Table K V) : size m = total (fun _ _ => 1) m := by
  simp [size, total]

lemma lookup_entries {e : Σ _ : K, V} : e ∈ m.entries ↔ m.lookup e.1 = some e.2 :=
  (AList.mem_lookup_iff (s := m) (a := e.1) (b := e.2)).symm

lemma lookup_insert_if (m : Table K V) (k k' : K) (v : V) :
    (m.insert k v).lookup k' = if k' = k then some v else m.lookup k' := by
  split
  · subst k'; exact AList.lookup_insert m
  · exact AList.lookup_insert_ne ‹_›

lemma lookup_erase_if (m : Table K V) (k k' : K) : (m.erase k).lookup k' = if k' = k then none else m.lookup k' := by
  split
  · subst k'; exact AList.lookup_erase k m
  · exact AList.lookup_erase_ne ‹_›

lemma lookup_of_insert {w : V} (h : (m.insert k v).lookup k' = some w) :
    (k' = k ∧ w = v) ∨ (k' ≠ k ∧ m.lookup k' = some w) := by
  rw [lookup_insert_if] at h
  split at h
  · exact .inl ⟨‹_›, (Option.some.inj h).symm⟩
  · exact .inr ⟨‹_›, h⟩

lemma lookup_of_erase {w : V} (h : (m.erase k).lookup k' = some w) : k' ≠ k ∧ m.lookup k' = some w := by
  rw [lookup_erase_if] at h
  split at h
  · cases h
  · exact ⟨‹_›, h⟩

lemma mem_iff_lookup : k ∈ m ↔ ∃ v, m.lookup k = some v := by
  rw [← AList.lookup_isSome, Option.isSome_iff_exists]

lemma erase_insert_comm (h : k ≠ k') (m : Table K V) (v : V) : (m.insert k' v).erase k = (m.erase k).insert k' v := by
  apply AList.ext
  simp only [AList.erase, AList.entries_insert]
  rw [kerase_cons_ne h, kerase_comm]

end Kryptik.Lib.Tables
