import Kryptik.Efi.Entries

namespace Kryptik.Efi

open Lib Lib.Text List Option Store Words Slot

variable {esp : Part}
variable {s s' : Store} {io : Io} {slot : Slot} {v w : List Char} {order option ours : List UInt8} {n : ℕ}

def numbers : List UInt8 → List ℕ
  | lo :: hi :: rest => (lo.toNat + 256 * hi.toNat) :: numbers rest
  | _ => []

lemma holds_iff : ∀ {order : List UInt8}, holds order n = true ↔ n ∈ numbers order
  | [] | [_] => by simp [holds, numbers]
  | lo :: hi :: rest => by rw [holds, Bool.or_eq_true, beq_iff_eq, holds_iff, numbers, mem_cons, eq_comm]

lemma numbers_flatMap {ns : List ℕ} (h : ∀ n ∈ ns, n < 65536) : numbers (ns.flatMap (le 2)) = ns := by
  induction ns with
  | nil => rfl
  | cons n ns ih =>
    have hn : (UInt8.ofNat n).toNat + 256 * (UInt8.ofNat (n / 256)).toNat = n := by
      have := h n (by simp)
      simp only [UInt8.toNat_ofNat']
      omega
    have hshape : (n :: ns).flatMap (le 2) = UInt8.ofNat n :: UInt8.ofNat (n / 256) :: ns.flatMap (le 2) := by
      simp [le]
    rw [hshape, numbers, hn, ih fun m hm => h m (by simp [hm])]

lemma length_flatMap_le (ns : List ℕ) : (ns.flatMap (le 2)).length = 2 * ns.length := by
  simp [length_flatMap, Nat.mul_comm]

lemma flatMap_le_eq_nil {ns : List ℕ} : ns.flatMap (le 2) = [] ↔ ns = [] := by
  rw [← length_eq_zero_iff, length_flatMap_le, ← length_eq_zero_iff]
  omega

lemma flatMap_numbers : ∀ {order : List UInt8}, order.length % 2 = 0 → (numbers order).flatMap (le 2) = order
  | [], _ => rfl
  | [_], heven => absurd heven (by simp)
  | lo :: hi :: rest, heven => by
    have hlo := lo.toNat_lt
    have hhi := hi.toNat_lt
    have hlow : UInt8.ofNat (lo.toNat + 256 * hi.toNat) = lo := by
      apply UInt8.toNat.inj
      rw [UInt8.toNat_ofNat']
      omega
    have hhigh : UInt8.ofNat ((lo.toNat + 256 * hi.toNat) / 256) = hi := by
      apply UInt8.toNat.inj
      rw [UInt8.toNat_ofNat']
      omega
    rw [numbers, flatMap_cons, flatMap_numbers (by simp only [length_cons] at heven; omega)]
    simp [le, hlow, hhigh]

lemma numbers_append {rest : List UInt8} : ∀ {order : List UInt8}, order.length % 2 = 0 →
    numbers (order ++ rest) = numbers order ++ numbers rest
  | [], _ => rfl
  | [_], heven => absurd heven (by simp)
  | lo :: hi :: order, heven => congrArg _ (numbers_append (by simp only [length_cons] at heven; omega))

lemma kept_eq (ours : List UInt8) : ∀ order : List UInt8,
    kept ours order = ((numbers order).filter (fun e => e ∉ numbers ours)).flatMap (le 2)
  | [] | [_] => rfl
  | lo :: hi :: rest => by
    rw [kept, numbers, kept_eq ours rest]
    by_cases he : lo.toNat + 256 * hi.toNat ∈ numbers ours <;> simp [he, holds_iff]

namespace Store

def free (s : Store) (own : ℕ) (order : List UInt8) (k : ℕ) : Prop :=
  s.varExists (bootName ((own + k) % 65536)) = false ∧ (k = 0 ∨ holds order ((own + k) % 65536) = false)

lemma freeVar_cases (s : Store) (own : ℕ) (order : List UInt8) (tries k : ℕ) :
    (s.freeVar own order tries k = none ∧ ∀ j, k ≤ j → j < k + tries → ¬ s.free own order j) ∨
      ∃ j, s.free own order j ∧ s.freeVar own order tries k = some (bootName ((own + j) % 65536)) := by
  induction tries generalizing k with
  | zero => exact .inl ⟨rfl, fun j hk hj => absurd hj (by omega)⟩
  | succ tries ih =>
    by_cases hfree : s.free own order k
    · refine .inr ⟨k, hfree, ?_⟩
      unfold freeVar
      obtain ⟨hnew, hk⟩ := hfree
      rw [if_pos]
      simpa [hnew] using hk
    · have hnext : s.freeVar own order (tries + 1) k = s.freeVar own order tries (k + 1) := by
        conv_lhs => unfold freeVar
        rw [if_neg]
        intro hcond
        apply hfree
        simpa [free] using hcond
      rw [hnext]
      obtain ⟨hnone, hall⟩ | hsome := ih (k + 1)
      · refine .inl ⟨hnone, ?_⟩
        intro j hk hj
        obtain rfl | hlt := Nat.eq_or_lt_of_le hk
        · exact hfree
        · exact hall j hlt (by omega)
      · exact .inr hsome

lemma slotVar_cases (h : s.slotVar slot order = some v) : (v = bootName slot.own ∧ s.isOurs v (some slot) = true) ∨
    (s.isOurs (bootName slot.own) (some slot) = false ∧
      (((s.bootVars 256).find? (fun v => s.isOurs v (some slot)) = some v) ∨
        ((s.bootVars 256).find? (fun v => s.isOurs v (some slot)) = none ∧
          ∃ n < 65536, v = bootName n ∧ s.varExists v = false ∧ (n = slot.own ∨ holds order n = false)))) := by
  unfold slotVar at h
  split_ifs at h with hown
  · cases h
    exact .inl ⟨rfl, hown⟩
  · refine .inr ⟨Bool.eq_false_iff.mpr hown, ?_⟩
    split at h
    · rename_i u hu
      cases h
      exact .inl hu
    · rename_i hnone
      have hmod : slot.own % 65536 = slot.own := by cases slot <;> rfl
      obtain ⟨hfree, -⟩ | ⟨j, ⟨hnew, hunlisted⟩, hfree⟩ := freeVar_cases s slot.own order 65536 0
      · rw [hfree] at h
        exact absurd h (by simp)
      · rw [hfree] at h
        cases h
        refine .inr ⟨hnone, _, Nat.mod_lt _ (by decide), rfl, hnew, hunlisted.imp_left ?_⟩
        rintro rfl
        exact hmod

/-- A place for the slot's entry: one it has, its own number, or one that nothing uses. -/
def HasPlace (s : Store) (slot : Slot) (order : List UInt8) : Prop :=
  (∃ v ∈ s.bootNames, s.isOurs v (some slot) = true) ∨ s.varExists (bootName slot.own) = false ∨
    ∃ n < 65536, s.varExists (bootName n) = false ∧ holds order n = false

lemma slotVar_of_hasPlace (hcount : s.bootNames.length ≤ 256) (h : s.HasPlace slot order) :
    ∃ v, s.slotVar slot order = some v := by
  unfold slotVar
  split_ifs with hown
  · exact ⟨_, rfl⟩
  · split
    · exact ⟨_, rfl⟩
    · rename_i hnone
      obtain ⟨-, hall⟩ | ⟨j, -, hfree⟩ := freeVar_cases s slot.own order 65536 0
      · exfalso
        obtain ⟨v, hv, hours⟩ | hown | ⟨n, hn, hnew, hunlisted⟩ := h
        · rw [bootVars, take_of_length_le hcount, List.find?_eq_none] at hnone
          exact hnone v hv hours
        · apply hall 0 (Nat.le_refl 0) (by decide)
          have hmod : (slot.own + 0) % 65536 = slot.own := by cases slot <;> rfl
          exact ⟨by rwa [hmod], Or.inl rfl⟩
        · have hlt : slot.own < 65536 := by cases slot <;> decide
          have hmod : (slot.own + (n + 65536 - slot.own) % 65536) % 65536 = n := by omega
          apply hall ((n + 65536 - slot.own) % 65536) (Nat.zero_le _) (by omega)
          exact ⟨by rwa [hmod], Or.inr (by rwa [hmod])⟩
      · exact ⟨_, hfree⟩

/-- What `ensure_with` leaves: the entry, written unless it stands so, and its number in BootOrder. -/
structure Ensured (s s' : Store) (v : List Char) (order option : List UInt8) : Prop where
  entry : ∃ w, s'.var v = some w ∧ w.data = option
  order : (s'.var bootOrder = s.var bootOrder ∧ holds order (number v) = true) ∨
    ∃ w, s'.var bootOrder = some w ∧ w.data = order ++ Words.le 2 (number v)
  frame : ∀ file, file ≠ path v → file ≠ path bootOrder → Directory.get s'.files file = Directory.get s.files file
  names : (s.varExists v = true ∧ s'.bootNames = s.bootNames) ∨
    (s.varExists v = false ∧ ∃ before after, s.bootNames = before ++ after ∧
      s'.bootNames = before ++ (bootVar (path v)).toList ++ after)

lemma data_of_readVar (h : s.readVar v 1024 = some option) (hshort : option.length < 1020) :
    ∃ w, s.var v = some w ∧ w.data = option := by
  obtain ⟨w, hw, htake⟩ := map_eq_some_iff.mp h
  refine ⟨w, hw, ?_⟩
  have hlen := congrArg List.length htake
  rw [length_take] at hlen
  rw [← htake, take_of_length_le (by omega)]

lemma readVar_of_data {w : Var} (h : s.var v = some w) (hdata : w.data = option) (hshort : option.length < 1020) :
    s.readVar v 1024 = some option := by
  rw [readVar, h, map_some, hdata, take_of_length_le (by omega)]

end Store

lemma get_bind {α : Type} (f : Store → Command α) (s : Store) : (get >>= f) s = f s s := rfl

lemma ok_bind {α β : Type} {x : Command α} {a : α} (h : x s = .ok a s') (f : α → Command β) : (x >>= f) s = f a s' := by
  simp [bind, EStateM.bind, h]

lemma writeVar_ok (hio : ∀ name, io.fails name = false) (name : List Char) (data : List UInt8) (s : Store) :
    writeVar io name data s = .ok true (s.write io name data) := by
  simp only [writeVar, hio]
  rfl

lemma deleteVar_ok (hio : ∀ name, io.fails name = false) (name : List Char) (s : Store) :
    deleteVar io name s = .ok true (s.delete name) := by
  simp only [deleteVar, hio]
  rfl

def Store.withEntry (s : Store) (io : Io) (v : List Char) (option : List UInt8) : Store :=
  if s.readVar v 1024 = some option then s else s.write io v option

lemma ensureWith_eq (hio : ∀ name, io.fails name = false) (hvar : s.slotVar slot order = some v)
    (hoption : buildLoadOption esp slot.description slot.file = some option) :
    ensureWith io slot esp order s = .ok v
      (if holds order (number v) then s.withEntry io v option
        else (s.withEntry io v option).write io bootOrder (order ++ le 2 (number v))) := by
  by_cases hread : s.readVar v 1024 = some option <;> by_cases hlisted : holds order (number v) = true <;>
    simp [ensureWith, withEntry, get_bind, hvar, hoption, hread, hlisted, ok_bind (writeVar_ok hio ..)] <;> rfl

namespace Store

lemma withEntry_frame (hne : option ≠ []) {file : List Char} (hfile : file ≠ path v) :
    Directory.get (s.withEntry io v option).files file = Directory.get s.files file := by
  unfold withEntry
  split_ifs
  · rfl
  · exact file_write hne hfile

lemma withEntry_var (hlen : option.length = 140) :
    ∃ w, (s.withEntry io v option).var v = some w ∧ w.data = option := by
  have hne : option ≠ [] := ne_nil_of_length_eq_add_one hlen
  unfold withEntry
  split_ifs with hread
  · exact data_of_readVar hread (by omega)
  · exact ⟨_, (var_write hne v).trans (if_pos rfl), rfl⟩

lemma withEntry_names (hlen : option.length = 140) :
    (s.varExists v = true ∧ (s.withEntry io v option).bootNames = s.bootNames) ∨
    (s.varExists v = false ∧ ∃ before after, s.bootNames = before ++ after ∧
      (s.withEntry io v option).bootNames = before ++ (bootVar (path v)).toList ++ after) := by
  have hne : option ≠ [] := ne_nil_of_length_eq_add_one hlen
  unfold withEntry
  split_ifs with hread
  · obtain ⟨w, hw, -⟩ := data_of_readVar hread (by omega)
    exact .inl ⟨by rw [varExists, hw]; rfl, rfl⟩
  · by_cases hexists : s.varExists v = true
    · exact .inl ⟨hexists, bootNames_write_of_exists hne hexists⟩
    · exact .inr ⟨Bool.eq_false_iff.mpr hexists, bootNames_write_of_new io hne hexists⟩

end Store

lemma ensureWith_ensured (hio : ∀ name, io.fails name = false) (hvar : s.slotVar slot order = some v)
    (hoption : buildLoadOption esp slot.description slot.file = some option) (hv : v ≠ bootOrder) :
    ∃ s', ensureWith io slot esp order s = .ok v s' ∧ s.Ensured s' v order option := by
  have hlen := length_buildLoadOption hoption
  have hne : option ≠ [] := ne_nil_of_length_eq_add_one hlen
  have hpath : path bootOrder ≠ path v := fun h => hv (path_inj.mp h).symm
  refine ⟨_, ensureWith_eq hio hvar hoption, ?_⟩
  split_ifs with hlisted
  · refine ⟨withEntry_var hlen, .inl ⟨withEntry_frame hne hpath, hlisted⟩, ?_, withEntry_names hlen⟩
    intro file hfile _
    exact withEntry_frame hne hfile
  · have hdata : order ++ le 2 (number v) ≠ [] := by simp [le]
    refine ⟨?_, .inr ⟨_, (var_write hdata bootOrder).trans (if_pos rfl), rfl⟩, ?_, ?_⟩
    · rw [var_write hdata, if_neg hv]
      exact withEntry_var hlen
    · intro file hfile horder
      rw [file_write hdata horder]
      exact withEntry_frame hne hfile
    · rw [bootNames_write_order hdata]
      exact withEntry_names hlen

namespace Store

lemma Ensured.var_eq (h : s.Ensured s' v order option) (hv : w ≠ v) (horder : w ≠ bootOrder) : s'.var w = s.var w :=
  h.frame (path w) (fun he => hv (path_inj.mp he)) fun he => horder (path_inj.mp he)

lemma bootVar_of_mem (h : v ∈ s.bootNames) : bootVar (path v) = some v := by
  obtain ⟨file, -, hfile⟩ := mem_filterMap.mp h
  rw [← (bootVar_eq_some hfile).1]
  exact hfile

lemma ne_bootOrder_of_mem (h : v ∈ s.bootNames) : v ≠ bootOrder := by
  rintro rfl
  exact absurd (bootVar_of_mem h) (by decide)

lemma bootName_ne_bootOrder (n : ℕ) : bootName n ≠ bootOrder := by
  intro heq
  exact absurd (congrArg List.length heq) (show (8 : ℕ) ≠ 9 by decide)

lemma Ensured.slotVar_again (h : s.Ensured s' v order option) (hvar : s.slotVar slot order = some v)
    (hours : s'.isOurs v (some slot) = true) (hcount : s.bootNames.length ≤ 255) (order' : List UInt8) :
    s'.slotVar slot order' = some v := by
  by_cases hown : v = bootName slot.own
  · unfold slotVar
    rw [← hown, if_pos hours]
  have hsame : ∀ u, u ≠ v → u ≠ bootOrder → s'.isOurs u (some slot) = s.isOurs u (some slot) :=
    fun u hu hne => isOurs_congr (h.var_eq hu hne) _
  have hother := hsame _ (Ne.symm hown) (bootName_ne_bootOrder slot.own)
  have hfind : (s'.bootVars 256).find? (fun u => s'.isOurs u (some slot)) = some v →
      s.isOurs (bootName slot.own) (some slot) = false → s'.slotVar slot order' = some v := by
    intro hfind hnot
    unfold slotVar
    rw [hother, hnot, hfind]
    rfl
  obtain ⟨rfl, -⟩ | ⟨hnot, hfound | ⟨hnone, n, -, rfl, hnew, -⟩⟩ := slotVar_cases hvar
  · exact absurd rfl hown
  · have hwas := List.find?_some (p := fun u => s.isOurs u (some slot)) hfound
    obtain ⟨-, heq⟩ | ⟨hgone, -⟩ := h.names
    · apply hfind _ hnot
      rw [← hfound, bootVars, heq]
      apply List.find?_congr
      intro u hu
      by_cases huv : u = v
      · rw [huv, hours, hwas]
      · exact hsame u huv (ne_bootOrder_of_mem (mem_of_mem_take hu))
    · rw [varExists_of_isOurs hwas] at hgone
      exact absurd hgone (by decide)
  · obtain ⟨hexists, -⟩ | ⟨-, before, after, hold, hnow⟩ := h.names
    · rw [hnew] at hexists
      exact absurd hexists (by decide)
    rw [bootVar_path, toList_some] at hnow
    have hall : s'.bootVars 256 = s'.bootNames := by
      apply take_of_length_le
      rw [hold, length_append] at hcount
      rw [hnow, length_append, length_append, length_singleton]
      omega
    apply hfind _ hnot
    rw [hall]
    cases hsearch : s'.bootNames.find? (fun u => s'.isOurs u (some slot)) with
    | none =>
      rw [List.find?_eq_none] at hsearch
      exact absurd hours (hsearch _ (by simp [hnow]))
    | some u =>
      by_cases huv : u = bootName n
      · rw [huv]
      · have hu : u ∈ s.bootNames := by
          have hmem := mem_of_find?_eq_some hsearch
          rw [hnow] at hmem
          simpa [hold, huv] using hmem
        have huours := List.find?_some (p := fun u => s'.isOurs u (some slot)) hsearch
        rw [hsame u huv (ne_bootOrder_of_mem hu)] at huours
        rw [bootVars, take_of_length_le (by omega), List.find?_eq_none] at hnone
        exact absurd huours (hnone u hu)

lemma slotVar_target (h : s.slotVar slot order = some v)
    (hupper : ∀ v ∈ s.bootNames, ∀ c ∈ v.drop 4, isAsciiLowercase c = false) :
    (s.isOurs v (some slot) = true ∨ s.varExists v = false) ∧ ∃ n < 65536, v = bootName n := by
  have hown : slot.own < 65536 := by cases slot <;> decide
  obtain ⟨rfl, hours⟩ | ⟨-, hfound | ⟨-, n, hn, rfl, hnew, -⟩⟩ := slotVar_cases h
  · exact ⟨.inl hours, _, hown, rfl⟩
  · have hmem := mem_of_mem_take (mem_of_find?_eq_some hfound)
    refine ⟨.inl (List.find?_some (p := fun u => s.isOurs u (some slot)) hfound), number v, number_lt v, ?_⟩
    exact (bootName_number (bootVar_of_mem hmem) (hupper v hmem)).symm
  · exact ⟨.inr hnew, n, hn, rfl⟩

lemma hasPlace_of_slotVar (h : s.slotVar slot order = some v) : s.HasPlace slot order := by
  obtain ⟨rfl, hours⟩ | ⟨-, hfound | ⟨-, n, hn, rfl, hnew, rfl | hunlisted⟩⟩ := slotVar_cases h
  · exact .inl ⟨_, mem_bootNames (varExists_of_isOurs hours), hours⟩
  · exact .inl ⟨v, mem_of_mem_take (mem_of_find?_eq_some hfound),
      List.find?_some (p := fun u => s.isOurs u (some slot)) hfound⟩
  · exact .inr (.inl hnew)
  · exact .inr (.inr ⟨n, hn, hnew, hunlisted⟩)

def listed (s : Store) : List UInt8 := ((s.var bootOrder).map Var.data).getD []

lemma readOrder_eq (h : 4 + s.listed.length < orderCap) : s.readOrder = some s.listed := by
  unfold readOrder listed at *
  cases hv : s.var bootOrder with
  | none => rfl
  | some w =>
    simp only [hv, map_some, getD_some] at h ⊢
    rw [if_neg (by omega)]

lemma listed_of_readOrder (h : s.readOrder = some order) : order = s.listed := by
  unfold readOrder at h
  unfold listed
  cases hv : s.var bootOrder with
  | none =>
    rw [hv] at h
    exact (some_inj.mp h).symm
  | some w =>
    simp only [hv] at h
    split_ifs at h
    exact (some_inj.mp h).symm

lemma Ensured.listed (h : s.Ensured s' v s.listed option) (heven : s.listed.length % 2 = 0) :
    (s'.var bootOrder = s.var bootOrder ∨ s'.listed = s.listed ++ le 2 (number v)) ∧
      holds s'.listed (number v) = true := by
  obtain ⟨hsame, hholds⟩ | ⟨w, hw, hdata⟩ := h.order
  · refine ⟨.inl hsame, ?_⟩
    unfold Store.listed at hholds ⊢
    rwa [hsame]
  · have hlisted : s'.listed = s.listed ++ le 2 (number v) := by
      rw [← hdata]
      simp [Store.listed, hw]
    refine ⟨.inr hlisted, ?_⟩
    have hnumber : numbers (le 2 (number v)) = [number v] := by
      rw [← flatMap_singleton (le 2), numbers_flatMap (by simpa using number_lt v)]
    rw [hlisted, holds_iff, numbers_append heven, hnumber]
    exact mem_append_right _ (mem_singleton_self _)

end Store

lemma ensureEntry_eq (io : Io) (slot : Slot) (named : Option String) (esp : Part) (s : Store) :
    ensureEntry io [slot.letter] named (some esp) s =
      match s.readOrder with
      | none => .error ["BootOrder cannot be read whole, so it is not rewritten"] s
      | some order => ensureWith io slot esp order s := by
  have hslot : ofText [slot.letter] = some slot := by cases slot <;> decide
  simp only [ensureEntry, hslot, get_bind]
  cases s.readOrder <;> rfl

/-- Run again, `ensure` finds the entry and its number in place, or a BootOrder it cannot read. -/
lemma Store.Ensured.again (h : s.Ensured s' (bootName n) order option) (hio : ∀ name, io.fails name = false)
    (hn : n < 65536) (hvar : s.slotVar slot order = some (bootName n))
    (hoption : buildLoadOption esp slot.description slot.file = some option) (hcount : s.bootNames.length ≤ 255)
    (hours : s'.isOurs (bootName n) (some slot) = true) (hholds : holds s'.listed n = true) (named : Option String) :
    ensureEntry io [slot.letter] named (some esp) s' = .ok (bootName n) s' ∨
      ∃ e, ensureEntry io [slot.letter] named (some esp) s' = .error e s' := by
  rw [ensureEntry_eq]
  cases hread : s'.readOrder with
  | none => exact .inr ⟨_, rfl⟩
  | some order' =>
    left
    obtain ⟨w, hw, hdata⟩ := h.entry
    have hagain := h.slotVar_again hvar hours hcount order'
    have hlen := length_buildLoadOption hoption
    simp only
    rw [ensureWith_eq hio hagain hoption, number_bootName hn, listed_of_readOrder hread, if_pos hholds,
      withEntry, if_pos (readVar_of_data hw hdata (by omega))]

lemma deleteAll_ok (hio : ∀ name, io.fails name = false) (vs : List (List Char)) (s : Store) :
    deleteAll io vs s = .ok [] (vs.foldl Store.delete s) := by
  induction vs generalizing s with
  | nil => rfl
  | cons v vs ih =>
    rw [deleteAll, ok_bind (deleteVar_ok hio ..), ok_bind (ih _)]
    rfl

lemma file_deleteAll (vs : List (List Char)) (s : Store) (file : List Char) :
    Directory.get (vs.foldl Store.delete s).files file =
      if file ∈ vs.map path then none else Directory.get s.files file := by
  induction vs generalizing s with
  | nil => rfl
  | cons v vs ih =>
    rw [foldl_cons, ih, file_delete]
    by_cases hfile : file = path v <;> simp [hfile]

def Store.next (s : Store) : Option ℕ :=
  match s.readVar bootNext 8 with
  | some (lo :: hi :: _) => some (lo.toNat + 256 * hi.toNat)
  | _ => none

def Store.nextGoes (s : Store) (ours : List ℕ) : Bool :=
  s.next.any (fun e => e ∈ ours || !s.varExists (bootName e))

lemma dropNext_ok (hio : ∀ name, io.fails name = false) (ours : List UInt8) (s : Store) :
    dropNext io ours s = .ok [] (if s.nextGoes (numbers ours) then s.delete bootNext else s) := by
  have hholds : ∀ e, (decide (e ∈ numbers ours)) = holds ours e := by
    intro e
    rw [Bool.eq_iff_iff, decide_eq_true_eq, holds_iff]
  unfold dropNext nextGoes Store.next
  simp only [get_bind, hholds]
  cases hread : s.readVar bootNext 8 with
  | none => rfl
  | some bytes =>
    rcases bytes with _ | ⟨lo, _ | ⟨hi, rest⟩⟩
    · rfl
    · rfl
    · simp only [any_some]
      split_ifs
      · exact ok_bind (deleteVar_ok hio ..) _
      · rfl

def Store.mine (s : Store) : List (List Char) := s.bootNames.filter (s.isOurs · none)

def Store.withoutMine (s : Store) (io : Io) : Store :=
  let left := (numbers s.listed).filter (fun e => e ∉ s.mine.map number)
  if left.length = (numbers s.listed).length then s
  else if left = [] then s.delete bootOrder
  else s.write io bootOrder (left.flatMap (Words.le 2))

def Store.forgotten (s : Store) (io : Io) : Store :=
  s.mine.foldl Store.delete
    (if (s.withoutMine io).nextGoes (s.mine.map number) then (s.withoutMine io).delete bootNext else s.withoutMine io)

lemma cmdForget_eq (hio : ∀ name, io.fails name = false) (hcount : s.bootNames.length ≤ 255)
    (heven : s.listed.length % 2 = 0) (hwhole : 4 + s.listed.length < orderCap) :
    cmdForget io s = .ok () (s.forgotten io) := by
  have hmine : (s.bootVars 256).filter (s.isOurs · none) = s.mine := by
    rw [bootVars, take_of_length_le (by omega), mine]
  have hours : numbers (s.mine.flatMap (fun v => le 2 (number v))) = s.mine.map number := by
    have hlt : ∀ n ∈ s.mine.map number, n < 65536 := by
      intro n hn
      obtain ⟨v, -, rfl⟩ := mem_map.mp hn
      exact number_lt v
    rw [← numbers_flatMap hlt, flatMap_map]
  have hkept : kept (s.mine.flatMap (fun v => le 2 (number v))) s.listed =
      ((numbers s.listed).filter (fun e => e ∉ s.mine.map number)).flatMap (le 2) := by
    rw [kept_eq, hours]
  have hall := length_flatMap_le (numbers s.listed)
  rw [flatMap_numbers heven] at hall
  unfold cmdForget forgotten withoutMine
  simp only [get_bind, hmine, readOrder_eq hwhole, hkept]
  generalize (numbers s.listed).filter (fun e => e ∉ s.mine.map number) = left
  have hfull : (left.flatMap (le 2)).length = s.listed.length ↔ left.length = (numbers s.listed).length := by
    rw [length_flatMap_le]
    omega
  simp only [hfull, flatMap_le_eq_nil]
  by_cases hsame : left.length = (numbers s.listed).length
  · simp only [if_pos hsame]
    simp [ok_bind (dropNext_ok hio ..), ok_bind (deleteAll_ok hio ..), hours]
    rfl
  · simp only [if_neg hsame]
    by_cases hnil : left = []
    · simp only [if_pos hnil, ok_bind (deleteVar_ok hio ..)]
      simp [ok_bind (dropNext_ok hio ..), ok_bind (deleteAll_ok hio ..), hours]
      rfl
    · simp only [if_neg hnil, ok_bind (writeVar_ok hio ..)]
      simp [ok_bind (dropNext_ok hio ..), ok_bind (deleteAll_ok hio ..), hours]
      rfl

namespace Store

lemma withoutMine_frame {file : List Char} (hfile : file ≠ path bootOrder) :
    Directory.get (s.withoutMine io).files file = Directory.get s.files file := by
  unfold withoutMine
  simp only
  split_ifs with hsame hnil
  · rfl
  · rw [file_delete, if_neg hfile]
  · exact file_write (mt flatMap_le_eq_nil.mp hnil) hfile

lemma withoutMine_order (heven : s.listed.length % 2 = 0) : ((s.withoutMine io).var bootOrder).map Var.data =
      if (numbers s.listed).filter (fun e => e ∉ s.mine.map number) = [] then none
      else some (((numbers s.listed).filter (fun e => e ∉ s.mine.map number)).flatMap (le 2)) := by
  unfold withoutMine
  simp only
  split_ifs with hsame hnil hnil
  · cases hv : s.var bootOrder with
    | none => rfl
    | some w =>
      exfalso
      have hdata : s.listed = w.data := by simp [listed, hv]
      rw [hnil, length_nil, eq_comm, length_eq_zero_iff] at hsame
      apply w.present
      rw [← hdata, ← flatMap_numbers heven, hsame]
      rfl
  · rw [filter_eq_self.mpr (length_filter_eq_length_iff.mp hsame), flatMap_numbers heven]
    cases hv : s.var bootOrder with
    | none => exact absurd (by simp [listed, hv, numbers]) hnil
    | some w => simp [listed, hv]
  · rw [var, file_delete, if_pos rfl]
    rfl
  · rw [var_write (mt flatMap_le_eq_nil.mp hnil)]
    rfl

lemma mem_mine : v ∈ s.mine ↔ v ∈ s.bootNames ∧ s.isOurs v none = true := mem_filter

/-- A file that is not one of the entries, such as BootOrder or BootNext. -/
lemma path_notMem_mine (h : bootVar (path v) = none) : path v ∉ s.mine.map path := by
  intro hmem
  obtain ⟨u, hu, hpath⟩ := mem_map.mp hmem
  rw [← hpath, bootVar_of_mem (mem_mine.mp hu).1] at h
  cases h

lemma nextGoes_congr (hvar : s'.var bootNext = s.var bootNext)
    (hexists : ∀ n, s'.varExists (bootName n) = s.varExists (bootName n)) (ours : List ℕ) :
    s'.nextGoes ours = s.nextGoes ours := by
  simp [nextGoes, next, readVar, hvar, hexists]

end Store

lemma bootNext_ne_bootOrder : path bootNext ≠ path bootOrder := by
  decide

lemma Store.file_forgotten (s : Store) (io : Io) (file : List Char) :
    Directory.get (s.forgotten io).files file = if file ∈ s.mine.map path then none
      else if s.nextGoes (s.mine.map number) ∧ file = path bootNext then none
      else Directory.get (s.withoutMine io).files file := by
  have hgoes : (s.withoutMine io).nextGoes (s.mine.map number) = s.nextGoes (s.mine.map number) := by
    apply nextGoes_congr (withoutMine_frame bootNext_ne_bootOrder)
    intro n
    have hvar : (s.withoutMine io).var (bootName n) = s.var (bootName n) :=
      withoutMine_frame (fun h => bootName_ne_bootOrder n (path_inj.mp h))
    simp [varExists, hvar]
  rw [forgotten, file_deleteAll, hgoes]
  cases s.nextGoes (s.mine.map number) with
  | false => simp
  | true => simp [file_delete]

lemma Slot.eq_of_ofText {text : List Char} (h : ofText text = some slot) : text = [slot.letter] := by
  unfold ofText at h
  split_ifs at h with ha hb
  · rw [ha, ← some_inj.mp h]
    rfl
  · rw [hb, ← some_inj.mp h]
    rfl

lemma ensureWith_error (hio : ∀ name, io.fails name = false) {e : List String}
    (h : ensureWith io slot esp order s = .error e s') : s' = s := by
  cases hvar : s.slotVar slot order with
  | none =>
    simp only [ensureWith, get_bind, hvar] at h
    exact (EStateM.Result.error.inj h).2.symm
  | some v =>
    cases hoption : buildLoadOption esp slot.description slot.file with
    | none =>
      simp only [ensureWith, get_bind, hvar, hoption] at h
      exact (EStateM.Result.error.inj h).2.symm
    | some option =>
      rw [ensureWith_eq hio hvar hoption] at h
      exact absurd h (by simp)

lemma ensureEntry_error (hio : ∀ name, io.fails name = false) {text : List Char} {named : Option String}
    {esp : Option Part} {e : List String} (h : ensureEntry io text named esp s = .error e s') : s' = s := by
  have hdie : ∀ message, (die message : Command (List Char)) s = .error e s' → s' = s := by
    intro message hmessage
    exact (EStateM.Result.error.inj hmessage).2.symm
  cases hslot : ofText text with
  | none =>
    unfold ensureEntry at h
    rw [hslot] at h
    exact hdie _ h
  | some slot =>
    cases esp with
    | none =>
      unfold ensureEntry at h
      rw [hslot] at h
      cases named <;> exact hdie _ h
    | some part =>
      rw [eq_of_ofText hslot, ensureEntry_eq] at h
      cases horder : s.readOrder with
      | none =>
        rw [horder] at h
        exact (EStateM.Result.error.inj h).2.symm
      | some order =>
        rw [horder] at h
        exact ensureWith_error hio h

/-- With no failing write or delete, on a store with at most 255 Boot#### variables, all with upper-case names,
and a BootOrder of whole numbers that can be read, the commands touch only Kryptik's entries: `ensure`, with
an ESP that has a UUID and a place for the entry, and `forget`. A command that ends early has changed nothing. -/
theorem efiboot_touches_own_entries (io : Io) (s : Store) (hio : ∀ name, io.fails name = false)
    (hcount : s.bootNames.length ≤ 255)
    (hupper : ∀ v ∈ s.bootNames, ∀ c ∈ v.drop 4, isAsciiLowercase c = false) (heven : s.listed.length % 2 = 0)
    (hwhole : 4 + s.listed.length < orderCap) :
    (∀ slot esp named, uuidToBytes esp.uuid ≠ none → s.HasPlace slot s.listed →
      ∃ n s', n < 65536 ∧ ensureEntry io [slot.letter] named (some esp) s = .ok (bootName n) s' ∧
        (s.isOurs (bootName n) (some slot) = true ∨ s.varExists (bootName n) = false) ∧
        s'.isOurs (bootName n) (some slot) = true ∧
        (s'.var bootOrder = s.var bootOrder ∨ s'.listed = s.listed ++ le 2 n) ∧ holds s'.listed n = true ∧
        (∀ file, file ≠ path (bootName n) → file ≠ path bootOrder →
          Directory.get s'.files file = Directory.get s.files file) ∧
        (ensureEntry io [slot.letter] named (some esp) s' = .ok (bootName n) s' ∨
          ∃ e, ensureEntry io [slot.letter] named (some esp) s' = .error e s')) ∧
    (∀ text named esp e s', ensureEntry io text named esp s = .error e s' → s' = s) ∧
    ∃ s', cmdForget io s = .ok () s' ∧ (∀ v ∈ s.bootNames, s.isOurs v none = true → s'.var v = none) ∧
      ((s'.var bootOrder).map Var.data =
        if (numbers s.listed).filter (fun e => e ∉ s.mine.map number) = [] then none
        else some (((numbers s.listed).filter (fun e => e ∉ s.mine.map number)).flatMap (le 2))) ∧
      (s'.var bootNext = if s.nextGoes (s.mine.map number) then none else s.var bootNext) ∧
      ∀ file, (∀ v ∈ s.bootNames, s.isOurs v none = true → file ≠ path v) → file ≠ path bootOrder →
        file ≠ path bootNext → Directory.get s'.files file = Directory.get s.files file := by
  refine ⟨?_, fun _ _ _ _ _ h => ensureEntry_error hio h, _, cmdForget_eq hio hcount heven hwhole, ?_, ?_, ?_, ?_⟩
  · intro slot esp named huuid hplace
    obtain ⟨sig, hsig⟩ := ne_none_iff_exists'.mp huuid
    obtain ⟨option, hoption⟩ : ∃ option, buildLoadOption esp slot.description slot.file = some option :=
      ⟨_, map_eq_some_iff.mpr ⟨sig, hsig, rfl⟩⟩
    obtain ⟨v, hvar⟩ := slotVar_of_hasPlace (by omega) hplace
    obtain ⟨hbefore, n, hn, rfl⟩ := slotVar_target hvar hupper
    obtain ⟨s', hrun, hs'⟩ := ensureWith_ensured hio hvar hoption (bootName_ne_bootOrder n)
    obtain ⟨w, hw, hdata⟩ := hs'.entry
    have hours := isOurs_of_var hoption hw hdata
    obtain ⟨horder, hholds⟩ := hs'.listed heven
    rw [number_bootName hn] at horder hholds
    refine ⟨n, s', hn, ?_, hbefore, hours, horder, hholds, hs'.frame,
      hs'.again hio hn hvar hoption hcount hours hholds named⟩
    rw [ensureEntry_eq, readOrder_eq hwhole]
    exact hrun
  · intro v hv hours
    rw [var, file_forgotten, if_pos (mem_map_of_mem (mem_mine.mpr ⟨hv, hours⟩))]
  · rw [← withoutMine_order heven, var, file_forgotten, if_neg (path_notMem_mine (by decide)),
      if_neg (fun h => bootNext_ne_bootOrder h.2.symm)]
    rfl
  · rw [var, file_forgotten, if_neg (path_notMem_mine (by decide)),
      withoutMine_frame bootNext_ne_bootOrder]
    simp only [and_true]
    rfl
  · intro file hmine horder hnext
    have hnot : file ∉ s.mine.map path := by
      intro hmem
      obtain ⟨v, hv, rfl⟩ := mem_map.mp hmem
      obtain ⟨hboot, hours⟩ := mem_mine.mp hv
      exact hmine v hboot hours rfl
    rw [file_forgotten, if_neg hnot, if_neg (fun h => hnext h.2)]
    exact withoutMine_frame horder

def steady : Io where
  fails _ := false
  place _ := 0

def somePart : Part where
  uuid := "0a0b0c0d-0102-0304-0506-0708090a0b0c".toList
  start := 2048
  size := 1048576
  number := 1

def otherSystem : Store where
  files := [(path (bootName 0), ⟨attr, [0], by simp⟩), (path bootOrder, ⟨attr, [0, 0], by simp⟩)]
  touched := []

theorem efiboot_touches_own_entries_other : ∃ n s',
    ensureEntry steady ['a'] none (some somePart) otherSystem = .ok (bootName n) s' ∧
      s'.isOurs (bootName n) (some .a) = true ∧ holds s'.listed n = true := by
  have hcheck : (otherSystem.bootNames.all fun v => (v.drop 4).all (!isAsciiLowercase ·)) = true := by decide
  have hupper : ∀ v ∈ otherSystem.bootNames, ∀ c ∈ v.drop 4, isAsciiLowercase c = false := by
    intro v hv c hc
    simpa using all_eq_true.mp (all_eq_true.mp hcheck v hv) c hc
  have hall := efiboot_touches_own_entries steady otherSystem (fun _ => rfl) (by decide) hupper
    (by decide) (by decide)
  obtain ⟨n, s', -, hrun, -, hours, -, hholds, -⟩ := hall.1 .a somePart none (by decide) (.inr (.inl (by decide)))
  exact ⟨n, s', hrun, hours, hholds⟩

def taken (order : List UInt8) (h : order ≠ []) : Store where
  files := [(path (bootName 0xA0), ⟨attr, [0], by simp⟩), (path bootOrder, ⟨attr, order, h⟩)]
  touched := []

lemma bootNames_taken (h : order ≠ []) : (taken order h).bootNames = [bootName 0xA0] := by
  have horder : bootVar (path bootOrder) = none := by decide
  simp [bootNames, Directory.names, taken, bootVar_path, horder]

lemma ensureEntry_taken (h : order ≠ []) (hwhole : 4 + order.length < orderCap)
    (hfull : ∀ n < 65536, holds order n = true) :
    ensureEntry steady ['a'] none (some somePart) (taken order h) =
      .error ["no Boot#### number is free"] (taken order h) ∧
    ∀ v ∈ (taken order h).bootNames, (taken order h).isOurs v (some .a) = false := by
  have hlisted : (taken order h).listed = order := rfl
  have hown : (taken order h).varExists (bootName Slot.a.own) = true := rfl
  have hother : (taken order h).isOurs (bootName 0xA0) (some .a) = false := rfl
  have hours : ∀ v ∈ (taken order h).bootNames, (taken order h).isOurs v (some .a) = false := by
    intro v hv
    rw [bootNames_taken, mem_singleton] at hv
    rw [hv, hother]
  refine ⟨?_, hours⟩
  have hnone : (taken order h).slotVar .a order = none := by
    cases hslot : (taken order h).slotVar .a order with
    | none => rfl
    | some v =>
      obtain ⟨v, hv, hmine⟩ | hfree | ⟨n, hn, -, hunlisted⟩ := hasPlace_of_slotVar hslot
      · exact absurd hmine (Bool.eq_false_iff.mp (hours v hv))
      · exact absurd hown (Bool.eq_false_iff.mp hfree)
      · exact absurd (hfull n hn) (Bool.eq_false_iff.mp hunlisted)
  have heq := ensureEntry_eq steady .a none somePart (taken order h)
  rw [readOrder_eq (by rwa [hlisted]), hlisted] at heq
  simp only [ensureWith, get_bind, hnone] at heq
  exact heq

theorem no_entry_without_number : ∃ s : Store,
    s.bootNames.length ≤ 255 ∧ (∀ v ∈ s.bootNames, ∀ c ∈ v.drop 4, isAsciiLowercase c = false) ∧
    s.listed.length % 2 = 0 ∧
    ensureEntry steady ['a'] none (some somePart) s = .error ["no Boot#### number is free"] s ∧
    ∀ v ∈ s.bootNames, s.isOurs v (some .a) = false := by
  obtain ⟨order, hlen, hfull⟩ : ∃ order : List UInt8, order.length = 131072 ∧ ∀ n < 65536, holds order n = true := by
    refine ⟨(List.range 65536).flatMap (le 2), ?_, ?_⟩
    · rw [length_flatMap_le, length_range]
    · intro n hn
      have hlt : ∀ n ∈ List.range 65536, n < 65536 := fun n hn => mem_range.mp hn
      rw [holds_iff, numbers_flatMap hlt]
      exact mem_range.mpr hn
  have hne : order ≠ [] := ne_nil_of_length_eq_add_one hlen
  have hlisted : (taken order hne).listed = order := rfl
  obtain ⟨hrun, hours⟩ := ensureEntry_taken hne (by rw [hlen]; decide) hfull
  have hupper : ∀ v ∈ (taken order hne).bootNames, ∀ c ∈ v.drop 4, isAsciiLowercase c = false := by
    intro v hv c hc
    rw [bootNames_taken, mem_singleton] at hv
    have hcheck : ((bootName 0xA0).drop 4).all (!isAsciiLowercase ·) = true := by decide
    simpa using all_eq_true.mp hcheck c (hv ▸ hc)
  exact ⟨taken order hne, by rw [bootNames_taken]; decide, hupper, by rw [hlisted, hlen], hrun, hours⟩

end Kryptik.Efi
