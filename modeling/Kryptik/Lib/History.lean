import Mathlib

namespace Kryptik.Lib.History

open List

variable {α : Type}

def Always (P : List α → Prop) (l : List α) : Prop := ∀ pre, pre <+: l → P pre

lemma Always.nil {P : List α → Prop} (h : P []) : Always P [] := by
  intro pre hpre
  rwa [prefix_nil.mp hpre]

lemma Always.snoc {P : List α → Prop} {l : List α} {a : α} (h : Always P l) (ha : P (l ++ [a])) :
    Always P (l ++ [a]) := by
  intro pre hpre
  obtain rfl | hpre := prefix_concat_iff.mp hpre
  · simpa using ha
  · exact h pre hpre

/-- Each event of a history stands in a relation to what came before it. -/
def Each (A : List α → α → Prop) (l : List α) : Prop := ∀ pre a post, l = pre ++ a :: post → A pre a

lemma Each.nil {A : List α → α → Prop} : Each A [] := by
  intro pre a post h
  simp at h

lemma Each.snoc {A : List α → α → Prop} {l : List α} {a : α} (h : Each A l) (ha : A l a) : Each A (l ++ [a]) := by
  intro pre b post hl
  obtain rfl | ⟨post, c, rfl⟩ := eq_nil_or_concat post
  · obtain ⟨rfl, hab⟩ := append_inj' hl rfl
    obtain rfl := singleton_inj.mp hab
    exact ha
  · have hl : l ++ [a] = (pre ++ b :: post) ++ [c] := by simpa using hl
    obtain ⟨rfl, -⟩ := append_inj' hl rfl
    exact h pre b post rfl

/-- Each action of a run stands in a relation to the state it is taken in. -/
def Along {σ : Type} (run : σ → α → σ) (P : α → σ → Prop) : List α → σ → Prop
  | [], _ => True
  | a :: as, s => P a s ∧ Along run P as (run s a)

lemma Along.of_forall {σ : Type} {run : σ → α → σ} {P : α → σ → Prop} {l : List α}
    (h : ∀ a ∈ l, ∀ s, P a s) (s : σ) : Along run P l s := by
  induction l generalizing s with
  | nil => trivial
  | cons a l ih =>
    exact ⟨h a mem_cons_self s, ih (fun b hb => h b (mem_cons_of_mem a hb)) (run s a)⟩

lemma Along.imp {σ : Type} {run : σ → α → σ} {I : σ → Prop} {P Q : α → σ → Prop}
    (hstep : ∀ a s, I s → P a s → Q a s ∧ I (run s a)) {l : List α} {s : σ} (hs : I s)
    (h : Along run P l s) : Along run Q l s := by
  induction l generalizing s with
  | nil => trivial
  | cons a l ih =>
    obtain ⟨hq, hi⟩ := hstep a s hs h.1
    exact ⟨hq, ih hi h.2⟩

end Kryptik.Lib.History
