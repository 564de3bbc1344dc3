import Mathlib

namespace Kryptik.Lib.Grammar

variable {σ ε α β : Type}

/-- A reader returns a value, having consumed some input, exactly where the grammar derives the
value from that input. -/
def Exact (G : List σ → α → Prop) (p : StateT (List σ) (Except ε) α) : Prop :=
  ∀ input x rest, p input = .ok (x, rest) ↔ ∃ front, input = front ++ rest ∧ G front x

variable {G H : List σ → α → Prop} {p q : StateT (List σ) (Except ε) α}

lemma Exact.congr (h : Exact G p) (hGH : ∀ front x, G front x ↔ H front x) : Exact H p := by
  intro input x rest
  simp [h input x rest, hGH]

lemma bind_ok {f : α → StateT (List σ) (Except ε) β} {input rest : List σ} {y : β} :
    (p >>= f) input = .ok (y, rest) ↔ ∃ x mid, p input = .ok (x, mid) ∧ f x mid = .ok (y, rest) := by
  simp only [bind, StateT.bind, Except.bind]
  cases p input with
  | error e => simp
  | ok r => exact ⟨fun h => ⟨r.1, r.2, rfl, h⟩, fun ⟨x, mid, hr, h⟩ => by cases hr; exact h⟩

lemma Exact.bind {K : α → List σ → β → Prop} {f : α → StateT (List σ) (Except ε) β} (hp : Exact G p)
    (hf : ∀ x, Exact (K x) (f x)) :
    Exact (fun front y => ∃ first second x, front = first ++ second ∧ G first x ∧ K x second y) (p >>= f) := by
  intro input y rest
  rw [bind_ok]
  constructor
  · intro ⟨x, mid, hx, hy⟩
    obtain ⟨first, rfl, hG⟩ := (hp _ _ _).mp hx
    obtain ⟨second, rfl, hK⟩ := (hf x _ _ _).mp hy
    exact ⟨first ++ second, by simp, first, second, x, rfl, hG, hK⟩
  · intro ⟨front, hfront, first, second, x, hsplit, hG, hK⟩
    refine ⟨x, second ++ rest, (hp _ _ _).mpr ⟨first, ?_, hG⟩, (hf x _ _ _).mpr ⟨second, rfl, hK⟩⟩
    rw [hfront, hsplit, List.append_assoc]

lemma Exact.lift (x : Except ε α) :
    Exact (fun front y => front = [] ∧ x = .ok y) (liftM x : StateT (List σ) (Except ε) α) := by
  intro input y rest
  have hlift : (liftM x : StateT (List σ) (Except ε) α) input = x.map fun a => (a, input) := by
    cases x <;> rfl
  rw [hlift]
  cases x with
  | error e => simp [Except.map]
  | ok a =>
    simp only [Except.map, Except.ok.injEq, Prod.mk.injEq]
    exact ⟨fun ⟨ha, hinput⟩ => ⟨[], hinput, rfl, ha⟩,
      fun ⟨front, hinput, hfront, ha⟩ => ⟨ha, by simp [hinput, hfront]⟩⟩

lemma Exact.ret (a : α) : Exact (fun front y => front = [] ∧ a = y) (pure a : StateT (List σ) (Except ε) α) :=
  (Exact.lift (.ok a)).congr fun _ _ => by simp

lemma Exact.stop (e : ε) : Exact (fun _ _ => False) (throw e : StateT (List σ) (Except ε) α) :=
  (Exact.lift (.error e)).congr fun _ _ => by simp

lemma Exact.ite {c : Prop} [Decidable c] (hp : Exact G p) (hq : Exact H q) :
    Exact (fun front x => if c then G front x else H front x) (if c then p else q) := by
  split
  · exact hp
  · exact hq

end Kryptik.Lib.Grammar
