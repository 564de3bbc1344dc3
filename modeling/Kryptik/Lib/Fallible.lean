import Mathlib

namespace Kryptik.Lib.Fallible

variable {ε α β : Type}

lemma bind_ok {x : Except ε α} {f : α → Except ε β} {b : β} : x >>= f = .ok b ↔ ∃ a, x = .ok a ∧ f a = .ok b := by
  constructor
  · intro h
    cases x with
    | error e => cases h
    | ok a => exact ⟨a, rfl, h⟩
  · rintro ⟨a, rfl, h⟩
    exact h

lemma pure_ok {a b : α} : (pure a : Except ε α) = .ok b ↔ a = b :=
  ⟨Except.ok.inj, fun h => h ▸ rfl⟩

lemma toOption_eq_some {x : Except ε α} {a : α} : x.toOption = some a ↔ x = .ok a := by
  cases x with
  | error e => exact ⟨nofun, nofun⟩
  | ok b => exact ⟨fun h => congrArg Except.ok (Option.some.inj h), fun h => h ▸ rfl⟩

lemma mapError_ok {ε' : Type} {x : Except ε α} {f : ε → ε'} {a : α} : x.mapError f = .ok a ↔ x = .ok a := by
  cases x with
  | error e => exact ⟨nofun, nofun⟩
  | ok b => exact ⟨fun h => congrArg Except.ok (Except.ok.inj h), fun h => h ▸ rfl⟩

lemma foldlM_ok {P : β → Prop} {f : β → α → Except ε β} {l : List α} {b b' : β}
    (hstep : ∀ a ∈ l, ∀ c c', P c → f c a = .ok c' → P c') (hb : P b)
    (h : l.foldlM f b = .ok b') : P b' := by
  induction l generalizing b with
  | nil =>
    obtain rfl := pure_ok.mp h
    exact hb
  | cons a l ih =>
    obtain ⟨c, hc, h⟩ := bind_ok.mp h
    exact ih (fun x hx => hstep x (List.mem_cons_of_mem a hx)) (hstep a List.mem_cons_self b c hb hc) h

lemma forM_ok {f : α → Except ε Unit} {l : List α} (h : l.forM f = .ok ()) : ∀ a ∈ l, f a = .ok () := by
  induction l with
  | nil => exact fun a ha => absurd ha List.not_mem_nil
  | cons b l ih =>
    obtain ⟨⟨⟩, hb, h⟩ := bind_ok.mp h
    rintro a (_ | ⟨_, ha⟩)
    · exact hb
    · exact ih h a ha

lemma forM_of_ok {f : α → Except ε Unit} {l : List α} (h : ∀ a ∈ l, f a = .ok ()) : l.forM f = .ok () := by
  induction l with
  | nil => rfl
  | cons a l ih =>
    obtain ⟨ha, hl⟩ := List.forall_mem_cons.mp h
    rw [List.forM, ha]
    exact ih hl

lemma mapM_ok {f : α → Except ε β} {l : List α} {l' : List β} (h : l.mapM f = .ok l') :
    ∀ b ∈ l', ∃ a ∈ l, f a = .ok b := by
  induction l generalizing l' with
  | nil =>
    obtain rfl := pure_ok.mp h
    exact fun b hb => absurd hb List.not_mem_nil
  | cons a l ih =>
    rw [List.mapM_cons] at h
    obtain ⟨b, hb, h⟩ := bind_ok.mp h
    obtain ⟨bs, hbs, h⟩ := bind_ok.mp h
    obtain rfl := pure_ok.mp h
    rintro c (_ | ⟨_, hc⟩)
    · exact ⟨a, List.mem_cons_self, hb⟩
    · obtain ⟨d, hd, h⟩ := ih hbs c hc
      exact ⟨d, List.mem_cons_of_mem a hd, h⟩

end Kryptik.Lib.Fallible
