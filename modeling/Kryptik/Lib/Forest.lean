import Mathlib

namespace Kryptik.Lib.Forest

open Relation List

variable {V : Type}

def Up (parent : V → Option V) (a b : V) : Prop := parent a = some b

def Acyclic (parent : V → Option V) : Prop := ∀ v, ¬ TransGen (Up parent) v v

inductive Chain (parent : V → Option V) : V → List V → Prop
  | top {v : V} : parent v = none → Chain parent v [v]
  | step {v p : V} {l : List V} : parent v = some p → Chain parent p l → Chain parent v (v :: l)

def walk (parent : V → Option V) : ℕ → V → List V
  | 0, _ => []
  | n + 1, v => v :: match parent v with
    | some p => walk parent n p
    | none => []

variable {parent parent' : V → Option V} {v p a b : V}

lemma Chain.mem_iff {l : List V} (h : Chain parent v l) : a ∈ l ↔ ReflTransGen (Up parent) v a := by
  induction h with
  | @top v hv =>
    rw [mem_singleton]
    refine ⟨fun he => he ▸ .refl, fun hr => ?_⟩
    obtain he | ⟨p, hp, -⟩ := hr.cases_head
    · exact he.symm
    · rw [Up, hv] at hp
      cases hp
  | @step v p l hv _ ih =>
    rw [mem_cons, ih]
    refine ⟨fun h => h.elim (fun he => he ▸ .refl) fun hr => .head hv hr, fun hr => ?_⟩
    obtain he | ⟨q, hq, hr⟩ := hr.cases_head
    · exact .inl he.symm
    · cases hv.symm.trans hq
      exact .inr hr

lemma chain_walk_of_seen (h : Acyclic parent) {nodes : List V} (hnodes : ∀ v p, parent v = some p → v ∈ nodes)
    (n : ℕ) (v : V) (seen : List V) (hseen : seen.Nodup) (hmem : ∀ a ∈ seen, a ∈ nodes ∧ TransGen (Up parent) a v)
    (hn : nodes.length < n + seen.length) : Chain parent v (walk parent n v) := by
  induction n generalizing v seen with
  | zero =>
    have hle := (subperm_of_subset hseen fun a ha => (hmem a ha).1).length_le
    omega
  | succ n ih =>
    cases hv : parent v with
    | none => simpa only [walk, hv] using Chain.top hv
    | some p =>
      simp only [walk, hv]
      refine .step hv (ih p (v :: seen) ?_ ?_ (by rw [length_cons]; omega))
      · exact nodup_cons.mpr ⟨fun hin => h v (hmem v hin).2, hseen⟩
      · intro a ha
        obtain rfl | ha := mem_cons.mp ha
        · exact ⟨hnodes a p hv, .single hv⟩
        · exact ⟨(hmem a ha).1, (hmem a ha).2.tail hv⟩

lemma chain_walk (h : Acyclic parent) {nodes : List V} (hnodes : ∀ v p, parent v = some p → v ∈ nodes)
    (v : V) : Chain parent v (walk parent (nodes.length + 1) v) :=
  chain_walk_of_seen h hnodes _ v [] nodup_nil nofun (by simp)

lemma Acyclic.mono (h : Acyclic parent) (hsub : ∀ a b, parent' a = some b → parent a = some b) : Acyclic parent' :=
  fun v hv => h v (TransGen.mono hsub v v hv)

lemma transGen_link [DecidableEq V] (hp : ¬ ReflTransGen (Up parent) p v)
    (h : TransGen (Up (Function.update parent v (some p))) a b) :
    TransGen (Up parent) a b ∨ ReflTransGen (Up parent) a v ∧ ReflTransGen (Up parent) p b := by
  have hup {x y : V} (hxy : Up (Function.update parent v (some p)) x y) : x = v ∧ y = p ∨ Up parent x y := by
    unfold Up at hxy
    by_cases hx : x = v
    · subst hx
      rw [Function.update_self] at hxy
      exact .inl ⟨rfl, (Option.some.inj hxy).symm⟩
    · rw [Function.update_of_ne hx] at hxy
      exact .inr hxy
  induction h with
  | single hab =>
    obtain ⟨rfl, rfl⟩ | hold := hup hab
    · exact .inr ⟨.refl, .refl⟩
    · exact .inl (.single hold)
  | tail _ hbc ih =>
    obtain ⟨rfl, rfl⟩ | hold := hup hbc
    · obtain hab | ⟨-, hpv⟩ := ih
      · exact .inr ⟨hab.to_reflTransGen, .refl⟩
      · exact absurd hpv hp
    · obtain hab | ⟨hav, hpb⟩ := ih
      · exact .inl (hab.tail hold)
      · exact .inr ⟨hav, hpb.tail hold⟩

lemma Acyclic.link [DecidableEq V] (h : Acyclic parent) (hp : ¬ ReflTransGen (Up parent) p v) :
    Acyclic (Function.update parent v (some p)) := by
  intro x hx
  obtain hold | ⟨hxv, hpx⟩ := transGen_link hp hx
  · exact h x hold
  · exact hp (hpx.trans hxv)

end Kryptik.Lib.Forest
