import Mathlib

namespace Kryptik.Lib.Prog

variable {ε σ τ α β : Type}

/-- What must hold of the state `s` for `x` to end in `Q` when it succeeds and
in `E` when it stops early. The state is kept on both ways out. -/
def wp (x : EStateM ε σ α) (Q : α → σ → Prop) (E : ε → σ → Prop) (s : σ) : Prop :=
  match x s with
  | .ok a t => Q a t
  | .error e t => E e t

/-- Run `x` on one component of a larger state. -/
def zoom (view : τ → σ) (put : σ → τ → τ) (x : EStateM ε σ α) : EStateM ε τ α := fun t =>
  match x (view t) with
  | .ok a s => .ok a (put s t)
  | .error e s => .error e (put s t)

variable {Q : α → σ → Prop} {E : ε → σ → Prop} {s : σ}

lemma wp_ok {x : EStateM ε σ α} {a : α} {t : σ} (h : wp x Q E s) (hx : x s = .ok a t) : Q a t := by
  simpa only [wp, hx] using h

lemma wp_error {x : EStateM ε σ α} {e : ε} {t : σ} (h : wp x Q E s) (hx : x s = .error e t) : E e t := by
  simpa only [wp, hx] using h

lemma wp_of_cases {x : EStateM ε σ α} (hok : ∀ a t, x s = .ok a t → Q a t)
    (herr : ∀ e t, x s = .error e t → E e t) : wp x Q E s := by
  unfold wp
  split
  · exact hok _ _ ‹_›
  · exact herr _ _ ‹_›

lemma wp_mono {x : EStateM ε σ α} {Q' : α → σ → Prop} {E' : ε → σ → Prop} (h : wp x Q E s)
    (hQ : ∀ a t, Q a t → Q' a t) (hE : ∀ e t, E e t → E' e t) : wp x Q' E' s := by
  unfold wp at h ⊢
  split at h
  · exact hQ _ _ h
  · exact hE _ _ h

lemma wp_and {x : EStateM ε σ α} {Q' : α → σ → Prop} {E' : ε → σ → Prop} (h : wp x Q E s)
    (h' : wp x Q' E' s) : wp x (fun a t => Q a t ∧ Q' a t) (fun e t => E e t ∧ E' e t) s := by
  unfold wp at h h' ⊢
  split at h <;> simp_all

@[simp] lemma wp_pure (a : α) : wp (pure a) Q E s ↔ Q a s := Iff.rfl

@[simp] lemma wp_bind {Q : β → σ → Prop} (x : EStateM ε σ α) (f : α → EStateM ε σ β) :
    wp (x >>= f) Q E s ↔ wp x (fun a t => wp (f a) Q E t) E s := by
  simp only [wp, bind, EStateM.bind]
  cases x s <;> rfl

@[simp] lemma wp_map {Q : β → σ → Prop} (f : α → β) (x : EStateM ε σ α) :
    wp (f <$> x) Q E s ↔ wp x (fun a t => Q (f a) t) E s := by
  simp only [wp, Functor.map, EStateM.map]
  cases x s <;> rfl

@[simp] lemma wp_throw (e : ε) : wp (throw e : EStateM ε σ α) Q E s ↔ E e s := Iff.rfl

@[simp] lemma wp_get {Q : σ → σ → Prop} : wp (get : EStateM ε σ σ) Q E s ↔ Q s s := Iff.rfl

@[simp] lemma wp_set {Q : PUnit → σ → Prop} (t : σ) : wp (set t : EStateM ε σ PUnit) Q E s ↔ Q ⟨⟩ t := Iff.rfl

@[simp] lemma wp_modify {Q : PUnit → σ → Prop} (f : σ → σ) :
    wp (modify f : EStateM ε σ PUnit) Q E s ↔ Q ⟨⟩ (f s) := Iff.rfl

@[simp] lemma wp_modifyGet (f : σ → α × σ) : wp (modifyGet f : EStateM ε σ α) Q E s ↔ Q (f s).1 (f s).2 := Iff.rfl

@[simp] lemma wp_zoom {Q : α → τ → Prop} {E : ε → τ → Prop} (view : τ → σ) (put : σ → τ → τ)
    (x : EStateM ε σ α) (t : τ) : wp (zoom view put x) Q E t ↔
      wp x (fun a s => Q a (put s t)) (fun e s => E e (put s t)) (view t) := by
  simp only [wp, zoom]
  cases x (view t) <;> rfl

lemma wp_ite {c : Prop} [Decidable c] {x y : EStateM ε σ α}
    (hx : c → wp x Q E s) (hy : ¬ c → wp y Q E s) : wp (if c then x else y) Q E s := by
  split
  · exact hx ‹_›
  · exact hy ‹_›

lemma wp_forM {I : σ → Prop} {f : α → EStateM ε σ PUnit} (l : List α)
    (h : ∀ a ∈ l, ∀ s, I s → wp (f a) (fun _ => I) E s) (hs : I s) :
    wp (l.forM f) (fun _ => I) E s := by
  induction l generalizing s with
  | nil => exact hs
  | cons a l ih =>
    refine (wp_bind (f a) (fun _ => l.forM f)).mpr ?_
    refine wp_mono (h a List.mem_cons_self s hs) (fun _ t ht => ?_) (fun _ _ he => he)
    exact ih (fun b hb => h b (List.mem_cons_of_mem a hb)) ht

def Ensures (I : σ → Prop) (E : ε → σ → Prop) (x : EStateM ε σ α) : Prop :=
  ∀ s, I s → wp x (fun _ => I) E s

abbrev Keeps (I : σ → Prop) (x : EStateM ε σ α) : Prop := Ensures I (fun _ => I) x

namespace Ensures

variable {I : σ → Prop} {x : EStateM ε σ α}

lemma ret (a : α) : Ensures I E (pure a : EStateM ε σ α) := fun _ h => h

lemma stop {e : ε} (h : ∀ s, I s → E e s) : Ensures I E (throw e : EStateM ε σ α) := h

lemma bind {f : α → EStateM ε σ β} (hx : Ensures I E x) (hf : ∀ a, Ensures I E (f a)) :
    Ensures I E (x >>= f) := fun s hs =>
  (wp_bind x f).mpr (wp_mono (hx s hs) (fun a t ht => hf a t ht) fun _ _ he => he)

lemma get_bind {f : σ → EStateM ε σ β} (hf : ∀ s, I s → wp (f s) (fun _ => I) E s) : Ensures I E (get >>= f) := hf

lemma update {f : σ → σ} (hf : ∀ s, I s → I (f s)) : Ensures I E (modify f : EStateM ε σ PUnit) := hf

lemma ite {c : Prop} [Decidable c] {y : EStateM ε σ α} (hx : c → Ensures I E x)
    (hy : ¬ c → Ensures I E y) : Ensures I E (if c then x else y) := fun s hs =>
  wp_ite (fun h => hx h s hs) fun h => hy h s hs

lemma forM {f : β → EStateM ε σ PUnit} (l : List β) (hf : ∀ b ∈ l, Ensures I E (f b)) :
    Ensures I E (l.forM f) := fun _ hs => wp_forM l (fun b hb t ht => hf b hb t ht) hs

lemma zoomed {view : τ → σ} {put : σ → τ → τ} (hv : ∀ s t, view (put s t) = s) (hx : Ensures I E x) :
    Ensures (fun t => I (view t)) (fun e t => E e (view t)) (zoom view put x) := fun t ht => by
  rw [wp_zoom]
  exact wp_mono (hx (view t) ht) (fun _ s hs => (hv s t).symm ▸ hs) fun _ s hs => (hv s t).symm ▸ hs

end Ensures

lemma Keeps.zoom {J : τ → Prop} {x : EStateM ε σ α} (view : τ → σ) (put : σ → τ → τ)
    (h : ∀ s t, J t → J (put s t)) : Keeps J (zoom view put x) := fun t ht => by
  rw [wp_zoom]
  exact wp_of_cases (fun _ s _ => h s t ht) fun _ s _ => h s t ht

end Kryptik.Lib.Prog
