import Mathlib

namespace Kryptik.Lib.Batches

open List

variable {α β : Type}

/-- Items waiting to be sent, in batches. The tokens of a batch leave with its
first item. -/
abbrev Queue (α β : Type) := List (List α × List β)

def items (q : Queue α β) : List α := q.flatMap Prod.fst

def tokens (q : Queue α β) : List β := q.flatMap Prod.snd

def push (maxItems maxTokens : ℕ) (q : Queue α β) (as : List α) (bs : List β) : Queue α β :=
  match q.getLast? with
  | some (a, b) =>
    if a.length + as.length ≤ maxItems ∧ b.length + bs.length ≤ maxTokens then
      q.dropLast ++ [(a ++ as, b ++ bs)]
    else q ++ [(as, bs)]
  | none => [(as, bs)]

/-- What is left once the first `n` items of the front batch have gone out,
with all the tokens it still had. -/
def sent (n : ℕ) : Queue α β → Queue α β
  | [] => []
  | (a, _) :: q => if n = a.length then q else (a.drop n, []) :: q

@[simp] lemma items_nil : items ([] : Queue α β) = [] := rfl
@[simp] lemma tokens_nil : tokens ([] : Queue α β) = [] := rfl

@[simp] lemma items_cons (a : List α) (b : List β) (q : Queue α β) :
    items ((a, b) :: q) = a ++ items q := by simp [items]

@[simp] lemma tokens_cons (a : List α) (b : List β) (q : Queue α β) :
    tokens ((a, b) :: q) = b ++ tokens q := by simp [tokens]

@[simp] lemma items_append (q r : Queue α β) : items (q ++ r) = items q ++ items r := by
  simp [items]

@[simp] lemma tokens_append (q r : Queue α β) : tokens (q ++ r) = tokens q ++ tokens r := by
  simp [tokens]

variable {maxItems maxTokens : ℕ}

lemma push_cases (maxItems maxTokens : ℕ) (q : Queue α β) (as : List α) (bs : List β) :
    (∃ r a b, q = r ++ [(a, b)] ∧ a.length + as.length ≤ maxItems ∧ b.length + bs.length ≤ maxTokens ∧
      push maxItems maxTokens q as bs = r ++ [(a ++ as, b ++ bs)]) ∨
    push maxItems maxTokens q as bs = q ++ [(as, bs)] := by
  obtain rfl | ⟨r, ⟨a, b⟩, rfl⟩ := eq_nil_or_concat' q
  · exact .inr rfl
  · by_cases h : a.length + as.length ≤ maxItems ∧ b.length + bs.length ≤ maxTokens
    · exact .inl ⟨r, a, b, rfl, h.1, h.2, by simp [push, h]⟩
    · exact .inr (by simp [push, h])

lemma push_front {q : Queue α β} {as : List α} {bs : List β} {q1 q2 : Queue α β}
    (h : push maxItems maxTokens q as bs = q1 ++ q2) : (∃ q3, q = q1 ++ q3) ∨ q2 = [] := by
  obtain rfl | ⟨l, e, rfl⟩ := eq_nil_or_concat' q2
  · exact .inr rfl
  · left
    rcases push_cases maxItems maxTokens q as bs with
      ⟨r, a, b, rfl, -, -, hp⟩ | hp <;> rw [hp, ← append_assoc] at h
    · exact ⟨l ++ [(a, b)], by rw [(append_inj' h rfl).1, append_assoc]⟩
    · exact ⟨l, (append_inj' h rfl).1⟩

lemma items_push (q : Queue α β) (as : List α) (bs : List β) :
    items (push maxItems maxTokens q as bs) = items q ++ as := by
  rcases push_cases maxItems maxTokens q as bs with
    ⟨r, a, b, rfl, -, -, h⟩ | h <;> rw [h] <;> simp

lemma tokens_push (q : Queue α β) (as : List α) (bs : List β) :
    tokens (push maxItems maxTokens q as bs) = tokens q ++ bs := by
  rcases push_cases maxItems maxTokens q as bs with
    ⟨r, a, b, rfl, -, -, h⟩ | h <;> rw [h] <;> simp

lemma items_sent (n : ℕ) (a : List α) (b : List β) (q : Queue α β) :
    a.take n ++ items (sent n ((a, b) :: q)) = items ((a, b) :: q) := by
  simp only [sent]
  split
  · subst n; simp
  · simp [← append_assoc]

lemma tokens_sent (n : ℕ) (a : List α) (b : List β) (q : Queue α β) :
    b ++ tokens (sent n ((a, b) :: q)) = tokens ((a, b) :: q) := by
  simp only [sent]
  split <;> simp

def Bounded (maxItems maxTokens : ℕ) (q : Queue α β) : Prop :=
  ∀ e ∈ q, e.1 ≠ [] ∧ e.1.length ≤ maxItems ∧ e.2.length ≤ maxTokens

lemma Bounded.push {q : Queue α β} (h : Bounded maxItems maxTokens q) {as : List α}
    {bs : List β} (ha : as ≠ []) (hi : as.length ≤ maxItems) (ht : bs.length ≤ maxTokens) :
    Bounded maxItems maxTokens (push maxItems maxTokens q as bs) := by
  intro e he
  rcases push_cases maxItems maxTokens q as bs with
    ⟨r, a, b, rfl, hla, hlb, hp⟩ | hp <;> rw [hp] at he <;>
    simp only [mem_append, mem_singleton] at he <;> rcases he with he | rfl
  · exact h e (mem_append_left _ he)
  · exact ⟨by simp [ha], by simpa using hla, by simpa using hlb⟩
  · exact h e he
  · exact ⟨ha, hi, ht⟩

lemma Bounded.sent {n : ℕ} {a : List α} {b : List β} {q : Queue α β}
    (h : Bounded maxItems maxTokens ((a, b) :: q)) (hn : n ≤ a.length) :
    Bounded maxItems maxTokens (sent n ((a, b) :: q)) := by
  have htail : Bounded maxItems maxTokens q := fun e he => h e (mem_cons_of_mem _ he)
  have hfront := h (a, b) mem_cons_self
  simp only [Batches.sent]
  split
  · exact htail
  · intro e he
    obtain rfl | he := mem_cons.mp he
    · refine ⟨fun hd => ?_, ?_, by simp⟩
      · have := drop_eq_nil_iff.mp hd
        omega
      · have hlen : a.length ≤ maxItems := hfront.2.1
        simp only [length_drop]
        omega
    · exact htail e he

/-- How many items come before message `j`, and how many tokens there are up
to and including it. -/
def itemsBefore (msgs : Queue α β) (j : ℕ) : ℕ := (items (msgs.take j)).length

def tokensThrough (msgs : Queue α β) (j : ℕ) : ℕ := (tokens (msgs.take (j + 1))).length

/-- With `s` items and `t` tokens gone, every message begun once any number of
whole batches has left has all its tokens gone by then. -/
def Paired (msgs : Queue α β) (s t : ℕ) (q : Queue α β) : Prop :=
  ∀ q1 q2, q = q1 ++ q2 → ∀ j < msgs.length, itemsBefore msgs j < s + (items q1).length →
    tokensThrough msgs j ≤ t + (tokens q1).length

lemma Paired.now {msgs : Queue α β} {s t : ℕ} {q : Queue α β} (h : Paired msgs s t q)
    {j : ℕ} (hj : j < msgs.length) (hs : itemsBefore msgs j < s) : tokensThrough msgs j ≤ t := by
  simpa using h [] q rfl j hj (by simpa using hs)

lemma tokensThrough_le (msgs : Queue α β) (j : ℕ) : tokensThrough msgs j ≤ (tokens msgs).length := by
  have h : tokens msgs = tokens (msgs.take (j + 1)) ++ tokens (msgs.drop (j + 1)) := by
    rw [← tokens_append, take_append_drop]
  simp only [tokensThrough, h, length_append]
  omega

lemma itemsBefore_concat (msgs : Queue α β) (m : List α × List β) {j : ℕ}
    (hj : j ≤ msgs.length) : itemsBefore (msgs ++ [m]) j = itemsBefore msgs j := by
  simp [itemsBefore, take_append_of_le_length hj]

lemma tokensThrough_concat (msgs : Queue α β) (m : List α × List β) {j : ℕ}
    (hj : j < msgs.length) : tokensThrough (msgs ++ [m]) j = tokensThrough msgs j := by
  simp [tokensThrough, take_append_of_le_length (Nat.succ_le_of_lt hj)]

lemma itemsBefore_length (msgs : Queue α β) : itemsBefore msgs msgs.length = (items msgs).length := by
  simp [itemsBefore]

lemma Paired.push {msgs : Queue α β} {s t : ℕ} {q : Queue α β} (h : Paired msgs s t q)
    (hs : s + (items q).length = (items msgs).length)
    (ht : t + (tokens q).length = (tokens msgs).length) (as : List α) (bs : List β) :
    Paired (msgs ++ [(as, bs)]) s t (push maxItems maxTokens q as bs) := by
  intro q1 q2 hq j hj hlt
  obtain ⟨q3, rfl⟩ | rfl := push_front hq
  · obtain hj' | hj' := Nat.lt_or_ge j msgs.length
    · rw [itemsBefore_concat _ _ (Nat.le_of_lt hj')] at hlt
      rw [tokensThrough_concat _ _ hj']
      exact h q1 q3 rfl j hj' hlt
    · obtain rfl : j = msgs.length := by simp only [length_append, length_singleton] at hj; omega
      rw [itemsBefore_concat _ _ (Nat.le_refl _), itemsBefore_length] at hlt
      simp only [items_append, length_append] at hs
      omega
  · have hle : tokensThrough (msgs ++ [(as, bs)]) j ≤ (tokens (msgs ++ [(as, bs)])).length :=
      tokensThrough_le _ _
    rw [append_nil] at hq
    rw [← hq, tokens_push, length_append]
    simp only [tokens_append, tokens_cons, tokens_nil, append_nil, length_append] at hle
    omega

lemma Paired.sent {msgs : Queue α β} {s t n : ℕ} {a : List α} {b : List β} {q : Queue α β}
    (h : Paired msgs s t ((a, b) :: q)) (hn : n ≤ a.length) :
    Paired msgs (s + n) (t + b.length) (sent n ((a, b) :: q)) := by
  intro q1 q2 hq j hj hlt
  simp only [Batches.sent] at hq
  split at hq
  · have := h ((a, b) :: q1) q2 (by rw [hq]; rfl) j hj
    simp only [items_cons, tokens_cons, length_append] at this
    omega
  · cases q1 with
    | nil =>
      have := h [(a, b)] q rfl j hj
      simp only [items_cons, items_nil, tokens_cons, tokens_nil, append_nil] at this hlt ⊢
      have := this (by simp only [length_nil, Nat.add_zero] at hlt; omega)
      simpa using this
    | cons e q1 =>
      obtain ⟨rfl, rfl⟩ : e = (a.drop n, []) ∧ q = q1 ++ q2 := by simpa [eq_comm] using hq
      have := h ((a, b) :: q1) q2 rfl j hj
      simp only [items_cons, tokens_cons, length_append, length_drop, length_nil] at this hlt ⊢
      omega

end Kryptik.Lib.Batches
