import Mathlib

namespace Kryptik.Lib.IdReuse

open List

variable {ι : Type}

-- One side makes objects of ids and tells the other, which answers later. Whatever the delays, what is under way
-- about one id takes one of four shapes, and each thing either side does leads from one to another.

/-- What is under way there about an id: it is held, or an object of a kind is made of it. -/
inductive Made (ι : Type)
  | held
  | made (i : ι)

def Made.after : Option ι → Made ι → Option ι
  | there, .held => there
  | _, .made i => some i

/-- What is under way back about an id: the two answers to its holding, or an object's event or end. -/
inductive Tag
  | answer
  | answered
  | event
  | deleted
  deriving DecidableEq

structure Answers (l : List Tag) : Prop where
  all : ∀ t ∈ l, t = .answer ∨ t = .answered
  last : ∀ t, l.getLast? = some t → t = .answered

namespace Answers

lemma nil : Answers [] := ⟨fun _ h => absurd h not_mem_nil, fun _ h => by cases h⟩

variable {l : List Tag}

lemma concat (h : Answers l) : Answers (l ++ [.answer, .answered]) := by
  refine ⟨fun t ht => ?_, fun t ht => ?_⟩
  · obtain ht | ht := mem_append.mp ht
    · exact h.all t ht
    · simpa using ht
  · simpa using ht.symm

lemma tail {t : Tag} (h : Answers (t :: l)) : Answers l := by
  refine ⟨fun x hx => h.all x (mem_cons_of_mem t hx), fun x hx => ?_⟩
  cases l with
  | nil => cases hx
  | cons y l =>
    exact h.last x hx

lemma pos {t : Tag} (h : Answers (t :: l)) : 0 < (t :: l).count .answered := by
  cases hl : (t :: l).getLast? with
  | none => simp at hl
  | some x =>
    obtain rfl := h.last x hl
    exact count_pos_iff.mpr (mem_of_getLast? hl)

end Answers

/-- What the two sides have of an id, what is under way there about it and what of an object is under way back, and
how many holdings are under way. -/
inductive Phase : Option ι → Option ι → List (Made ι) → List Tag → ℕ → Prop
  | idle (m : ℕ) : Phase none none (List.replicate m .held) [] m
  | coming (m : ℕ) (i : ι) : Phase (some i) none (List.replicate m .held ++ [.made i]) [] m
  | live (b : ℕ) (i : ι) : Phase (some i) (some i) [] (List.replicate b .event) 0
  | gone (b : ℕ) (i : ι) : Phase (some i) none [] (List.replicate b .event ++ [.deleted]) 0

namespace Phase

variable {here there : Option ι} {up : List (Made ι)} {real : List Tag} {m : ℕ} {i : ι}

lemma reserve (h : Phase none there up real m) : Phase none there (up ++ [.held]) real (m + 1) := by
  cases h with
  | idle m =>
    rw [← replicate_succ']
    exact .idle (m + 1)

lemma create (h : Phase none there up real m) (i : ι) : Phase (some i) there (up ++ [.made i]) real m := by
  cases h with
  | idle m => exact .coming m i

lemma free {u : Made ι} (h : Phase here there (u :: up) real m) : there = none ∧ real = [] := by
  generalize hu : u :: up = ups at h
  cases h with
  | idle m | coming m i => exact ⟨rfl, rfl⟩
  | live b i | gone b i => cases hu

lemma hold (h : Phase here there (.held :: up) real m) : ∃ m', m = m' + 1 ∧ Phase here there up real m' := by
  generalize hu : Made.held :: up = ups at h
  cases h with
  | idle m =>
    cases m with
    | zero => cases hu
    | succ m =>
      rw [replicate_succ, cons.injEq] at hu
      exact ⟨m, rfl, hu.2 ▸ .idle m⟩
  | coming m i =>
    cases m with
    | zero => cases hu
    | succ m =>
      rw [replicate_succ, cons_append, cons.injEq] at hu
      exact ⟨m, rfl, hu.2 ▸ .coming m i⟩
  | live b i | gone b i => cases hu

lemma made_head (h : Phase here there (.made i :: up) real m) : here = some i ∧ up = [] ∧ real = [] ∧ m = 0 := by
  generalize hu : Made.made i :: up = ups at h
  cases h with
  | idle m => cases m <;> cases hu
  | coming m j =>
    cases m with
    | zero =>
      obtain ⟨rfl, rfl⟩ := hu
      exact ⟨rfl, rfl, rfl, rfl⟩
    | succ m => cases hu
  | live b j | gone b j => cases hu

lemma make (h : Phase here there (.made i :: up) real m) : Phase here (some i) up real m := by
  obtain ⟨rfl, rfl, rfl, rfl⟩ := h.made_head
  exact .live 0 i

lemma pass (h : Phase here there (.made i :: up) real m) : Phase here none up [.event, .deleted] m := by
  obtain ⟨rfl, rfl, rfl, rfl⟩ := h.made_head
  exact .gone 1 i

lemma live_there (h : Phase here (some i) up real m) :
    here = some i ∧ up = [] ∧ m = 0 ∧ ∃ b, real = replicate b .event := by
  cases h with
  | live b i => exact ⟨rfl, rfl, rfl, b, rfl⟩

lemma event (h : Phase here (some i) up real m) : Phase here (some i) up (real ++ [.event]) m := by
  obtain ⟨rfl, rfl, rfl, b, rfl⟩ := h.live_there
  rw [← replicate_succ']
  exact .live (b + 1) i

lemma delete (h : Phase here (some i) up real m) : Phase here none up (real ++ [.deleted]) m := by
  obtain ⟨rfl, rfl, rfl, b, rfl⟩ := h.live_there
  exact .gone b i

lemma heard {t : Tag} (h : Phase here there up (t :: real) m) :
    m = 0 ∧ (t = .event ∧ Phase here there up real m ∨ t = .deleted ∧ Phase none there up real m) := by
  generalize hr : t :: real = reals at h
  cases h with
  | idle m | coming m i => cases hr
  | live b i =>
    cases b with
    | zero => cases hr
    | succ b =>
      rw [replicate_succ, cons.injEq] at hr
      exact ⟨rfl, Or.inl ⟨hr.1, hr.2 ▸ .live b i⟩⟩
  | gone b i =>
    cases b with
    | zero =>
      rw [replicate_zero, nil_append, cons.injEq] at hr
      exact ⟨rfl, Or.inr ⟨hr.1, hr.2 ▸ .idle 0⟩⟩
    | succ b =>
      rw [replicate_succ, cons_append, cons.injEq] at hr
      exact ⟨rfl, Or.inl ⟨hr.1, hr.2 ▸ .gone b i⟩⟩

lemma real_tags (h : Phase here there up real m) : ∀ t ∈ real, t = .event ∨ t = .deleted := by
  intro t ht
  cases h with
  | idle m | coming m i => cases ht
  | live b i => exact .inl (eq_of_mem_replicate ht)
  | gone b i =>
    obtain ht | ht := mem_append.mp ht
    · exact .inl (eq_of_mem_replicate ht)
    · exact .inr (mem_singleton.mp ht)

lemma arrives (h : Phase here there up real m) :
    up.foldl Made.after there = here ∨ up.foldl Made.after there = none ∧ .deleted ∈ real := by
  have hheld (m : ℕ) : (replicate m (.held : Made ι)).foldl Made.after none = none := by
    induction m with
    | zero => rfl
    | succ m ih => exact ih
  cases h with
  | idle m => exact .inl (hheld m)
  | coming m i => exact .inl (foldl_append ..)
  | live b i => exact .inl rfl
  | gone b i => exact .inr ⟨rfl, mem_append_right _ (mem_singleton_self _)⟩

end Phase

/-- What is under way back about an id are answers to its holdings, and then an object's events and end; `n` of the
holdings are not answered to the end. -/
def Shape (here there : Option ι) (up : List (Made ι)) (down : List Tag) (n : ℕ) : Prop :=
  ∃ answers real m, down = answers ++ real ∧ Answers answers ∧ n = m + answers.count .answered ∧
    Phase here there up real m

namespace Shape

variable {here there : Option ι} {up : List (Made ι)} {down : List Tag} {n : ℕ} {i : ι}

lemma start : Shape (none : Option ι) none [] [] 0 := ⟨[], [], 0, rfl, .nil, rfl, .idle 0⟩

lemma start_live (i : ι) : Shape (some i) (some i) [] [] 0 := ⟨[], [], 0, rfl, .nil, rfl, .live 0 i⟩

lemma reserve (h : Shape none there up down n) : Shape none there (up ++ [.held]) down (n + 1) := by
  obtain ⟨answers, real, m, hd, ha, rfl, hp⟩ := h
  exact ⟨answers, real, m + 1, hd, ha, Nat.add_right_comm _ _ _, hp.reserve⟩

lemma create (h : Shape none there up down n) (i : ι) : Shape (some i) there (up ++ [.made i]) down n := by
  obtain ⟨answers, real, m, hd, ha, hn, hp⟩ := h
  exact ⟨answers, real, m, hd, ha, hn, hp.create i⟩

lemma free {u : Made ι} (h : Shape here there (u :: up) down n) : there = none := by
  obtain ⟨_, _, _, _, _, _, hp⟩ := h
  exact hp.free.1

lemma hold (h : Shape here there (.held :: up) down n) : Shape here there up (down ++ [.answer, .answered]) n := by
  obtain ⟨answers, real, m, rfl, ha, rfl, hp⟩ := h
  obtain ⟨-, rfl⟩ := hp.free
  obtain ⟨m', rfl, hheld⟩ := hp.hold
  refine ⟨answers ++ [.answer, .answered], [], m', by simp, ha.concat, ?_, hheld⟩
  rw [count_append, show ([Tag.answer, Tag.answered]).count .answered = 1 from rfl]
  omega

lemma make (h : Shape here there (.made i :: up) down n) : Shape here (some i) up down n := by
  obtain ⟨answers, real, m, hd, ha, hn, hp⟩ := h
  exact ⟨answers, real, m, hd, ha, hn, hp.make⟩

lemma pass (h : Shape here there (.made i :: up) down n) : Shape here none up (down ++ [.event, .deleted]) n := by
  obtain ⟨answers, real, m, rfl, ha, hn, hp⟩ := h
  obtain ⟨-, rfl⟩ := hp.free
  exact ⟨answers, [.event, .deleted], m, by simp, ha, hn, hp.pass⟩

lemma event (h : Shape here (some i) up down n) : Shape here (some i) up (down ++ [.event]) n := by
  obtain ⟨answers, real, m, rfl, ha, hn, hp⟩ := h
  exact ⟨answers, real ++ [.event], m, append_assoc .., ha, hn, hp.event⟩

lemma delete (h : Shape here (some i) up down n) : Shape here none up (down ++ [.deleted]) n := by
  obtain ⟨answers, real, m, rfl, ha, hn, hp⟩ := h
  exact ⟨answers, real ++ [.deleted], m, append_assoc .., ha, hn, hp.delete⟩

lemma answer_head {t : Tag} (h : Shape here there up (t :: down) n) (ht : t = .answer ∨ t = .answered) :
    0 < n ∧ Shape here there up down (if t = .answered then n - 1 else n) := by
  obtain ⟨answers, real, m, hd, ha, rfl, hp⟩ := h
  cases answers with
  | nil =>
    have hreal := hp.real_tags t (by rw [nil_append] at hd; rw [← hd]; exact mem_cons_self)
    rcases ht with rfl | rfl <;> rcases hreal with hreal | hreal <;> cases hreal
  | cons x rest =>
    obtain ⟨rfl, rfl⟩ := hd
    have hpos := ha.pos
    refine ⟨by omega, rest, real, m, rfl, ha.tail, ?_, hp⟩
    obtain rfl | rfl := ht
    · simp
    · rw [if_pos rfl, count_cons_self]
      omega

lemma object_head {t : Tag} (h : Shape here there up (t :: down) n) (ht : t = .event ∨ t = .deleted) :
    n = 0 ∧ (t = .event ∧ Shape here there up down n ∨ t = .deleted ∧ Shape none there up down n) := by
  obtain ⟨answers, real, m, hd, ha, rfl, hp⟩ := h
  cases answers with
  | cons x rest =>
    rw [cons_append, cons.injEq] at hd
    have hall := ha.all x mem_cons_self
    rw [← hd.1] at hall
    rcases ht with rfl | rfl <;> rcases hall with hall | hall <;> cases hall
  | nil =>
    rw [nil_append] at hd
    rw [← hd] at hp
    obtain ⟨rfl, hcases⟩ := hp.heard
    refine ⟨rfl, ?_⟩
    obtain ⟨he, hp⟩ | ⟨he, hp⟩ := hcases
    · exact .inl ⟨he, [], down, 0, rfl, .nil, rfl, hp⟩
    · exact .inr ⟨he, [], down, 0, rfl, .nil, rfl, hp⟩

lemma here_of_there (h : Shape here (some i) up down n) : here = some i := by
  obtain ⟨_, _, _, _, _, _, hp⟩ := h
  exact hp.live_there.1

lemma arrives (h : Shape here there up down n) :
    up.foldl Made.after there = here ∨ up.foldl Made.after there = none ∧ .deleted ∈ down := by
  obtain ⟨answers, real, m, rfl, _, _, hp⟩ := h
  obtain h | ⟨h, hd⟩ := hp.arrives
  · exact .inl h
  · exact .inr ⟨h, mem_append_right _ hd⟩

lemma not_deleted {u : Made ι} (h : Shape here there (u :: up) down n) : .deleted ∉ down := by
  obtain ⟨answers, real, m, rfl, ha, _, hp⟩ := h
  obtain ⟨-, rfl⟩ := hp.free
  intro hd
  rw [append_nil] at hd
  rcases ha.all _ hd with h | h <;> cases h

end Shape

end Kryptik.Lib.IdReuse
