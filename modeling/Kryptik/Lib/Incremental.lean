import Mathlib

namespace Kryptik.Lib.Incremental

variable {σ ι ε : Type}

/-- One turn of a loop over its input: `none` when it needs more of it, else the
state after the turn, which may be the last one. -/
abbrev Outcome (ε σ : Type) := Option (Except (ε × σ) σ)

inductive Runs (step : σ → Outcome ε σ) : σ → Except (ε × σ) σ → Prop
  | wait {s : σ} (h : step s = none) : Runs step s (.ok s)
  | stop {s t : σ} {e : ε} (h : step s = some (.error (e, t))) : Runs step s (.error (e, t))
  | more {s t : σ} {r : Except (ε × σ) σ} (h : step s = some (.ok t)) (hr : Runs step t r) :
      Runs step s r

/-- A turn that does not wait does the same with more input behind it. -/
structure Steady (step : σ → Outcome ε σ) (feed : σ → ι → σ) : Prop where
  ok : ∀ s t i, step s = some (.ok t) → step (feed s i) = some (.ok (feed t i))
  error : ∀ s t e i, step s = some (.error (e, t)) → step (feed s i) = some (.error (e, feed t i))

variable {step : σ → Outcome ε σ} {feed : σ → ι → σ} {s t : σ} {r r' : Except (ε × σ) σ}

lemma Runs.unique (h : Runs step s r) (h' : Runs step s r') : r = r' := by
  induction h with
  | wait hs => cases h' with
    | wait => rfl
    | stop hs' | more hs' => exact absurd (hs.symm.trans hs') (by simp)
  | stop hs => cases h' with
    | wait hs' => exact absurd (hs.symm.trans hs') (by simp)
    | stop hs' =>
      obtain ⟨rfl, rfl⟩ : _ ∧ _ := by simpa using hs.symm.trans hs'
      rfl
    | more hs' => exact absurd (hs.symm.trans hs') (by simp)
  | more hs _ ih => cases h' with
    | wait hs' | stop hs' => exact absurd (hs.symm.trans hs') (by simp)
    | more hs' hr' =>
      obtain rfl : _ = _ := by simpa using hs.symm.trans hs'
      exact ih hr'

lemma Runs.resume (hf : Steady step feed) (i : ι) (h : Runs step s (.ok t))
    (h' : Runs step (feed t i) r) : Runs step (feed s i) r := by
  generalize hr : (Except.ok t : Except (ε × σ) σ) = q at h
  induction h with
  | wait => cases hr; exact h'
  | stop => cases hr
  | more hs _ ih => exact .more (hf.ok _ _ i hs) (ih hr)

lemma Runs.resume_error (hf : Steady step feed) (i : ι) {e : ε} (h : Runs step s (.error (e, t))) :
    Runs step (feed s i) (.error (e, feed t i)) := by
  generalize hr : (Except.error (e, t) : Except (ε × σ) σ) = q at h
  induction h with
  | wait => cases hr
  | stop hs => cases hr; exact .stop (hf.error _ _ _ i hs)
  | more hs _ ih => exact .more (hf.ok _ _ i hs) (ih hr)

end Kryptik.Lib.Incremental
