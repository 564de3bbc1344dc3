import Kryptik.Lib.Text

namespace Kryptik.Kryptikd.Password

open Lib.Text List

def second : ℕ := 1000000000

/-- The hash the shadow file holds for `user`, if it is SHA-512 or SHA-256 crypt's. -/
def hashOf (shadow user : List Char) : Option (List Char) :=
  let field (l : List Char) : Option (List Char) :=
    match splitBy (· == ':') l with
    | name :: hash :: _ => if name = user then some hash else none
    | _ => none
  ((lines shadow).findSome? field).filter fun h => "$6$".toList.isPrefixOf h || "$5$".toList.isPrefixOf h

structure Attempts where
  failures : ℕ := 0
  next : Option ℕ := none

namespace Attempts

def wait (a : Attempts) (now : ℕ) : Option ℕ :=
  (a.next.bind fun n => if now ≤ n then some (n - now) else none).filter (· ≠ 0)

/-- The seconds to wait, rounded up, while no password may be tried. -/
def paused (a : Attempts) (now : ℕ) : Option ℕ :=
  (a.wait now).map fun w => w / second + if 0 < w % second then 1 else 0

def failed (a : Attempts) (now : ℕ) : Attempts :=
  let failures := min (a.failures + 1) 4294967295
  ⟨failures, some (now + min (2 ^ min failures 6) 60 * second)⟩

def passed : Attempts := {}

end Attempts

inductive Refusal
  | wait (secs : ℕ)
  | unreadable
  | noHash (user : List Char)
  | wrong
  deriving DecidableEq

/-- What a call of `check` is given, with what reading the shadow file gives. -/
structure Call where
  shadow : Option (List Char)
  user : List Char
  password : List UInt8
  now : ℕ

def Call.hash (c : Call) : Option (List Char) := c.shadow.bind fun text => hashOf text c.user

-- what `crypt_r` makes of a phrase and a setting
variable (crypt : List UInt8 → List UInt8 → Option (List UInt8))

/-- Whether the password hashes to `hash`, compared without a branch on where they differ. -/
def hashes (password hash : List UInt8) : Bool :=
  !(password.contains 0 || hash.contains 0) &&
    match crypt password hash with
    | none => false
    | some got => got.length == hash.length && (got.zip hash).foldl (fun d p => d ||| (p.1 ^^^ p.2)) 0 == 0

def check (c : Call) (a : Attempts) : Except Refusal Unit × Attempts :=
  match a.paused c.now with
  | some w => (.error (.wait w), a)
  | none =>
    match c.shadow with
    | none => (.error .unreadable, a)
    | some text =>
      match hashOf text c.user with
      | none => (.error (.noHash c.user), a)
      | some hash =>
        if hashes crypt c.password (hash.flatMap String.utf8EncodeChar) then (.ok (), .passed)
        else (.error .wrong, a.failed c.now)

abbrev Entry := Call × Except Refusal Unit

def log (a : Attempts) : List Call → List Entry
  | [] => []
  | c :: cs => (c, (check crypt c a).1) :: log (check crypt c a).2 cs

def compared (e : Entry) : Bool :=
  match e.2 with
  | .ok _ | .error .wrong => true
  | .error _ => false

variable {crypt} {a : Attempts}

lemma paused_eq_none {now : ℕ} : a.paused now = none ↔ ∀ n ∈ a.next, n ≤ now := by
  unfold Attempts.paused Attempts.wait
  cases a.next with
  | none => simp
  | some n =>
    by_cases hn : now ≤ n
    · simp [hn, Nat.sub_eq_zero_iff_le]
    · simp [hn]
      omega

/-- What a call can do: compare a password that may be tried, or nothing. -/
inductive Checked (a : Attempts) : Entry → Attempts → Prop
  | idle {e : Entry} : compared e = false → ((∃ n ∈ a.next, e.1.now < n) ∨ e.1.hash = none) → Checked a e a
  | right {c : Call} : (∀ n ∈ a.next, n ≤ c.now) → Checked a (c, .ok ()) {}
  | wrong {c : Call} : (∀ n ∈ a.next, n ≤ c.now) → Checked a (c, .error .wrong) (a.failed c.now)

lemma checked (c : Call) (a : Attempts) : Checked a (c, (check crypt c a).1) (check crypt c a).2 := by
  unfold check
  split
  · rename_i w h
    refine .idle rfl (.inl ?_)
    by_contra! hnext
    rw [paused_eq_none.mpr hnext] at h
    cases h
  · rename_i h
    have h := paused_eq_none.mp h
    split
    · rename_i hs
      exact .idle rfl (.inr (by rw [Call.hash, hs]; rfl))
    · rename_i text hs
      split
      · rename_i hh
        exact .idle rfl (.inr (by rw [Call.hash, hs]; exact hh))
      · split
        · exact .right h
        · exact .wrong h

/-- Calls on one `Attempts`, from `a` on. -/
inductive Logged : Attempts → List Entry → Prop
  | nil {a : Attempts} : Logged a []
  | cons {a a' : Attempts} {e : Entry} {l : List Entry} : Checked a e a' → Logged a' l → Logged a (e :: l)

lemma logged (a : Attempts) (calls : List Call) : Logged a (log crypt a calls) := by
  induction calls generalizing a with
  | nil => exact .nil
  | cons c cs ih => exact .cons (checked c a) (ih _)

variable {before stretch rest : List Entry}

lemma Logged.split (h : Logged a (before ++ rest)) : ∃ a', Logged a' rest := by
  induction before generalizing a with
  | nil => exact ⟨a, h⟩
  | cons e before ih =>
    cases h with
    | cons _ h => exact ih h

/-- The comparisons left until `finish` if all fail: one for each pause that is still to double, and one a minute from
the first that may be made. -/
def Attempts.budget (a : Attempts) (start finish : ℕ) : ℕ :=
  let first := max (a.next.getD 0) start
  if first ≤ finish then 6 - min a.failures 5 + (finish - first) / (60 * second) else 0

end Kryptik.Kryptikd.Password
