import Mathlib

namespace Kryptik.Lib.Bpf

abbrev Word := BitVec 32

structure SockFilter where
  code : BitVec 16
  jt : ℕ
  jf : ℕ
  k : Word

/-- The class, size and mode bits of a load of a word, the jumps against a constant
and the return of a constant. -/
def ldWAbs : BitVec 16 := 0x00#16 ||| 0x00#16 ||| 0x20#16
def jmpJeqK : BitVec 16 := 0x05#16 ||| 0x10#16 ||| 0x00#16
def jmpJgtK : BitVec 16 := 0x05#16 ||| 0x20#16 ||| 0x00#16
def jmpJgeK : BitVec 16 := 0x05#16 ||| 0x30#16 ||| 0x00#16
def jmpJsetK : BitVec 16 := 0x05#16 ||| 0x40#16 ||| 0x00#16
def retK : BitVec 16 := 0x06#16 ||| 0x00#16

def stmt (code : BitVec 16) (k : Word) : SockFilter := ⟨code, 0, 0, k⟩

def jump (code : BitVec 16) (k : Word) (jt jf : ℕ) : SockFilter := ⟨code, jt, jf, k⟩

/-- What a jump compares, none for an instruction that is no jump. -/
def test (code : BitVec 16) (acc k : Word) : Option Bool :=
  if code = jmpJeqK then some (acc == k)
  else if code = jmpJgtK then some (decide (k < acc))
  else if code = jmpJgeK then some (decide (k ≤ acc))
  else if code = jmpJsetK then some (acc &&& k != 0)
  else none

/-- Run a program from the instruction `skip` ahead, with `acc` in the accumulator.
The result is the returned constant; none if it leaves the program, loads from
outside the data or meets an instruction that is none of these. -/
def exec (load : Word → Option Word) : List SockFilter → ℕ → Word → Option Word
  | [], _, _ => none
  | _ :: rest, skip + 1, acc => exec load rest skip acc
  | i :: rest, 0, acc =>
    if i.code = ldWAbs then
      match load i.k with
      | none => none
      | some w => exec load rest 0 w
    else if i.code = retK then some i.k
    else match test i.code acc i.k with
      | none => none
      | some b => exec load rest (if b then i.jt else i.jf) acc

variable {load : Word → Option Word} {rest : List SockFilter} {acc k w : Word} {jt jf n : ℕ}

@[simp] lemma exec_nil : exec load [] n acc = none := by cases n <;> rfl

@[simp] lemma exec_skip {i : SockFilter} : exec load (i :: rest) (n + 1) acc = exec load rest n acc :=
  rfl

@[simp] lemma exec_ret : exec load (stmt retK k :: rest) 0 acc = some k := rfl

lemma exec_ld (h : load k = some w) : exec load (stmt ldWAbs k :: rest) 0 acc = exec load rest 0 w := by
  have hc : (stmt ldWAbs k).code = ldWAbs := rfl
  have hk : (stmt ldWAbs k).k = k := rfl
  rw [exec, if_pos hc, hk, h]

lemma exec_jump {code : BitVec 16} {b : Bool} (hl : code ≠ ldWAbs) (hr : code ≠ retK)
    (ht : test code acc k = some b) :
    exec load (jump code k jt jf :: rest) 0 acc = exec load rest (if b then jt else jf) acc := by
  have hc : (jump code k jt jf).code = code := rfl
  have hk : (jump code k jt jf).k = k := rfl
  rw [exec, if_neg (hc ▸ hl), if_neg (hc ▸ hr), hc, hk, ht]
  rfl

@[simp] lemma exec_jeq : exec load (jump jmpJeqK k jt jf :: rest) 0 acc =
    exec load rest (if acc = k then jt else jf) acc := by
  rw [exec_jump (b := acc == k) (by decide) (by decide) rfl]
  simp

@[simp] lemma exec_jgt : exec load (jump jmpJgtK k jt jf :: rest) 0 acc =
    exec load rest (if k < acc then jt else jf) acc := by
  rw [exec_jump (b := decide (k < acc)) (by decide) (by decide) rfl]
  simp

@[simp] lemma exec_jge : exec load (jump jmpJgeK k jt jf :: rest) 0 acc =
    exec load rest (if k ≤ acc then jt else jf) acc := by
  rw [exec_jump (b := decide (k ≤ acc)) (by decide) (by decide) rfl]
  simp

@[simp] lemma exec_jset : exec load (jump jmpJsetK k jt jf :: rest) 0 acc =
    exec load rest (if acc &&& k = 0 then jf else jt) acc := by
  rw [exec_jump (b := acc &&& k != 0) (by decide) (by decide) rfl]
  by_cases h : acc &&& k = 0 <;> simp [h]

lemma exec_append (block : List SockFilter) :
    exec load (block ++ rest) (block.length + n) acc = exec load rest n acc := by
  induction block with
  | nil => simp
  | cons i block ih =>
    rw [List.length_cons, Nat.add_right_comm]
    exact ih

lemma exec_past {block : List SockFilter} (h : n = block.length) :
    exec load (block ++ rest) n acc = exec load rest 0 acc := by
  subst h
  exact exec_append (n := 0) block

lemma exec_drop (p : List SockFilter) : exec load p n acc = exec load (p.drop n) 0 acc := by
  induction p generalizing n with
  | nil => simp
  | cons i p ih =>
    cases n with
    | zero => rfl
    | succ n => exact ih

/-- What a block of instructions makes of the accumulator wherever it stands: it
returns a constant, or goes on behind its end with the accumulator as it was. -/
def Decides (load : Word → Option Word) (acc : Word) (block : List SockFilter) (r : Option Word) : Prop :=
  ∀ rest, exec load (block ++ rest) 0 acc = r.or (exec load rest 0 acc)

namespace Decides

variable {block block' : List SockFilter} {r r' : Option Word}

lemma nil : Decides load acc [] none := fun _ => rfl

lemma append (h : Decides load acc block r) (h' : Decides load acc block' r') :
    Decides load acc (block ++ block') (r.or r') := by
  intro rest
  rw [List.append_assoc, h, h', Option.or_assoc]

lemma ret : Decides load acc [stmt retK k] (some k) := fun _ => rfl

lemma guard (hlen : jf = block.length) (h : acc = k → Decides load acc block r) :
    Decides load acc (jump jmpJeqK k 0 jf :: block) (if acc = k then r else none) := by
  intro rest
  rw [List.cons_append, exec_jeq]
  split
  · exact h ‹_› rest
  · rw [exec_past hlen]
    rfl

lemma pair : Decides load acc [jump jmpJeqK k 0 1, stmt retK w] (if acc = k then some w else none) :=
  guard rfl fun _ => ret

lemma ld {w' : Word} (hl : load k = some w) (h : Decides load w block (some w')) :
    Decides load acc (stmt ldWAbs k :: block) (some w') := by
  intro rest
  rw [List.cons_append, exec_ld hl, h rest]
  rfl

end Decides

end Kryptik.Lib.Bpf
