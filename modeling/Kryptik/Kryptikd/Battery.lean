import Kryptik.Lib.Text

namespace Kryptik.Kryptikd.Battery

open Lib.Text List

inductive Attribute
  | type
  | online
  | scope
  | present
  | capacity
  | energyNow
  | energyFull
  | chargeNow
  | chargeFull
  | status
  deriving DecidableEq

/-- A power supply's directory in sysfs: what the file of an attribute holds, where it can be read. -/
abbrev Supply := Attribute → Option (List Char)

def critical : ℕ := 3

def u64Max : ℕ := 2 ^ 64 - 1
def u32Max : ℕ := 2 ^ 32 - 1

def attr (s : Supply) (a : Attribute) : Option (List Char) := (s a).map trim

def isDigits (cs : List Char) : Bool := !cs.isEmpty && cs.all isAsciiDigit

def share (s : Supply) (now full : Attribute) : Option ℕ := do
  let now ← (attr s now).bind (parseUnsigned u64Max)
  let full ← ((attr s full).bind (parseUnsigned u64Max)).filter (0 < ·)
  return min (min (now * 100) u64Max / full) 100

def percent (s : Supply) : Option ℕ :=
  match (attr s .capacity).filter isDigits with
  | some c => parseUnsigned u64Max c
  | none => (share s .energyNow .energyFull).or (share s .chargeNow .chargeFull)

def isMains (s : Supply) (type : List Char) : Bool :=
  (type == "Mains".toList || type == "USB".toList) && attr s .online == some "1".toList

def isOwnBattery (s : Supply) (type : List Char) : Bool :=
  type == "Battery".toList && attr s .scope != some "Device".toList &&
    (attr s .present).all (· == "1".toList)

def holdsCharge (status : List Char) : Bool :=
  status == "Charging".toList || status == "Full".toList || status == "Not charging".toList

/-- `critical_in`; `none` where the class cannot be listed. -/
def criticalIn : Option (List Supply) → Bool
  | none => false
  | some rd =>
    let all := rd.filterMap (fun s => (attr s .type).map (fun t => (s, t)))
    let mains := all.any (fun (s, t) => isMains s t)
    let bats := (all.filter (fun (s, t) => isOwnBattery s t)).map Prod.fst
    match (bats.filterMap percent).max? with
    | none => false
    | some charge =>
      let said := bats.filterMap (attr · .status)
      let draining := said.any (· == "Discharging".toList) || (!said.any holdsCharge && !mains)
      draining && charge ≤ critical

/-- `sealed_look`; `none` where the count of `u32` overflows, which ends the daemon. -/
def sealedLook (low : ℕ) (critical : Bool) : Option (ℕ × Bool) :=
  if critical then
    if low < u32Max then some (low + 1, 2 ≤ low + 1) else none
  else some (0, false)

def sealedLooks : ℕ → List Bool → Option (List Bool)
  | _, [] => some []
  | low, critical :: rest => do
    let (low, off) ← sealedLook low critical
    let offs ← sealedLooks low rest
    return off :: offs

/-- What the kernel prints in an attribute: a line without blanks around it. -/
def Line (text line : List Char) : Prop :=
  (text = line ∨ text = line ++ ['\n']) ∧ '\n' ∉ line ∧ line.head?.all (!isWhitespace ·) = true ∧
    line.getLast?.all (!isWhitespace ·) = true

def numbers : List Attribute := [.capacity, .energyNow, .energyFull, .chargeNow, .chargeFull]

structure Supply.Printed (s : Supply) : Prop where
  line : ∀ a text, s a = some text → ∃ l, Line text l
  /-- A number has no plus sign and is below 9·10^16. -/
  number : ∀ a ∈ numbers, ∀ t, attr s a = some t → t.head? ≠ some '+' ∧ ∀ n, decimal t = some n → n < 9 * 10 ^ 16

section
variable {p : Char → Bool} {l text : List Char}

lemma dropWhile_of_head (h : l.head?.all (!p ·) = true) : l.dropWhile p = l := by
  cases l with
  | nil => rfl
  | cons c l =>
    have hc : p c = false := by simpa using h
    simp [hc]

lemma dropEnd_line (hblank : p '\n' = true) (htext : text = l ∨ text = l ++ ['\n'])
    (hlast : l.getLast?.all (!p ·) = true) : (text.reverse.dropWhile p).reverse = l := by
  have hstop := dropWhile_of_head (by rwa [List.head?_reverse])
  obtain rfl | rfl := htext
  · rw [hstop, reverse_reverse]
  · rw [reverse_append, reverse_singleton, singleton_append, dropWhile_cons, if_pos hblank, hstop, reverse_reverse]

lemma trim_line (h : Line text l) : trim text = l := by
  obtain ⟨htext, -, hhead, hlast⟩ := h
  by_cases hnil : l = []
  · subst hnil
    rcases htext with rfl | rfl <;> decide
  · have hstart : trimStart text = text := by
      apply dropWhile_of_head
      obtain rfl | rfl := htext
      · exact hhead
      · rwa [List.head?_append_of_ne_nil _ hnil]
    rw [trim, hstart]
    exact dropEnd_line (by decide) htext hlast

end

end Kryptik.Kryptikd.Battery
