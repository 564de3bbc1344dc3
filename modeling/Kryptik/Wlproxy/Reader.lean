import Kryptik.Wlproxy.Decoding

namespace Kryptik.Wlproxy

open Lib Wire Protocol List

def split : ℕ → Bytes → List Bytes
  | 0, _ => []
  | n + 1, stream =>
    match Header.parse stream with
    | .error _ => []
    | .ok h =>
      if h.size ≤ stream.length then stream.take h.size :: split n (stream.drop h.size) else []

/-- Each message takes at least a header, so the bytes bound the messages. -/
def messages (stream : Bytes) : List Bytes := split stream.length stream

lemma split_flatten {msgs : List Bytes} (hw : ∀ msg ∈ msgs, Whole msg) {n : ℕ}
    (hn : msgs.flatten.length ≤ n) : split n msgs.flatten = msgs := by
  induction msgs generalizing n with
  | nil => cases n <;> rfl
  | cons msg msgs ih =>
    obtain ⟨h, hp, hs⟩ := hw msg mem_cons_self
    have hge := h.size_ge
    rw [flatten_cons] at hn ⊢
    have hp' : Header.parse (msg ++ msgs.flatten) = .ok h := by
      rw [Header.parse_append (by omega), hp]
    rw [length_append] at hn
    cases n with
    | zero =>
      unfold headerLen at hge
      omega
    | succ n =>
      have hrest := ih (fun m hm => hw m (mem_cons_of_mem msg hm)) (n := n) (by unfold headerLen at hge; omega)
      simp only [split, hp', hs, length_append, Nat.le_add_right, if_true, take_left, drop_left, hrest]

lemma messages_flatten {msgs : List Bytes} (hw : ∀ msg ∈ msgs, Whole msg) :
    messages msgs.flatten = msgs := split_flatten hw le_rfl

abbrev Names := ℕ → Option Interface

structure Call where
  object : ℕ
  iface : Interface
  request : String
  args : Except WireError Decoded

def Call.created (c : Call) : Option (ℕ × String) := c.args.toOption.bind Decoded.newObject

namespace Names

def start : Names := fun id => if id = wlDisplay then some .wlDisplay else none

def call (names : Names) (msg : Bytes) : Option Call := do
  let h ← (Header.parse msg).toOption
  let iface ← names h.object
  let m ← (iface.table .clientToServer)[h.opcode]?
  return ⟨h.object, iface, m.name, decode m (msg.drop headerLen)⟩

def after (names : Names) : Option (ℕ × String) → Names
  | some (id, name) => Function.update names id (find name)
  | none => names

def read (names : Names) (msg : Bytes) : Names := names.after ((names.call msg).bind Call.created)

def calls (names : Names) : List Bytes → List (Option Call)
  | [] => []
  | msg :: msgs => names.call msg :: (names.read msg).calls msgs

lemma calls_append (names : Names) (before later : List Bytes) : names.calls (before ++ later) =
      names.calls before ++ (before.foldl read names).calls later := by
  induction before generalizing names with
  | nil => rfl
  | cons msg before ih => simp only [cons_append, calls, ih, foldl_cons]

end Names

end Kryptik.Wlproxy
