import Kryptik.Wlproxy.Wire

namespace Kryptik.Wlproxy

open Wire

/-- The owner of a selection the proxy holds itself: no session's id. -/
def own : ℕ := 0

/-- What the zone's clients last copied. `birth` is history: it tells the
source from another one that its session made under the same id. -/
structure Selection where
  owner : ℕ
  source : ℕ
  mimes : List String
  data : Option Bytes
  birth : ℕ
  deriving DecidableEq

/-- What one session's messages ask of another. The last field of `send` is
history: the generation of the offer whose reader gave the descriptor. -/
inductive Action
  | offer (session : ℕ)
  | cancel (session source : ℕ)
  | send (session source : ℕ) (mime : String) (fd : Fd) (asked : Option ℕ)

def Action.session : Action → ℕ
  | .offer s | .cancel s _ | .send s _ _ _ _ => s

/-- `past` is history: the selection of every generation so far, in order. -/
structure Clipboard where
  focus : Option ℕ := none
  selection : Option Selection := none
  generation : ℕ := 0
  actions : List Action := []
  past : List (Option Selection) := [none]

namespace Clipboard

def holds (c : Clipboard) (owner source : ℕ) : Bool :=
  c.selection.any (fun s => s.owner = owner && s.source = source)

def changed (c : Clipboard) : Clipboard :=
  { c with
    generation := c.generation + 1
    past := c.past ++ [c.selection]
    actions := c.actions ++ (c.focus.map Action.offer).toList }

def cancels (old new : Option Selection) : List Action :=
  match old with
  | none => []
  | some old =>
    if old.owner ≠ own ∧ ¬ new.any (fun s => s.owner = old.owner && s.source = old.source) then
      [.cancel old.owner old.source]
    else []

def setSelection (c : Clipboard) (sel : Option Selection) : Clipboard :=
  { c with selection := sel, actions := c.actions ++ cancels c.selection sel }.changed

/-- A source its client destroyed: if it held the selection, the zone has none. -/
def sourceGone (c : Clipboard) (owner source : ℕ) : Clipboard :=
  if c.holds owner source then { c with selection := none }.changed else c

/-- A session ended: its selection, the keyboard's place with it, and what was
asked of it. -/
def sessionGone (c : Clipboard) (id : ℕ) : Clipboard :=
  let c := { c with
    actions := c.actions.filter (fun a => a.session ≠ id)
    focus := if c.focus = some id then none else c.focus }
  if c.selection.any (fun s => s.owner = id) then { c with selection := none }.changed else c

end Clipboard

end Kryptik.Wlproxy
