import Kryptik.Zoneid.Toml

namespace Kryptik.Zoneid

open Lib.Text

/-- A colour, its components in doubles: a byte's quotient by 255 is another byte's for none. -/
structure Srgb where
  r : ℚ
  g : ℚ
  b : ℚ

inductive ParseHexError
  | missingHash
  | badLength (length : ℕ)
  | badDigit (c : Char)
  deriving DecidableEq

def hexDigit (c : UInt8) : Except ParseHexError ℕ :=
  let n := c.toNat
  if 48 ≤ n ∧ n ≤ 57 then .ok (n - 48)
  else if 97 ≤ n ∧ n ≤ 102 then .ok (n - 97 + 10)
  else if 65 ≤ n ∧ n ≤ 70 then .ok (n - 65 + 10)
  else .error (.badDigit (Char.ofNat n))

def component (hi lo : UInt8) : Except ParseHexError ℚ := do
  let hi ← hexDigit hi
  let lo ← hexDigit lo
  return ((hi * 16 + lo : ℕ) : ℚ) / 255

def Srgb.fromHex (s : String) : Except ParseHexError Srgb :=
  let bytes := s.toList.flatMap String.utf8EncodeChar
  if bytes.head? ≠ some 35 then .error .missingHash
  else match bytes with
    | [_, r1, r0, g1, g0, b1, b0] => do
      let r ← component r1 r0
      let g ← component g1 g0
      let b ← component b1 b0
      return ⟨r, g, b⟩
    | _ => .error (.badLength bytes.length)

inductive Pattern
  | solid
  | dashed
  | dotted
  | double
  | dashDot
  | notched

namespace Pattern

def all : List Pattern := [.solid, .dashed, .dotted, .double, .dashDot, .notched]

def name : Pattern → String
  | .solid => "solid"
  | .dashed => "dashed"
  | .dotted => "dotted"
  | .double => "double"
  | .dashDot => "dash-dot"
  | .notched => "notched"

end Pattern

def glyphAllowlist : List Char :=
  ['●', '■', '▲', '▼', '◆', '◐', '◢', '★', '♠', '♣', '♦', '♪',
    '!', '?', '#', '@', '%', '&', '*', '+', '=', '~', '^', '/']

inductive IdentityError
  | badColor (e : ParseHexError)
  | unknownPattern (s : String)
  | glyphNotSingleChar (s : String)
  | glyphNotAllowed (c : Char)
  | labelEmpty
  | labelTooLong (n : ℕ)
  | labelNotAscii (c : Char)
  | labelPadded

def Pattern.parse (s : String) : Except IdentityError Pattern :=
  match Pattern.all.find? (·.name = s) with
  | some p => .ok p
  | none => .error (.unknownPattern s)

def validateGlyph (s : String) : Except IdentityError Char :=
  match s.toList with
  | [c] => if c ∈ glyphAllowlist then .ok c else .error (.glyphNotAllowed c)
  | _ => .error (.glyphNotSingleChar s)

def validateLabel (s : String) : Except IdentityError String :=
  if s.toList.isEmpty then .error .labelEmpty
  else if 12 < s.toList.length then .error (.labelTooLong s.toList.length)
  else match s.toList.find? (fun c => !(' ' ≤ c && c ≤ '~')) with
    | some c => .error (.labelNotAscii c)
    | none =>
      if s.toList.head? = some ' ' ∨ s.toList.getLast? = some ' ' then .error .labelPadded
      else .ok s

structure ZoneIdentity where
  zone : String
  color : Srgb
  pattern : Option Pattern
  glyph : Option Char
  label : Option String

def channel {α : Type} (validate : String → Except IdentityError α) : Option String → Except IdentityError (Option α)
  | none => .ok none
  | some s => (validate s).map some

def ZoneIdentity.new (zone color : String) (pattern glyph label : Option String) : Except IdentityError ZoneIdentity := do
  let color ← (Srgb.fromHex color).mapError .badColor
  let pattern ← channel Pattern.parse pattern
  let glyph ← channel validateGlyph glyph
  let label ← channel validateLabel label
  return { zone, color, pattern, glyph, label }

inductive LoadError
  | toml (e : TomlError)
  | ui (e : IdentityError)

/-- What `load_zones` makes of one file; `stem` is its name without the ending. A zone without a colour is
passed over. -/
def loadZone (stem text : String) : Except LoadError (Option ZoneIdentity) := do
  let doc ← (parse text).mapError .toml
  match doc.get "ui" "border_color" with
  | none => return none
  | some color =>
    let id ← (ZoneIdentity.new ((doc.get "zone" "name").getD stem) color (doc.get "ui" "border_pattern")
      (doc.get "ui" "glyph") (doc.get "ui" "label")).mapError .ui
    return some id

end Kryptik.Zoneid
