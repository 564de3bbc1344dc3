import Kryptik.Lib.Directory
import Kryptik.Lib.Numeral
import Kryptik.Lib.Text
import Kryptik.Lib.Words

namespace Kryptik.Efi

open Lib Lib.Text

structure Var where
  attributes : ℕ
  data : List UInt8
  present : data ≠ []

/-- efivarfs in its directory's order, and the names written or deleted so far. -/
structure Store where
  files : List (List Char × Var)
  touched : List (List Char)

def globalGuid : List Char := "-8be4df61-93ca-11d2-aa0d-00e098032b8c".toList

def path (name : List Char) : List Char := name ++ globalGuid

def attr : ℕ := 7

def bootOrder : List Char := "BootOrder".toList
def bootNext : List Char := "BootNext".toList

/-- Which writes and deletes fail, and where in the directory a new file stands. -/
structure Io where
  fails : List Char → Bool
  place : List Char → ℕ

namespace Store

variable (s : Store)

def var (name : List Char) : Option Var := Directory.get s.files (path name)

def varExists (name : List Char) : Bool := (s.var name).isSome

/-- The data, as much as a buffer of `cap` bytes holds behind the attributes. -/
def readVar (name : List Char) (cap : ℕ) : Option (List UInt8) := (s.var name).map (fun v => v.data.take (cap - 4))

def write (io : Io) (name : List Char) (data : List UInt8) : Store where
  files :=
    if h : data = [] then Directory.remove (path name) s.files
    else Directory.put (io.place name) (path name) ⟨attr, data, h⟩ s.files
  touched := s.touched ++ [name]

def delete (name : List Char) : Store where
  files := Directory.remove (path name) s.files
  touched := s.touched ++ [name]

end Store

/-- What the buffer for BootOrder grows to, doubled from 1024 while below what 65536 entries take. A file that fills
it is taken for a longer one. -/
def orderCap : ℕ := 262144

def Store.readOrder (s : Store) : Option (List UInt8) :=
  match s.var bootOrder with
  | none => some []
  | some v => if orderCap ≤ 4 + v.data.length then none else some v.data

/-- The partition `find_esp` finds. -/
structure Part where
  uuid : List Char
  start : ℕ
  size : ℕ
  number : ℕ

def isSpace (c : Char) : Bool := c == ' ' || ('\t' ≤ c && c ≤ '\r')

def hexValue (c : Char) : ℕ :=
  if isAsciiDigit c then c.toNat - 48
  else if isAsciiLowercase c then c.toNat - 87
  else c.toNat - 55

/-- A conversion `%2x` of `sscanf`, as the low byte of what it stores. -/
def scanHex (s : List Char) : Option (UInt8 × List Char) :=
  match s.dropWhile isSpace with
  | [] => none
  | [c] => if isAsciiHexdigit c then some (UInt8.ofNat (hexValue c), []) else none
  | c :: d :: rest =>
    if c = '0' ∧ (d = 'x' ∨ d = 'X') then none
    else if c = '+' then if isAsciiHexdigit d then some (UInt8.ofNat (hexValue d), rest) else none
    else if c = '-' then if isAsciiHexdigit d then some (0 - UInt8.ofNat (hexValue d), rest) else none
    else if !isAsciiHexdigit c then none
    else if isAsciiHexdigit d then some (UInt8.ofNat (16 * hexValue c + hexValue d), rest)
    else some (UInt8.ofNat (hexValue c), d :: rest)

/-- `n` conversions, then the dash of the format if one stands there. -/
def scanGroup (dash : Bool) : ℕ → List Char → Option (List UInt8 × List Char)
  | 0, s => if dash then (stripPrefix '-' s).map (fun s => ([], s)) else some ([], s)
  | n + 1, s => do
    let (b, s) ← scanHex s
    let (bs, s) ← scanGroup dash n s
    return (b :: bs, s)

/-- `uuid_to_bytes`: the first three groups little-endian. -/
def uuidToBytes (s : List Char) : Option (List UInt8) := do
  let (a, s) ← scanGroup true 4 s
  let (b, s) ← scanGroup true 2 s
  let (c, s) ← scanGroup true 2 s
  let (d, s) ← scanGroup true 2 s
  let (e, _) ← scanGroup false 6 s
  return a.reverse ++ b.reverse ++ c.reverse ++ d ++ e

inductive Slot
  | a
  | b
  deriving DecidableEq

def Slot.letter : Slot → Char
  | .a => 'a'
  | .b => 'b'

/-- The number of the slot's entry unless another system holds it. -/
def Slot.own : Slot → ℕ
  | .a => 0x00A0
  | .b => 0x00B0

def Slot.description (slot : Slot) : List Char := "Kryptik slot ".toList ++ [slot.letter]

def Slot.file (slot : Slot) : List Char :=
  "\\EFI\\kryptik\\kryptik-".toList ++ [slot.letter] ++ ".efi".toList

def putUcs2 (s : List Char) : List UInt8 := s.flatMap (fun c => Words.le 2 c.toNat) ++ Words.le 2 0

def devicePath (esp : Part) (sig : List UInt8) (file : List Char) : List UInt8 :=
  -- HD(part, GPT, sig, start, size)
  [0x04, 0x01] ++ Words.le 2 42 ++ Words.le 4 esp.number ++ Words.le 8 esp.start ++ Words.le 8 esp.size ++ sig ++
  [0x02, 0x02] ++
  -- the file
  [0x04, 0x04] ++ Words.le 2 (4 + (file.length + 1) * 2) ++ putUcs2 file ++
  -- the end
  [0x7f, 0xff] ++ Words.le 2 4

def buildLoadOption (esp : Part) (desc file : List Char) : Option (List UInt8) :=
  (uuidToBytes esp.uuid).map fun sig =>
    let dp := devicePath esp sig file
    Words.le 4 1 ++ Words.le 2 dp.length ++ putUcs2 desc ++ dp

def units : List UInt8 → List ℕ × List UInt8
  | lo :: hi :: rest =>
    let c := lo.toNat + 256 * hi.toNat
    if c = 0 then ([], rest)
    else
      let (cs, rest) := units rest
      (c :: cs, rest)
  | rest => ([], rest)

def printed (c : ℕ) : Char := if 32 ≤ c ∧ c < 127 then Char.ofNat c else '?'

/-- The loop over the path's nodes, `left` bytes of it and `rest` of the buffer to come: each is at least
four bytes, so as many turns as bytes are enough. -/
def fileText : ℕ → ℕ → List UInt8 → List Char → List Char
  | 0, _, _, file => file
  | turns + 1, left, rest, file =>
    match rest with
    | t :: st :: lo :: hi :: _ =>
      let l := lo.toNat + 256 * hi.toNat
      if left < 4 ∨ l < 4 then file
      else
        let file :=
          if t = 4 ∧ st = 4 ∧ file = [] then ((units ((rest.take l).drop 4)).1.map printed).take 255 else file
        if t = 0x7f then file else fileText turns (left - l) (rest.drop l) file
    | _ => file

def optionText (buf : List UInt8) : Option (List Char × List Char) :=
  match buf with
  | _ :: _ :: _ :: _ :: lo :: hi :: rest =>
    let (desc, rest) := units rest
    some ((desc.map printed).take 127, fileText rest.length (lo.toNat + 256 * hi.toNat) rest [])
  | _ => none

def upperHex (n : ℕ) : Char := Char.ofNat (if n < 10 then 48 + n else 55 + n)

def bootName (n : ℕ) : List Char :=
  "Boot".toList ++ [upperHex (n / 4096 % 16), upperHex (n / 256 % 16), upperHex (n / 16 % 16), upperHex (n % 16)]

def number (var : List Char) : ℕ :=
  numeral 16 hexValue ((var.drop 4).takeWhile isAsciiHexdigit) % 65536

/-- Does the list, little-endian numbers as BootOrder holds them, hold this one? -/
def holds : List UInt8 → ℕ → Bool
  | lo :: hi :: rest, num => lo.toNat + 256 * hi.toNat == num || holds rest num
  | _, _ => false

/-- The variable's name, if a file of the directory is a Boot#### variable. -/
def bootVar (file : List Char) : Option (List Char) :=
  if file.length = 8 + globalGuid.length ∧ file.take 4 = "Boot".toList ∧ file.drop 8 = globalGuid ∧
      ((file.drop 4).take 4).all isAsciiHexdigit then some (file.take 8)
  else none

namespace Store

variable (s : Store)

def isOurs (var : List Char) (slot : Option Slot) : Bool :=
  match (s.readVar var 2048).bind optionText with
  | none => false
  | some (desc, file) =>
    [Slot.a, Slot.b].any fun s => (slot == none || slot == some s) && desc == s.description && file == s.file

def bootNames : List (List Char) := (Directory.names s.files).filterMap bootVar

def bootVars (cap : ℕ) : List (List Char) := s.bootNames.take cap

/-- The search for a free number, `k` tried before. -/
def freeVar (own : ℕ) (order : List UInt8) : ℕ → ℕ → Option (List Char)
  | 0, _ => none
  | tries + 1, k =>
    let num := (own + k) % 65536
    if !s.varExists (bootName num) && (k == 0 || !holds order num) then some (bootName num)
    else freeVar own order tries (k + 1)

/-- `slot_var`: where the slot's entry goes. -/
def slotVar (slot : Slot) (order : List UInt8) : Option (List Char) :=
  if s.isOurs (bootName slot.own) (some slot) then some (bootName slot.own)
  else match (s.bootVars 256).find? (fun v => s.isOurs v (some slot)) with
    | some v => some v
    | none => s.freeVar slot.own order 65536 0

end Store

/-- A command on the store. One that fails ends with what it says on standard error. -/
abbrev Command := EStateM (List String) Store

def die {α : Type} (message : String) : Command α := throw [message]

def writeVar (io : Io) (name : List Char) (data : List UInt8) : Command Bool := do
  if io.fails name then return false
  modify (·.write io name data)
  return true

def deleteVar (io : Io) (name : List Char) : Command Bool := do
  if io.fails name then return false
  modify (·.delete name)
  return true

def ensureWith (io : Io) (slot : Slot) (esp : Part) (order : List UInt8) : Command (List Char) := do
  let s ← get
  match s.slotVar slot order with
  | none => die "no Boot#### number is free"
  | some var => match buildLoadOption esp slot.description slot.file with
    | none => die "could not build the load option"
    | some option =>
      let written ← if s.readVar var 1024 = some option then pure true else writeVar io var option
      if !written then die "writing the Boot#### entry failed"
      else if holds order (number var) then return var
      else
        let listed ← writeVar io bootOrder (order ++ Words.le 2 (number var))
        if listed then return var else die "updating BootOrder failed"

def Slot.ofText (s : List Char) : Option Slot :=
  if s = ['a'] then some .a else if s = ['b'] then some .b else none

def ensureEntry (io : Io) (slot : List Char) (named : Option String) (esp : Option Part) : Command (List Char) :=
  match Slot.ofText slot, esp with
  | none, _ => die "slot must be a or b"
  | some _, none => match named with
    | none => die "no unambiguous kryptik-esp partition on this installation's disk (devices.sh)"
    | some named =>
      die (String.ofList (named.toList.take 128) ++ " is not a kryptik-esp partition that can be read")
  | some slot, some esp => do
    let s ← get
    match s.readOrder with
    | none => die "BootOrder cannot be read whole, so it is not rewritten"
    | some order => ensureWith io slot esp order

def kept (ours : List UInt8) : List UInt8 → List UInt8
  | lo :: hi :: rest =>
    let e := lo.toNat + 256 * hi.toNat
    if holds ours e then kept ours rest else Words.le 2 e ++ kept ours rest
  | _ => []

def deleteAll (io : Io) : List (List Char) → Command (List String)
  | [] => return []
  | v :: rest => do
    let deleted ← deleteVar io v
    let bad ← deleteAll io rest
    return if deleted then bad else ("deleting " ++ String.ofList v ++ " failed") :: bad

/-- A BootNext that names one of `ours`, or no variable, goes. -/
def dropNext (io : Io) (ours : List UInt8) : Command (List String) := do
  let s ← get
  match s.readVar bootNext 8 with
  | some (lo :: hi :: _) =>
    let e := lo.toNat + 256 * hi.toNat
    if holds ours e || !s.varExists (bootName e) then
      let deleted ← deleteVar io bootNext
      return if deleted then [] else ["deleting BootNext failed"]
    else return []
  | _ => return []

def cmdForget (io : Io) : Command Unit := do
  let s ← get
  let mine := (s.bootVars 256).filter (s.isOurs · none)
  let ours := mine.flatMap (fun v => Words.le 2 (number v))
  match s.readOrder with
  | none => die "BootOrder cannot be read whole, so it is not rewritten"
  | some order =>
    let left := kept ours order
    let updated ← if left.length = order.length then pure true
      else if left = [] then deleteVar io bootOrder
      else writeVar io bootOrder left
    if !updated then die "updating BootOrder failed"
    else
      let next ← dropNext io ours
      let bad ← deleteAll io mine
      if next ++ bad = [] then return else throw (next ++ bad)

end Kryptik.Efi
