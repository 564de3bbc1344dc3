import Kryptik.Kryptikd.Policy

namespace Kryptik.Kryptikd.Images

open Lib Text

def magic : String := "KRYPTIK-IMAGES-1"

def imageMax : ℕ := 16 * 2 ^ 30

def block : ℕ := 4096
def u64Max : ℕ := 2 ^ 64 - 1

structure Image where
  name : String
  version : String
  bytes : ℕ
  sha256 : String
  dataBlocks : ℕ
  rootHash : String
  salt : String

structure Manifest where
  release : String
  base : String
  images : List Image := []
  requires : List (String × List String) := []
  needs : List (String × String) := []

inductive Fault
  | noNewline
  | notMagic
  | noLine (key : String)
  | notRelease (release : String)
  | notBase
  | imageLate
  | imageLine (rest : String)
  | imageSize (name : String) (bytes dataBlocks : ℕ)
  | imageOrder (name : String)
  | requiresLate
  | requiresUnlisted (name : String)
  | requiresNothing (name : String)
  | requiresNoOther (name r : String)
  | requiresOrder (name : String)
  | noPolicyLine (line : String)
  | needsUnlisted (name : String)
  | needsApart (name : String)
  | policy (fault : PolicyError)
  | unexpected (line : String)
  | noImage
  | notGranted (image line : String)
  | notNamed (image r : String)
  deriving DecidableEq

def validName (s : List Char) : Bool :=
  (1 ≤ byteLen s && byteLen s ≤ 32) && s.all fun c => isAsciiLowercase c || isAsciiDigit c || c == '-'

def hex64 (s : List Char) : Bool :=
  byteLen s == 64 && s.all fun c => isAsciiDigit c || ('a' ≤ c && c ≤ 'f')

def versionOk (s : List Char) : Bool := (1 ≤ byteLen s && byteLen s ≤ 64) && s.all isAsciiGraphic

def number (s : List Char) : Option ℕ :=
  if s.isEmpty || (1 < s.length && s.head? == some '0') || !s.all isAsciiDigit then none
  else parseUnsigned u64Max s

def value (w : List Char) (key : String) : Option (List Char) := (w.dropPrefix? key.toList).bind (stripPrefix '=')

def imageLine (rest : List Char) : Except Fault Image :=
  let bad : Except Fault Image := .error (.imageLine (String.ofList rest))
  match splitBy (· == ' ') rest with
  | [name, version, bytes, sha256, dataBlocks, rootHash, salt] =>
    if !validName name || !versionOk version then bad
    else
      match (value bytes "bytes").bind number, (value sha256 "sha256").filter hex64,
          (value dataBlocks "data-blocks").bind number, (value rootHash "root-hash").filter hex64,
          (value salt "salt").filter hex64 with
      | some bytes, some sha256, some dataBlocks, some rootHash, some salt =>
        -- the data, then its hash tree, in whole blocks
        if dataBlocks * block ≤ u64Max ∧ 0 < dataBlocks * block ∧ dataBlocks * block < bytes ∧
            bytes % block = 0 ∧ bytes ≤ imageMax then
          .ok ⟨String.ofList name, String.ofList version, bytes, String.ofList sha256, dataBlocks,
            String.ofList rootHash, String.ofList salt⟩
        else .error (.imageSize (String.ofList name) bytes dataBlocks)
      | _, _, _, _, _ => bad
  | _ => bad

def Manifest.position (m : Manifest) (name : String) : Option ℕ := m.images.findIdx? fun i => i.name = name

def Manifest.lastAt {α : Type} (m : Manifest) (lines : List (String × α)) : Option ℕ :=
  lines.getLast?.bind fun e => m.position e.1

def Manifest.readImage (m : Manifest) (rest : List Char) : Except Fault Manifest :=
  if m.requires ≠ [] ∨ m.needs ≠ [] then .error .imageLate
  else do
    let img ← imageLine rest
    if m.images.getLast?.any fun last => img.name ≤ last.name then throw (.imageOrder img.name)
    else return { m with images := m.images ++ [img] }

def Manifest.readRequires (m : Manifest) (rest : List Char) : Except Fault Manifest :=
  if m.needs ≠ [] then .error .requiresLate
  else
    let words := (splitBy (· == ' ') rest).map String.ofList
    let name := words.headD ""
    let reqs := words.tail
    match m.position name with
    | none => .error (.requiresUnlisted name)
    | some at_ =>
      if reqs = [] then .error (.requiresNothing name)
      else
        match reqs.zipIdx.find? fun r => r.1 = name || (m.position r.1).isNone || (reqs.take r.2).contains r.1 with
        | some r => .error (.requiresNoOther name r.1)
        | none =>
          if (m.lastAt m.requires).any fun last => at_ ≤ last then .error (.requiresOrder name)
          else .ok { m with requires := m.requires ++ [(name, reqs)] }

def need (line : String) : Except PolicyError Policy := Policy.parse line "the image list"

def Manifest.readNeeds (m : Manifest) (line rest : List Char) : Except Fault Manifest :=
  match splitOnce ' ' rest with
  | none => .error (.noPolicyLine (String.ofList line))
  | some (name, what) =>
    let name := String.ofList name
    match m.position name with
    | none => .error (.needsUnlisted name)
    | some at_ =>
      if (m.lastAt m.needs).any fun last => at_ < last then .error (.needsApart name)
      else do
        let _ ← (need (String.ofList what)).mapError .policy
        return { m with needs := m.needs ++ [(name, String.ofList what)] }

def Manifest.readLine (m : Manifest) (line : List Char) : Except Fault Manifest :=
  match line.dropPrefix? "image: ".toList with
  | some rest => m.readImage rest
  | none =>
    match line.dropPrefix? "requires: ".toList with
    | some rest => m.readRequires rest
    | none =>
      match line.dropPrefix? "needs: ".toList with
      | some rest => m.readNeeds line rest
      | none => .error (.unexpected (String.ofList line))

def field (line : Option (List Char)) (key : String) : Except Fault (List Char) :=
  match line.bind fun l => (l.dropPrefix? key.toList).bind fun l => l.dropPrefix? ": ".toList with
  | some v => .ok v
  | none => .error (.noLine key)

def ensure (c : Bool) (fault : Fault) : Except Fault Unit := if c then .ok () else .error fault

/-- The list, line by line as it is written; anything else is refused, not skipped. -/
def readLines (lines : List (List Char)) : Except Fault Manifest := do
  ensure (lines.head? == some magic.toList) .notMagic
  let release ← field lines[1]? "release"
  ensure (versionOk release) (.notRelease (String.ofList release))
  let base ← field lines[2]? "base"
  ensure (hex64 base) .notBase
  let m ← (lines.drop 3).foldlM Manifest.readLine { release := String.ofList release, base := String.ofList base }
  ensure (!m.images.isEmpty) .noImage
  return m

def parse (text : String) : Except Fault Manifest :=
  match stripSuffix '\n' text.toList with
  | none => .error .noNewline
  | some body => readLines (splitBy (· == '\n') body)

def holds (want : List String) (have_ : Option (List String)) : Bool :=
  want.all fun w => have_.any fun h => h.contains w

def granted (g : Option Policy) (p : Policy) : Bool :=
  holds p.extraSyscallNames (g.map Policy.extraSyscallNames) && holds p.socketNames (g.map Policy.socketNames) &&
    holds p.netlinkNames (g.map Policy.netlinkNames) && holds p.keepCapNames (g.map Policy.keepCapNames)

def needsMet (m : Manifest) (image : String) (g : Option Policy) : Except Fault Unit :=
  (m.needs.filter fun e => e.1 = image).forM fun e => do
    let p ← (need e.2).mapError .policy
    if granted g p then pure () else throw (.notGranted image e.2)

/-- Whether a zone that names `named` also names every image each of them is built over. -/
def requiresMet (m : Manifest) (named : List String) : Except Fault Unit :=
  (m.requires.filter fun e => named.contains e.1).forM fun e =>
    match e.2.find? fun r => !named.contains r with
    | some r => throw (.notNamed e.1 r)
    | none => pure ()

end Kryptik.Kryptikd.Images
