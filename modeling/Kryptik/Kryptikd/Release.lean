import Kryptik.Lib.Fallible
import Kryptik.Lib.Text

namespace Kryptik.Kryptikd.Update

open Lib.Text

def pointerMagic : String := "KRYPTIK-LATEST-1"
def manifestMax : ℕ := 64 * 1024
def maxAheadSecs : ℤ := 86400
def pointerIntervalSecs : ℕ := 3600
def i64Max : ℤ := 2 ^ 63 - 1
def u64Max : ℕ := 2 ^ 64 - 1

structure Pointer where
  role : String
  version : String
  issued : ℤ
  manifestSha256 : String
  base : String
  deriving DecidableEq

def isVersion (s : String) : Bool :=
  let cs := s.toList
  byteLen cs ≤ 32 && cs.head?.any isAsciiAlphanumeric &&
    cs.all (fun c => isAsciiAlphanumeric c || c == '.' || c == '+' || c == '-' || c == '~')

def daysFromCivil (y m d : ℤ) : ℤ :=
  let y := if m ≤ 2 then y - 1 else y
  let era := (if 0 ≤ y then y else y - 399).tdiv 400
  let yoe := y - era * 400
  let doy := (153 * (if 2 < m then m - 3 else m + 9) + 2).tdiv 5 + d - 1
  let doe := yoe * 365 + yoe.tdiv 4 - yoe.tdiv 100 + doy
  era * 146097 + doe - 719468

/-- `time::parse_iso8601`. Every byte it accepts is ASCII, so characters are counted. -/
def parseIso8601 (s : String) : Option ℤ := do
  let cs := s.toList
  let num (at_ n : ℕ) : Option ℤ := (decimal ((cs.drop at_).take n)).map Int.ofNat
  guard (20 ≤ cs.length && cs[4]? == some '-' && cs[7]? == some '-' && cs[10]? == some 'T' &&
    cs[13]? == some ':' && cs[16]? == some ':')
  let y ← num 0 4
  let mo ← num 5 2
  let d ← num 8 2
  let h ← num 11 2
  let mi ← num 14 2
  let se ← num 17 2
  guard (1 ≤ mo ∧ mo ≤ 12 ∧ 1 ≤ d ∧ d ≤ 31 ∧ h ≤ 23 ∧ mi ≤ 59 ∧ se ≤ 60)
  let zone ← match cs.drop 19 with
    | ['Z'] => some 0
    | [sign, _, _, ':', _, _] => do
      guard (sign = '+' ∨ sign = '-')
      let zh ← num 20 2
      let zm ← num 23 2
      guard (zh ≤ 23 ∧ zm ≤ 59)
      let secs := zh * 3600 + zm * 60
      some (if sign = '-' then -secs else secs)
    | _ => none
  some (daysFromCivil y mo d * 86400 + h * 3600 + mi * 60 + se - zone)

inductive PointerFault
  | noMagic
  | notKeyValue (line : String)
  | unknownKey (key : String)
  | givenTwice (key : String)
  | missing (key : String)
  | notVersion (version : String)
  | notDate (issued : String)
  | notHash
  | notBase
  deriving DecidableEq

def pointerKeys : List String := ["role", "version", "issued", "manifest-sha256", "base"]

def readPointerLine (kv : List (String × String)) (line : List Char) : Except PointerFault (List (String × String)) :=
  match splitOnceAt [':', ' '] line with
  | none => .error (.notKeyValue (String.ofList line))
  | some (k, v) =>
    let key := String.ofList k
    if key ∉ pointerKeys then .error (.unknownKey key)
    else if (kv.lookup key).isSome then .error (.givenTwice key)
    else .ok ((key, String.ofList v) :: kv)

def need (kv : List (String × String)) (key : String) : Except PointerFault String :=
  match kv.lookup key with
  | some v => .ok v
  | none => .error (.missing key)

def parsePointer (text : String) : Except PointerFault Pointer := do
  let ls := lines text.toList
  if ls.head? ≠ some pointerMagic.toList then throw .noMagic
  let kv ← ls.tail.foldlM readPointerLine []
  let role ← need kv "role"
  let version ← need kv "version"
  let issued ← need kv "issued"
  let sha ← need kv "manifest-sha256"
  let base ← need kv "base"
  if !isVersion version then throw (.notVersion version)
  let date ← match parseIso8601 issued with
    | some date => pure date
    | none => throw (.notDate issued)
  if byteLen sha.toList ≠ 64 ∨ !sha.toList.all (fun c => isAsciiDigit c || ('a' ≤ c && c ≤ 'f')) then throw .notHash
  if base.toList = [] ∨ 512 < byteLen base.toList ∨ !base.toList.all isAsciiGraphic then throw .notBase
  return { role, version, issued := date, manifestSha256 := sha, base }

inductive BaseFault
  | leavesChannel
  | plainHttp
  | otherScheme
  deriving DecidableEq

def trimSlashes (cs : List Char) : List Char := (cs.reverse.dropWhile (· == '/')).reverse

def resolveBase (channel base role : String) : Except BaseFault String := do
  let cs := base.toList
  let url ←
    if (splitOnceAt [':', '/', '/'] cs).isSome then pure cs
    else if cs.head? = some '/' ∨ (splitBy (· == '/') cs).contains ['.', '.'] then throw .leavesChannel
    else pure (trimSlashes channel.toList ++ '/' :: cs)
  let url := if url.getLast? = some '/' then url else url ++ ['/']
  let scheme := (splitOnceAt [':', '/', '/'] url).map (fun r => String.ofList r.1)
  if scheme = some "https" then return String.ofList url
  else if scheme = some "http" then
    if role = "development" then return String.ofList url else throw .plainHttp
  else throw .otherScheme

def isDigitByte (b : UInt8) : Bool := 48 ≤ b && b ≤ 57

/-- Two digit runs as numbers: without leading zeros, by length and then byte by byte. -/
def compareRuns (x y : List UInt8) : Ordering :=
  let x := x.dropWhile (· == 48)
  let y := y.dropWhile (· == 48)
  (compare x.length y.length).then (compare x y)

def compareVersions : List UInt8 → List UInt8 → Ordering
  | [], b => compare 0 b.length
  | a, [] => compare a.length 0
  | a :: as, b :: bs =>
    if isDigitByte a && isDigitByte b then
      match compareRuns ((a :: as).takeWhile isDigitByte) ((b :: bs).takeWhile isDigitByte) with
      | .eq => compareVersions (as.dropWhile isDigitByte) (bs.dropWhile isDigitByte)
      | o => o
    else
      match compare a b with
      | .eq => compareVersions as bs
      | o => o
termination_by a => a.length
decreasing_by
  · exact Nat.lt_succ_of_le (List.dropWhile_suffix isDigitByte).length_le
  · simp

def versionCmp (a b : String) : Ordering :=
  compareVersions a.toUTF8.data.toList b.toUTF8.data.toList

inductive Standing
  | current
  | available (version : String)

inductive AcceptFault
  | otherRole (role : String)
  | datedAhead
  | replay
  deriving DecidableEq

def acceptPointer (p : Pointer) (requiredRole running : String) (newestIssued : Option ℤ) (now : ℤ) :
    Except AcceptFault Standing :=
  if p.role ≠ requiredRole then .error (.otherRole p.role)
  else if min (now + maxAheadSecs) i64Max < p.issued then .error .datedAhead
  else if newestIssued.any (fun seen => p.issued < seen) then .error .replay
  else .ok (if versionCmp p.version running = .gt then .available p.version else .current)

structure Entry where
  name : String
  size : ℕ
  deriving DecidableEq

inductive NameFault
  | length
  | path
  | dots
  | dotfile
  | unprintable
  deriving DecidableEq

def checkTransferName (n : String) : Except NameFault Unit :=
  let cs := n.toList
  if cs = [] ∨ 255 < byteLen cs then .error .length
  else if cs.contains '/' then .error .path
  else if n = "." ∨ n = ".." then .error .dots
  else if cs.head? = some '.' then .error .dotfile
  else if !cs.all isAsciiGraphic then .error .unprintable
  else .ok ()

inductive ListFault
  | notFileLine (line : String)
  | notSize (size : String)
  | name (fault : NameFault)
  | cannotList (name : String)
  | empty
  deriving DecidableEq

/-- One line of `check-manifest`'s output; others than `file` lines are passed over. -/
def readFileLine (out : List Entry) (line : List Char) : Except ListFault (List Entry) :=
  match line.dropPrefix? ['f', 'i', 'l', 'e', ' '] with
  | none => .ok out
  | some rest =>
    match splitOnce ' ' rest with
    | none => .error (.notFileLine (String.ofList line))
    | some (size, name) =>
      match parseUnsigned u64Max size with
      | none => .error (.notSize (String.ofList size))
      | some n => do
        let name := String.ofList name
        (checkTransferName name).mapError .name
        if name = "manifest" ∨ name = "manifest.sig" ∨ out.any (fun e => e.name = name) then
          throw (.cannotList name)
        else return out ++ [⟨name, n⟩]

def parseFileList (text : String) : Except ListFault (List Entry) := do
  let out ← (lines text.toList).foldlM readFileLine []
  if out = [] then throw .empty else return out

def totalBytes (files : List Entry) : ℕ := files.foldl (fun sum e => min (sum + e.size) u64Max) 0

inductive PutFault
  | nothing
  | overflow
  | alreadyVerified
  | notWhole
  | noManifest
  | unlisted
  | wrongOffset (held : ℕ)
  | pastEnd (size : ℕ)
  deriving DecidableEq

def mayPut (files : Option (List Entry)) (name : String) (offset len held : ℕ) : Except PutFault Unit :=
  if len = 0 then .error .nothing
  else if u64Max < offset + len then .error .overflow
  else if name = "manifest" ∨ name = "manifest.sig" then
    if files.isSome then .error .alreadyVerified
    else if offset ≠ 0 ∨ manifestMax < offset + len then .error .notWhole
    else .ok ()
  else
    match files with
    | none => .error .noManifest
    | some files =>
      match files.find? (fun e => e.name = name) with
      | none => .error .unlisted
      | some e =>
        if offset ≠ held then .error (.wrongOffset held)
        else if e.size < offset + len then .error (.pastEnd e.size)
        else .ok ()

def stillNeeded (files : List Entry) (held : String → ℕ) : List (String × ℕ) :=
  files.filterMap (fun e => if held e.name < e.size then some (e.name, held e.name) else none)

end Kryptik.Kryptikd.Update
