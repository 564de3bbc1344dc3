import Kryptik.Lib.Text

namespace Kryptik.Kryptikd

open Lib.Text

inductive NetworkMode
  | none
  | routed
  | nic
  deriving DecidableEq

inductive StorageMode
  | encrypted
  | ephemeral
  | persistent
  deriving DecidableEq

structure Zone where
  name : String
  description : String
  network : NetworkMode
  nic : Option String
  localNets : Bool
  storage : StorageMode
  volume : Option String
  seccomp : Option String
  landlock : Option String
  size : Option String
  memoryMax : Option String
  pidsMax : Option ℕ
  cpuMax : Option String
  ioMax : Option String
  borderColor : String
  borderPattern : Option String
  glyph : Option String
  label : Option String
  uidBase : Option ℕ
  transferTo : List String
  transferMax : Option ℕ
  images : List String
  sound : Bool
  removable : Bool
  camera : Bool
  holdAwake : Bool

def identityMin : ℕ := 131072
def identityStride : ℕ := 65536
def transferCap : ℕ := 1024 * 1024 * 1024
def u32Max : ℕ := 2 ^ 32 - 1
def u64Max : ℕ := 2 ^ 64 - 1

inductive SyntaxFault
  | unterminatedHeader
  | nestedTable
  | noKeyValue
  | array
  | unterminatedString
  | unquoted (value : String)
  | duplicateKey (full : String)
  deriving DecidableEq

/-- What an `Invalid` says, with the values its text quotes. -/
inductive Invalid
  | unknownKey (key : String)
  | ioMaxWithoutVolume (zone : String)
  | ephemeralWithoutSize (zone : String)
  | sizeAboveMemory (zone size memoryMax : String)
  | encryptedSized (zone : String)
  | persistentSized (zone : String)
  | nicOutsideNic (zone : String)
  | localOutsideRouted (zone : String)
  | nicSound (zone : String)
  | nicStick (zone : String)
  | nicCamera (zone : String)
  | nicAwake (zone : String)
  | transferToItself (zone : String)
  | transferTwice (zone target : String)
  | imageTwice (zone image : String)
  | emptyName
  | nameCharacters (name : String)
  | nameLength (name : String) (length : ℕ)
  | encryptedWithoutVolume (zone : String)
  | persistentWithVolume (zone volume : String)
  | colour (zone colour : String)
  | pattern (zone pattern : String)
  | glyph (zone glyph : String)
  | label (zone label : String)
  | transferToUnknown (zone target : String)
  | transferToNic (zone target : String)
  | noNic
  | manyNics (zones : List String)
  | duplicateName (zone : String)
  | sharedBase (earlier later : String) (base : ℕ)
  | sharedColour (earlier later colour : String)
  deriving DecidableEq

inductive ZoneError
  | syntaxFault (line : ℕ) (fault : SyntaxFault)
  | missing (key : String)
  | badValue (field value expected : String)
  | invalid (reason : Invalid)
  deriving DecidableEq

def NetworkMode.parse (s : String) : Except ZoneError NetworkMode :=
  if s = "none" then .ok .none
  else if s = "routed" then .ok .routed
  else if s = "nic" then .ok .nic
  else .error (.badValue "network.mode" s "none | routed | nic")

def StorageMode.parse (s : String) : Except ZoneError StorageMode :=
  if s = "encrypted" then .ok .encrypted
  else if s = "ephemeral" then .ok .ephemeral
  else if s = "persistent" then .ok .persistent
  else .error (.badValue "storage.mode" s "encrypted | ephemeral | persistent")

def knownKeys : List String :=
  ["zone.name", "zone.description", "network.mode", "network.nic", "network.local",
    "storage.mode", "storage.volume", "storage.size", "storage.removable",
    "policy.seccomp", "policy.landlock",
    "limits.memory_max", "limits.pids_max", "limits.cpu_max", "limits.io_max",
    "identity.uid_base",
    "transfer.to", "transfer.max_bytes",
    "software.images",
    "sound.play",
    "camera.use",
    "desktop.hold_awake",
    "ui.border_color", "ui.border_pattern", "ui.glyph", "ui.label"]

def parseCpuMax (s : String) : Option ℕ := do
  let digits ← stripSuffix '%' s.toList
  if digits.isEmpty || !digits.all isAsciiDigit then none
  else (parseUnsigned u32Max digits).filter (fun n => 0 < n)

def sizeUnit (cs : List Char) : Option (List Char × ℕ) :=
  cs.getLast?.map (fun c =>
    if c = 'K' || c = 'k' then (cs.dropLast, 10)
    else if c = 'M' || c = 'm' then (cs.dropLast, 20)
    else if c = 'G' || c = 'g' then (cs.dropLast, 30)
    else if c = 'T' || c = 't' then (cs.dropLast, 40)
    else (cs, 0))

def parseSize (s : String) : Option ℕ := do
  let (digits, shift) ← sizeUnit s.toList
  if digits.isEmpty || !digits.all isAsciiDigit then none
  else
    let n ← (parseUnsigned u64Max digits).filter (fun n => 0 < n)
    if n * 2 ^ shift ≤ u64Max then some (n * 2 ^ shift) else none

/-- The settings of a zone file under their full keys, in the order they were read. -/
abbrev Settings := List (String × String)

/-- The line before a `#` that stands outside quotes. -/
def stripComment : Bool → List Char → List Char
  | _, [] => []
  | inString, c :: cs =>
    if c = '"' then c :: stripComment (!inString) cs
    else if c = '#' && !inString then []
    else c :: stripComment inString cs

/-- A quoted string without its quotes, or a bare integer or boolean. -/
def tomlValue (lineno : ℕ) (value : List Char) : Except ZoneError (List Char) :=
  match stripPrefix '"' value with
  | some inner =>
    match stripSuffix '"' inner with
    | some text => .ok text
    | none => .error (.syntaxFault lineno .unterminatedString)
  | none =>
    if value.all isAsciiDigit || value = "true".toList || value = "false".toList then .ok value
    else .error (.syntaxFault lineno (.unquoted (String.ofList value)))

structure TomlState where
  out : Settings
  sectionName : List Char

def tomlLine (st : TomlState) (numbered : List Char × ℕ) : Except ZoneError TomlState :=
  let lineno := numbered.2
  let line := trim (stripComment false numbered.1)
  if line.isEmpty then .ok st
  else match stripPrefix '[' line with
    | some rest =>
      match stripSuffix ']' rest with
      | none => .error (.syntaxFault lineno .unterminatedHeader)
      | some name =>
        if name.contains '[' || name.contains '.' then .error (.syntaxFault lineno .nestedTable)
        else .ok { st with sectionName := trim name }
    | none =>
      match splitOnce '=' line with
      | none => .error (.syntaxFault lineno .noKeyValue)
      | some (key, value) =>
        let key := trim key
        let value := trim value
        if value.head? = some '[' then .error (.syntaxFault lineno .array)
        else do
          let value ← tomlValue lineno value
          let full := String.ofList
            (if st.sectionName.isEmpty then key else st.sectionName ++ '.' :: key)
          if (st.out.lookup full).isSome then .error (.syntaxFault lineno (.duplicateKey full))
          else .ok { st with out := st.out ++ [(full, String.ofList value)] }

def parseFlatToml (text : String) : Except ZoneError Settings := do
  let st ← ((lines text.toList).zipIdx 1).foldlM tomlLine ⟨[], []⟩
  pure st.out

section Fields

variable (kv : Settings) (name : String) (network : NetworkMode) (storage : StorageMode)

def need (key : String) : Except ZoneError String :=
  match kv.lookup key with
  | some v => .ok v
  | none => .error (.missing key)

def checkKnown : Except ZoneError Unit :=
  match kv.find? (fun entry => !knownKeys.contains entry.1) with
  | some entry => .error (.invalid (.unknownKey entry.1))
  | none => .ok ()

def readPidsMax : Except ZoneError (Option ℕ) :=
  match kv.lookup "limits.pids_max" with
  | none => .ok none
  | some v =>
    match (parseUnsigned u32Max v.toList).filter (fun n => 0 < n) with
    | some n => .ok (some n)
    | none => .error (.badValue "limits.pids_max" v "a positive integer")

def checkMemoryMax : Except ZoneError Unit :=
  match kv.lookup "limits.memory_max" with
  | none => .ok ()
  | some v =>
    if (parseSize v).isNone then
      .error (.badValue "limits.memory_max" v "a size such as 512M or 2G")
    else .ok ()

def checkCpuMax : Except ZoneError Unit :=
  match kv.lookup "limits.cpu_max" with
  | none => .ok ()
  | some v =>
    if (parseCpuMax v).isNone then
      .error (.badValue "limits.cpu_max" v "a percentage of one CPU such as 50% or 200%")
    else .ok ()

def checkIoMax : Except ZoneError Unit :=
  match kv.lookup "limits.io_max" with
  | none => .ok ()
  | some v =>
    if (parseSize v).isNone then
      .error (.badValue "limits.io_max" v "bytes per second such as 20M")
    else if storage ≠ .encrypted then .error (.invalid (.ioMaxWithoutVolume name))
    else .ok ()

def checkSize : Except ZoneError Unit :=
  match storage with
  | .ephemeral =>
    match kv.lookup "storage.size" with
    | none => .error (.invalid (.ephemeralWithoutSize name))
    | some v =>
      match parseSize v with
      | none => .error (.badValue "storage.size" v "a size such as 512M or 2G")
      | some sz =>
        match kv.lookup "limits.memory_max" with
        | none => .ok ()
        | some m =>
          match parseSize m with
          | none => .ok ()
          | some mm => if mm < sz then .error (.invalid (.sizeAboveMemory name v m)) else .ok ()
  | .encrypted =>
    if (kv.lookup "storage.size").isSome then .error (.invalid (.encryptedSized name)) else .ok ()
  | .persistent =>
    if (kv.lookup "storage.size").isSome then .error (.invalid (.persistentSized name)) else .ok ()

def readUidBase : Except ZoneError (Option ℕ) :=
  match kv.lookup "identity.uid_base" with
  | none => .ok none
  | some v =>
    match parseUnsigned u32Max v.toList with
    | none => .error (.badValue "identity.uid_base" v "an unsigned integer")
    | some n =>
      if n < identityMin ∨ n % identityStride ≠ 0 ∨ u32Max < n + (identityStride - 1) then
        .error (.badValue "identity.uid_base" v
          "a multiple of 65536, at least 131072, with room for a 65536-wide range")
      else .ok (some n)

/-- The kernel's rule for an interface name, kept to printable ASCII. -/
def validNic (cs : List Char) : Bool :=
  !cs.isEmpty && byteLen cs ≤ 15 && cs ≠ ['.'] && cs ≠ ['.', '.'] &&
    cs.all (fun c => isAsciiGraphic c && c ≠ '/' && c ≠ ':')

def readNic : Except ZoneError (Option String) :=
  match kv.lookup "network.nic" with
  | none => .ok none
  | some n =>
    if !validNic n.toList then
      .error (.badValue "network.nic" n
        "an interface name of at most 15 characters, or \"*\" for every physical interface")
    else if network ≠ .nic then .error (.invalid (.nicOutsideNic name))
    else .ok (some n)

def readLocal : Except ZoneError Bool :=
  match kv.lookup "network.local" with
  | none => .ok false
  | some v =>
    if network ≠ .routed then .error (.invalid (.localOutsideRouted name))
    else if v = "true" then .ok true
    else if v = "false" then .ok false
    else .error (.badValue "network.local" v "true or false")

/-- A switch the nic zone cannot turn on; `absent` is its value where the file says nothing. -/
def readSwitch (key : String) (absent : Bool) (refusal : Invalid) : Except ZoneError Bool :=
  match kv.lookup key with
  | none => .ok absent
  | some v =>
    if v = "false" then .ok false
    else if v = "true" then
      if network = .nic then .error (.invalid refusal) else .ok true
    else .error (.badValue key v "true or false")

def readSound : Except ZoneError Bool :=
  readSwitch kv network "sound.play" (network ≠ .nic) (.nicSound name)

def readRemovable : Except ZoneError Bool :=
  readSwitch kv network "storage.removable" (network ≠ .nic) (.nicStick name)

def readCamera : Except ZoneError Bool :=
  readSwitch kv network "camera.use" (network ≠ .nic) (.nicCamera name)

def readHoldAwake : Except ZoneError Bool :=
  readSwitch kv network "desktop.hold_awake" false (.nicAwake name)

def nameChar (c : Char) : Bool := isAsciiLowercase c || isAsciiDigit c || c = '-'

def transferTarget (v : String) (out : List String) (n : List Char) : Except ZoneError (List String) :=
  if !n.all nameChar then .error (.badValue "transfer.to" v "space-separated zone names")
  else if String.ofList n = name then .error (.invalid (.transferToItself name))
  else if String.ofList n ∈ out then .error (.invalid (.transferTwice name (String.ofList n)))
  else .ok (out ++ [String.ofList n])

def readTransferTo : Except ZoneError (List String) :=
  match kv.lookup "transfer.to" with
  | none => .ok []
  | some v => do
    let out ← (splitWhitespace v.toList).foldlM (transferTarget name v) []
    if out.isEmpty then
      .error (.badValue "transfer.to" v
        "at least one zone name, or omit [transfer] to send nothing")
    else .ok out

def readTransferMax : Except ZoneError (Option ℕ) :=
  match kv.lookup "transfer.max_bytes" with
  | none => .ok none
  | some v =>
    match (parseUnsigned u64Max v.toList).filter
        (fun n => 1 ≤ n && n ≤ transferCap && v.toList.all isAsciiDigit) with
    | some n => .ok (some n)
    | none =>
      .error (.badValue "transfer.max_bytes" v "a whole number of bytes from 1 to 1073741824")

/-- The rule for an image's name (`images::valid_name`). -/
def validImage (cs : List Char) : Bool :=
  1 ≤ byteLen cs && byteLen cs ≤ 32 && cs.all nameChar

def imageName (v : String) (out : List String) (n : List Char) : Except ZoneError (List String) :=
  if !validImage n then .error (.badValue "software.images" v "space-separated image names")
  else if String.ofList n ∈ out then .error (.invalid (.imageTwice name (String.ofList n)))
  else .ok (out ++ [String.ofList n])

def readImages : Except ZoneError (List String) :=
  match kv.lookup "software.images" with
  | none => .ok []
  | some v => do
    let out ← (splitWhitespace v.toList).foldlM (imageName name v) []
    if out.isEmpty then
      .error (.badValue "software.images" v "at least one image name, or omit [software]")
    else .ok out

end Fields

def isHexColour (s : String) : Bool :=
  byteLen s.toList = 7 && s.toList.head? = some '#' && s.toList.tail.all isAsciiHexdigit

def borderPatterns : List String :=
  ["solid", "dashed", "dotted", "double", "dash-dot", "notched"]

def validGlyph (g : String) : Bool :=
  g.toList.length = 1 && !g.toList.any (fun c => isControl c || isWhitespace c)

def validLabel (l : String) : Bool :=
  !l.toList.isEmpty && byteLen l.toList ≤ 12 && l.toList.all (fun c => ' ' ≤ c && c ≤ '~') &&
    l.toList.head? ≠ some ' ' && l.toList.getLast? ≠ some ' '

namespace Zone

def validate (z : Zone) : Except ZoneError Unit :=
  if z.name.toList.isEmpty then .error (.invalid .emptyName)
  else if !z.name.toList.all nameChar then .error (.invalid (.nameCharacters z.name))
  else if 12 < byteLen z.name.toList then
    .error (.invalid (.nameLength z.name (byteLen z.name.toList)))
  else if z.storage = .encrypted ∧ z.volume.isNone then
    .error (.invalid (.encryptedWithoutVolume z.name))
  else if z.storage = .persistent ∧ z.volume.isSome then
    .error (.invalid (.persistentWithVolume z.name (z.volume.getD "")))
  else if !isHexColour z.borderColor then .error (.invalid (.colour z.name z.borderColor))
  else if z.borderPattern.any (fun p => !borderPatterns.contains p) then
    .error (.invalid (.pattern z.name (z.borderPattern.getD "")))
  else if z.glyph.any (fun g => !validGlyph g) then
    .error (.invalid (.glyph z.name (z.glyph.getD "")))
  else if z.label.any (fun l => !validLabel l) then
    .error (.invalid (.label z.name (z.label.getD "")))
  else .ok ()

def fromStr (text : String) : Except ZoneError Zone := do
  let kv ← parseFlatToml text
  let _ ← checkKnown kv
  let name ← need kv "zone.name"
  let network ← need kv "network.mode" >>= NetworkMode.parse
  let storage ← need kv "storage.mode" >>= StorageMode.parse
  let pidsMax ← readPidsMax kv
  let _ ← checkMemoryMax kv
  let _ ← checkCpuMax kv
  let _ ← checkIoMax kv name storage
  let _ ← checkSize kv name storage
  let uidBase ← readUidBase kv
  let nic ← readNic kv name network
  let localNets ← readLocal kv name network
  let sound ← readSound kv name network
  let removable ← readRemovable kv name network
  let camera ← readCamera kv name network
  let holdAwake ← readHoldAwake kv name network
  let transferTo ← readTransferTo kv name
  let transferMax ← readTransferMax kv
  let images ← readImages kv name
  let borderColor ← need kv "ui.border_color"
  let zone : Zone :=
    { nic, uidBase, transferTo, transferMax, images, sound, removable, camera, holdAwake
      description := (kv.lookup "zone.description").getD ""
      volume := kv.lookup "storage.volume"
      size := kv.lookup "storage.size"
      seccomp := kv.lookup "policy.seccomp"
      landlock := kv.lookup "policy.landlock"
      memoryMax := kv.lookup "limits.memory_max"
      pidsMax
      cpuMax := kv.lookup "limits.cpu_max"
      ioMax := kv.lookup "limits.io_max"
      borderColor := String.ofList (borderColor.toList.map toAsciiLowercase)
      borderPattern := kv.lookup "ui.border_pattern"
      glyph := kv.lookup "ui.glyph"
      label := kv.lookup "ui.label"
      name, network, localNets, storage }
  let _ ← validate zone
  pure zone

/-- A routed zone's host number (`netzone::host_number`). -/
def hostNumber (z : Zone) : Option ℕ := do
  let base ← z.uidBase
  let k := (base - identityMin) / identityStride + 2
  if 250 ≤ k then none else some (k % 256)

end Zone

section Invariants

variable (zones : List Zone)

def byName (name : String) : Option Zone := zones.find? (fun z => z.name = name)

def checkTarget (z : Zone) (d : String) : Except ZoneError Unit :=
  match byName zones d with
  | none => .error (.invalid (.transferToUnknown z.name d))
  | some o =>
    if o.network = .nic then .error (.invalid (.transferToNic z.name d)) else .ok ()

def checkTargets : Except ZoneError Unit :=
  zones.forM (fun z => z.transferTo.forM (checkTarget zones z))

def nicZones : List String := (zones.filter (fun z => z.network = .nic)).map Zone.name

def checkNic : Except ZoneError Unit :=
  match (nicZones zones).length with
  | 1 => .ok ()
  | 0 => if zones.any (fun z => z.network = .routed) then .error (.invalid .noNic) else .ok ()
  | _ => .error (.invalid (.manyNics (nicZones zones)))

end Invariants

/-- Refuses the first zone whose key an earlier zone has; zones without the key pass. -/
def checkDistinct {κ : Type} [DecidableEq κ] (key : Zone → Option κ)
    (refusal : Zone → Zone → κ → Invalid) : List Zone → List Zone → Except ZoneError Unit
  | _, [] => .ok ()
  | seen, z :: zones =>
    match key z with
    | none => checkDistinct key refusal seen zones
    | some k =>
      match seen.find? (fun o => key o = some k) with
      | some o => .error (.invalid (refusal o z k))
      | none => checkDistinct key refusal (seen ++ [z]) zones

def checkInvariants (zones : List Zone) : Except ZoneError Unit := do
  let _ ← checkTargets zones
  let _ ← checkNic zones
  let _ ← checkDistinct (fun z => some z.name) (fun _ z _ => .duplicateName z.name) [] zones
  let _ ← checkDistinct Zone.uidBase (fun o z b => .sharedBase o.name z.name b) [] zones
  checkDistinct (fun z => some z.borderColor) (fun o z c => .sharedColour o.name z.name c) [] zones

end Kryptik.Kryptikd
