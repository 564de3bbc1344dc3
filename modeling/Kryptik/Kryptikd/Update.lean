import Kryptik.Kryptikd.Release
import Kryptik.Lib.Prog

namespace Kryptik.Kryptikd.Update

open Lib.Text Lib.Prog

/-- A staged release: the directory, which a removal ends for good, and its files. -/
structure Stage where
  ino : ℕ
  files : String → Option (List UInt8)

structure Store where
  pointer : Option ByteArray
  considered : Option ℤ
  refused : Option ℤ
  wanted : Option String
  declined : Option String
  auto : Bool
  files : Option String
  incoming : String → Option Stage
  /-- The next directory to be made is `inodes`. -/
  inodes : ℕ

def pointerIn (bytes : ByteArray) : Option Pointer :=
  (String.fromUTF8? bytes).bind (fun text => (parsePointer text).toOption)

def Store.storedPointer (s : Store) : Option Pointer := s.pointer.bind pointerIn

def versionIn (text : String) : Option String :=
  let v := String.ofList (trim text.toList)
  if isVersion v then some v else none

def Store.wantedVersion (s : Store) : Option String := s.wanted.bind versionIn
def Store.declinedVersion (s : Store) : Option String := s.declined.bind versionIn

def Store.held (s : Store) (version name : String) : ℕ :=
  (((s.incoming version).bind (fun stage => stage.files name)).map List.length).getD 0

def listingLine (key value : String) : List Char := key.toList ++ ':' :: ' ' :: value.toList

def listedFor (text version : String) : Option (List Entry) :=
  if (lines text.toList).head? = some (listingLine "version" version) then
    (parseFileList text).toOption
  else none

def Store.verifiedFiles (s : Store) (version : String) : Option (List Entry) :=
  s.files.bind (listedFor · version)

/-- `(now - t).unsigned_abs() < POINTER_INTERVAL_SECS`, with the difference of `i64`. -/
def within (now t : ℤ) : Bool := (now - t).bmod (2 ^ 64) |>.natAbs |> (· < pointerIntervalSecs)

def Store.refusedLately (s : Store) (now : ℤ) : Bool := s.refused.any (within now)

/-- A put that `may_put` let through, with the stage it was written to. -/
structure Accepted where
  version : String
  ino : ℕ
  name : String
  offset : ℕ
  bytes : List UInt8

/-- The store, each call that came to be considered, with its clock and whether the check of
the signature ran, each put let through, and how often the stage was cleared. -/
structure Machine where
  store : Store
  tried : List (ℤ × Bool)
  accepted : List Accepted
  clears : ℕ

inductive Refusal
  | directory
  | tooSoon
  | write (file : String)
  | notText
  | signature (why : String)
  | pointer (fault : PointerFault)
  | statement (fault : AcceptFault)
  | noStatement
  | nothingNewer
  | noChannel
  | base (fault : BaseFault)
  | lock
  | applying
  | nothingAsked
  | notDeleted
  | notNewest
  | put (fault : PutFault)
  | refusedLately
  | stageGone
  | manifest (why : String)
  | otherVersion
  | otherManifest
  | list (fault : ListFault)
  | noRoom (need free : ℕ)
  | noManifest
  | arriving (name : String) (at_ : ℕ)
  deriving DecidableEq

inductive Stop
  | refused (why : Refusal)
  | crashed

/-- A call, step by step; what it did before it stopped stands. -/
abbrev Call := EStateM Stop Machine

/-- How a step ends. A crash comes before its effect or, `late`, right after it. -/
inductive Outcome
  | done
  | failed
  | crashed (late : Bool)
  deriving DecidableEq

/-- An append: all of it, or the first bytes and an error or a crash. -/
inductive Written
  | whole
  | cut (bytes : ℕ) (crashed : Bool)

/-- A recursive removal: all of it, or all but some files, by version and name, and the directories they are in. A
name that no file has stands for the directory alone. -/
inductive Removal
  | whole
  | cut (left : List (String × String)) (crashed : Bool)

def refuse {α : Type} (why : Refusal) : Call α := throw (.refused why)

def Machine.edit (f : Store → Store) (m : Machine) : Machine := { m with store := f m.store }

def edit (f : Store → Store) : Call Unit := modify (Machine.edit f)

def mustChange (o : Outcome) (why : Refusal) (f : Machine → Machine) : Call Unit :=
  match o with
  | .done => modify f
  | .failed => refuse why
  | .crashed late => do
    if late then modify f
    throw .crashed

/-- A step on the store whose failure ends the call. `write_atomic` replaces a file or leaves it. -/
def must (o : Outcome) (why : Refusal) (f : Store → Store) : Call Unit :=
  mustChange o why (Machine.edit f)

def may (o : Outcome) (f : Store → Store) : Call Unit :=
  match o with
  | .done => edit f
  | .failed => pure ()
  | .crashed late => do
    if late then edit f
    throw .crashed

def Machine.after {α : Type} (m : Machine) (x : Call α) : Machine :=
  match x m with
  | .ok _ m' => m'
  | .error _ m' => m'

def look {α : Type} (o : Outcome) (f : Store → Option α) : Call (Option α) :=
  match o with
  | .done => return f (← get).store
  | .failed => return none
  | .crashed _ => throw .crashed

def orRefuse {α : Type} (why : Refusal) : Option α → Call α
  | some a => pure a
  | none => refuse why

def orElseRefuse {ε α : Type} (why : ε → Refusal) : Except ε α → Call α
  | .ok a => pure a
  | .error e => refuse (why e)

/-- The reads and writes of `latest`. -/
structure LatestIo where
  dir : Outcome
  readConsidered : Outcome
  putConsidered : Outcome
  scratch : Outcome
  copies : Outcome
  readPointer : Outcome
  putPointer : Outcome

structure LatestArgs where
  now : ℤ
  running : String
  pointer : ByteArray
  /-- What `checks.pointer` says of the pointer and its signature. -/
  verdict : Except String Unit
  io : LatestIo

def Machine.consider (now : ℤ) (m : Machine) : Machine :=
  { m with
    store := { m.store with considered := some now }
    tried := m.tried ++ [(now, false)] }

def Machine.check (now : ℤ) (m : Machine) : Machine :=
  { m with tried := m.tried.dropLast ++ [(now, true)] }

def latest (role : String) (a : LatestArgs) : Call Standing := do
  must a.io.dir .directory id
  let last ← look a.io.readConsidered Store.considered
  if last.any (within a.now) then refuse .tooSoon
  mustChange a.io.putConsidered (.write "considered") (Machine.consider a.now)
  let text ← orRefuse .notText (String.fromUTF8? a.pointer)
  must a.io.scratch (.write "checking") id
  must a.io.copies (.write "latest") id
  modify (Machine.check a.now)
  orElseRefuse .signature a.verdict
  let p ← orElseRefuse .pointer (parsePointer text)
  let newest ← look a.io.readPointer Store.storedPointer
  let standing ← orElseRefuse .statement
    (acceptPointer p role a.running (newest.map Pointer.issued) a.now)
  must a.io.putPointer (.write "pointer") (fun s => { s with pointer := some a.pointer })
  return standing

def Stage.leave (stage : Stage) (version : String) (left : List (String × String)) : Option Stage :=
  if left.any (fun f => f.1 = version) then
    some { stage with files := fun name => if (version, name) ∈ left then stage.files name else none }
  else none

def Machine.clear (m : Machine) : Machine :=
  { m with store := { m.store with incoming := fun _ => none }, clears := m.clears + 1 }

def Store.leaveIncoming (s : Store) (left : List (String × String)) : Store :=
  { s with incoming := fun v => (s.incoming v).bind (fun stage => stage.leave v left) }

def Store.removeStage (s : Store) (version : String) : Store :=
  { s with incoming := Function.update s.incoming version none }

def Store.leaveStage (s : Store) (version : String) (left : List (String × String)) : Store :=
  let rest := (s.incoming version).bind (fun stage => stage.leave version left)
  { s with incoming := Function.update s.incoming version rest }

/-- The removals of `clear_stage`. -/
structure ClearIo where
  files : Outcome
  incoming : Removal

/-- `clear_stage`: whether the stage is gone. -/
def clearStage (io : ClearIo) : Call Bool := do
  may io.files (fun s => { s with files := none })
  match io.incoming with
  | .whole =>
    modify Machine.clear
    return true
  | .cut left crashed =>
    edit (Store.leaveIncoming · left)
    if crashed then throw .crashed
    return false

structure WantArgs where
  channel : Option String
  role : String
  running : String

/-- `want` up to its lock: the statement it goes by. -/
def wantRead (a : WantArgs) (s : Store) : Except Refusal Pointer :=
  match s.storedPointer, a.channel with
  | none, _ => .error .noStatement
  | some p, channel =>
    if versionCmp p.version a.running ≠ .gt then .error .nothingNewer
    else match channel with
      | none => .error .noChannel
      | some channel =>
        match resolveBase channel p.base a.role with
        | .error e => .error (.base e)
        | .ok _ => .ok p

structure WantIo where
  lock : Outcome
  readWanted : Outcome
  noApply : Outcome
  clear : ClearIo
  putWanted : Outcome
  removeDeclined : Outcome

/-- The request, which also ends a version's being passed over. -/
def recordWanted (io : WantIo) (p : Pointer) : Call String := do
  must io.putWanted (.write "wanted") (fun s => { s with wanted := some p.version })
  may io.removeDeclined (fun s => { s with declined := none })
  return p.version

def wantLocked (io : WantIo) (p : Pointer) : Call String := do
  must io.lock .lock id
  let wanted ← look io.readWanted Store.wantedVersion
  if wanted ≠ some p.version then
    must io.noApply .applying id
    let _ ← clearStage io.clear
  recordWanted io p

def want (io : WantIo) (a : WantArgs) : Call String := do
  let p ← orElseRefuse id (wantRead a (← get).store)
  wantLocked io p

structure ForgetIo where
  lock : Outcome
  readWanted : Outcome
  noApply : Outcome
  putDeclined : Outcome
  removeWanted : Outcome
  clear : ClearIo

def forget (io : ForgetIo) : Call String := do
  must io.lock .lock id
  let v ← orRefuse .nothingAsked (← look io.readWanted Store.wantedVersion)
  must io.noApply .applying id
  must io.putDeclined (.write "declined") (fun s => { s with declined := some v })
  may io.removeWanted (fun s => { s with wanted := none })
  if ← clearStage io.clear then return v else refuse .notDeleted

structure DiscardIo where
  lock : Outcome
  clear : ClearIo

def discardStage (io : DiscardIo) : Call Bool := do
  match io.lock with
  | .done => clearStage io.clear
  | .failed => return false
  | .crashed _ => throw .crashed

structure PutArgs where
  now : ℤ
  name : String
  offset : ℕ
  bytes : List UInt8

/-- The steps of `put` up to the check of the manifest. -/
structure PutIo where
  lock : Outcome
  readWanted : Outcome
  readPointer : Outcome
  readFiles : Outcome
  readHeld : Outcome
  makeStage : Outcome
  removeOld : Outcome
  openFile : Outcome
  write : Written
  readPair : Outcome
  readRefused : Outcome
  remove : Removal
  openStage : Outcome

/-- The steps of `put` behind the check. -/
structure SettleIo where
  lock : Outcome
  readLinks : Outcome
  putRefused : Outcome
  remove : Removal
  putFiles : Outcome

inductive Reply
  | complete (name : String)
  | received (name : String) (have_ size : ℕ)
  | verified (name : String) (files need : ℕ)

/-- What `put` remembers of the stage whose manifest is being checked. -/
structure Checking where
  name : String
  now : ℤ
  version : String
  pointer : Pointer
  ino : ℕ

def Store.makeStage (s : Store) (version : String) : Store :=
  match s.incoming version with
  | some _ => s
  | none =>
    { s with
      incoming := Function.update s.incoming version (some ⟨s.inodes, fun _ => none⟩)
      inodes := s.inodes + 1 }

def Store.setFile (s : Store) (version name : String) (bytes : Option (List UInt8)) : Store :=
  let stage := (s.incoming version).map (fun stage =>
    { stage with files := Function.update stage.files name bytes })
  { s with incoming := Function.update s.incoming version stage }

def Store.appendFile (s : Store) (version name : String) (bytes : List UInt8) : Store :=
  s.setFile version name
    (some ((((s.incoming version).bind (fun stage => stage.files name)).getD []) ++ bytes))

def Store.stageIno (s : Store) (version : String) : Option ℕ := (s.incoming version).map Stage.ino

def removeStage (r : Removal) (version : String) : Call Unit :=
  match r with
  | .whole => edit (Store.removeStage · version)
  | .cut left crashed => do
    edit (Store.leaveStage · version left)
    if crashed then throw .crashed

def appendBytes (io : PutIo) (version name : String) (offset : ℕ) (bytes : List UInt8) : Call Unit := do
  must io.openFile (.write name) (Store.appendFile · version name [])
  modify (fun m => { m with accepted := m.accepted ++
    [⟨version, (m.store.stageIno version).getD 0, name, offset, bytes⟩] })
  match io.write with
  | .whole => edit (Store.appendFile · version name bytes)
  | .cut n crashed =>
    edit (Store.appendFile · version name (bytes.take n))
    throw (if crashed then .crashed else .refused (.write name))

/-- The stage, without an old half of the pair, and the bytes. -/
def stageBytes (io : PutIo) (a : PutArgs) (version : String) (listed : Bool) : Call Unit := do
  must io.makeStage (.write "incoming") (Store.makeStage · version)
  if !listed then may io.removeOld (Store.setFile · version a.name none)
  appendBytes io version a.name a.offset a.bytes

/-- The stage held open, which shows after the check whether it was cleared. -/
def holdStage (io : PutIo) (a : PutArgs) (version : String) (p : Pointer) : Call Checking := do
  must io.openStage .stageGone id
  let ino ← orRefuse .stageGone ((← get).store.stageIno version)
  return ⟨a.name, a.now, version, p, ino⟩

/-- Both halves of the pair are there: the check to run, unless one was refused lately. -/
def startCheck (io : PutIo) (a : PutArgs) (version : String) (p : Pointer) : Call Checking := do
  let lately ← look io.readRefused (fun s => some (s.refusedLately a.now))
  if lately = some true then
    removeStage io.remove version
    refuse .refusedLately
  else holdStage io a version p

def pairArrived (io : PutIo) (a : PutArgs) (version : String) (p : Pointer) : Call (Reply ⊕ Checking) := do
  let pair ← look io.readPair
    (fun s => some (decide (s.held version "manifest" ≠ 0 ∧ s.held version "manifest.sig" ≠ 0)))
  if pair = some true then return .inr (← startCheck io a version p)
  else return .inl (.complete a.name)

def pieceReply (files : List Entry) (a : PutArgs) : Reply :=
  let size := ((files.find? (fun e => e.name = a.name)).map Entry.size).getD 0
  let have_ := a.offset + a.bytes.length
  if have_ = size then .complete a.name else .received a.name have_ size

/-- `put` up to the check: a reply, or the check to run with the lock released. -/
def putLocked (io : PutIo) (a : PutArgs) : Call (Reply ⊕ Checking) := do
  must io.lock .lock id
  let version ← orRefuse .nothingAsked (← look io.readWanted Store.wantedVersion)
  let p ← orRefuse .notNewest
    ((← look io.readPointer Store.storedPointer).filter (fun p => p.version = version))
  let files ← look io.readFiles (Store.verifiedFiles · version)
  let held ← look io.readHeld (fun s => some (s.held version a.name))
  orElseRefuse .put (mayPut files a.name a.offset a.bytes.length (held.getD 0))
  stageBytes io a version files.isSome
  match files with
  | some files => return .inl (pieceReply files a)
  | none => pairArrived io a version p

def refuseChecked {α : Type} (io : SettleIo) (c : Checking) (why : Refusal) : Call α := do
  must io.putRefused (.write "refused") (fun s => { s with refused := some c.now })
  removeStage io.remove c.version
  refuse why

/-- `put` behind the check. `free` is what the file system has room for. -/
def putSettle (io : SettleIo) (c : Checking) (checked : Except String String) (free : ℕ) : Call Reply := do
  must io.lock .lock id
  let linked ← look io.readLinks (fun s => some (decide (s.stageIno c.version = some c.ino)))
  if linked ≠ some true then refuse .stageGone
  match checked with
  | .error why => refuseChecked io c (.manifest why)
  | .ok listing =>
    if (lines listing.toList).head? ≠ some (listingLine "version" c.version) then
      refuseChecked io c .otherVersion
    else if listingLine "sha256" c.pointer.manifestSha256 ∉ lines listing.toList then
      refuseChecked io c .otherManifest
    else match parseFileList listing with
      | .error e => refuseChecked io c (.list e)
      | .ok files =>
        if free < totalBytes files then refuseChecked io c (.noRoom (totalBytes files) free)
        else
          must io.putFiles (.write "files") (fun s => { s with files := some listing })
          return .verified c.name files.length (totalBytes files)

def put (io : PutIo) (settle : SettleIo) (a : PutArgs) (checked : Except String String) (free : ℕ) : Call Reply := do
  match ← putLocked io a with
  | .inl reply => return reply
  | .inr c => putSettle settle c checked free

def manifestNeeded (s : Store) (version : String) : List (String × ℕ) :=
  (["manifest", "manifest.sig"].filter (fun n => s.held version n = 0)).map (fun n => (n, 0))

def outstanding (s : Store) (channel role running : String) (now : ℤ) :
    Option (Pointer × String × List (String × ℕ)) := do
  let version ← s.wantedVersion
  let p ← s.storedPointer.filter (fun p => p.version = version)
  if versionCmp version running ≠ .gt then none
  let base ← (resolveBase channel p.base role).toOption
  match s.verifiedFiles version with
  | some files => some (p, base, stillNeeded files (s.held version))
  | none => if s.refusedLately now then none else some (p, base, manifestNeeded s version)

inductive Poll
  | idle
  | fetch (version base : String) (need : List (String × ℕ))

def pollAnswer (s : Store) (channel role running : String) (now : ℤ) : Poll :=
  match outstanding s channel role running now with
  | some (p, base, need) => if need ≠ [] then .fetch p.version base need else .idle
  | none => .idle

def asksItself (s : Store) : Bool :=
  s.auto && s.storedPointer.any (fun p =>
    s.wantedVersion ≠ some p.version && s.declinedVersion ≠ some p.version)

def attempt {α : Type} (x : Call α) : Call Unit := fun m =>
  match x m with
  | .ok _ m' => .ok () m'
  | .error (.refused _) m' => .ok () m'
  | .error .crashed m' => .error .crashed m'

def poll (io : WantIo) (channel role running : String) (now : ℤ) : Call Poll := do
  if asksItself (← get).store then attempt (want io ⟨some channel, role, running⟩)
  return pollAnswer (← get).store channel role running now

def completeStage (s : Store) : Except Refusal String :=
  match s.wantedVersion with
  | none => .error .nothingAsked
  | some v =>
    match s.verifiedFiles v with
    | none => .error .noManifest
    | some files =>
      match stillNeeded files (s.held v) with
      | [] => .ok v
      | (name, at_) :: _ => .error (.arriving name at_)

end Kryptik.Kryptikd.Update
