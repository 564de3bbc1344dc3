import Kryptik.Lib.Tables
import Kryptik.Wlproxy.Endpoint

namespace Kryptik.Wlproxy

open Lib Tables Wire

/-- A wl_shm pool's charge on the budgets, kept until the pool and its buffers
are all deleted and no surface may still show one. -/
structure Pool where
  size : ℕ
  buffers : ℕ
  deleted : Bool
  held : ℕ
  fd : Fd
  file : ℕ × ℕ
  range : ℕ

structure Surface where
  role : Option ℕ := none
  parent : Option ℕ := none
  sync : Bool := false
  cached : Bool := false
  children : List ℕ := []
  pending : Option (Option ℕ) := none
  held : List (Option ℕ) := []

/-- History of the files behind the pools: the sizes pools on them reached,
and each release, with the range punched by it if it punched one. -/
inductive FileEvent
  | created (file : ℕ × ℕ) (size : ℕ)
  | resized (file : ℕ × ℕ) (size : ℕ)
  | released (file : ℕ × ℕ) (punched : Option ℕ)

/-- The fields of a session that account for shared memory, and the history of
the files behind it, which nothing reads. -/
structure Shm where
  pools : Table ℕ Pool := ∅
  poolIds : Table ℕ ℕ := ∅
  bufferPools : Table ℕ ℕ := ∅
  surfaces : Table ℕ Surface := ∅
  subsurfaces : Table ℕ ℕ := ∅
  nextPool : ℕ := 0
  poolBytes : ℕ := 0
  poolCount : ℕ := 0
  unpunched : Option ℕ := none
  fileEvents : List FileEvent := []

/-- What the kernel and the standard library answer: the calls of `pool_fd` on
a descriptor, the error of a punch, and which of some entries the iteration
over a hash map meets first. -/
structure Kernel where
  accessMode : Fd → ℕ
  fstatfs : Fd → Option ℕ
  getSeals : Fd → Option ℕ
  fstat : Fd → Except ℕ (ℕ × ℕ)
  dupfd : Fd → Except ℕ Fd
  punch : Fd → ℕ → Option ℕ
  first : List (ℕ × Pool) → ℕ

def oRdwr : ℕ := 2

def tmpfsMagic : ℕ := 0x01021994

/-- A kernel where every descriptor is of a file of its own that may be shared,
and no call fails. -/
def Kernel.willing : Kernel where
  accessMode _ := oRdwr
  fstatfs _ := some tmpfsMagic
  getSeals _ := some 0
  fstat fd := .ok (1, fd)
  dupfd fd := .ok fd
  punch _ _ := none
  first _ := 0

def writeSeals : ℕ := 0x18

def Kernel.poolFd (k : Kernel) (fd : Fd) : Except SessionError (Fd × (ℕ × ℕ)) :=
  if k.accessMode fd ≠ oRdwr then
    .error (.forbidden "a wl_shm pool not open for reading and writing")
  else if k.fstatfs fd ≠ some tmpfsMagic then
    .error (.forbidden "a wl_shm pool that is not shared memory")
  else match k.getSeals fd with
    | none => .error (.forbidden "a wl_shm pool sealed against writes")
    | some seals =>
      if seals &&& writeSeals ≠ 0 then .error (.forbidden "a wl_shm pool sealed against writes")
      else match k.fstat fd with
        | .error code => .error (.io code)
        | .ok file => match k.dupfd fd with
          | .error code => .error (.io code)
          | .ok copy => .ok (copy, file)

def onFile (pools : Table ℕ Pool) (file : ℕ × ℕ) : List (ℕ × Pool) :=
  (pools.entries.filter (fun e => e.2.file = file)).map (fun e => (e.1, e.2))

/-- The pool on that file which the iteration over the map finds: any of them,
at the kernel's choice. -/
def Kernel.other (k : Kernel) (pools : Table ℕ Pool) (file : ℕ × ℕ) : Option (ℕ × Pool) :=
  (onFile pools file)[k.first (onFile pools file) % (onFile pools file).length]?

abbrev ShmM := EStateM Fault Shm

namespace Shm

variable (k : Kernel)

/-- A pool whose last use is gone is dropped. A pool left on the same file takes
its range and charge over; with none left the range is punched. -/
def releasePoolIfUnused (generation : ℕ) : ShmM Unit := do
  let t ← get
  match t.pools.lookup generation with
  | none => return
  | some pool =>
    if pool.deleted ∧ pool.buffers = 0 ∧ pool.held = 0 then
      let pools := t.pools.erase generation
      let poolBytes ← checkedSub t.poolBytes pool.range
      let poolCount ← checkedSub t.poolCount 1
      match k.other pools pool.file with
      | some (g, other) =>
        let t := { t with
          poolCount := poolCount
          fileEvents := t.fileEvents ++ [FileEvent.released pool.file none] }
        if other.range < pool.range then
          set { t with
            pools := pools.insert g { other with range := pool.range }
            poolBytes := poolBytes + (pool.range - other.range) }
        else set { t with pools := pools, poolBytes := poolBytes }
      | none =>
        set { t with
          pools := pools
          poolBytes := poolBytes
          poolCount := poolCount
          unpunched := t.unpunched <|> k.punch pool.fd pool.range
          fileEvents := t.fileEvents ++ [FileEvent.released pool.file (some pool.range)] }
    else return

def unhold (generation : ℕ) : ShmM Unit := do
  let t ← get
  match t.pools.lookup generation with
  | some p =>
    let held ← checkedSub p.held 1
    set { t with pools := t.pools.insert generation { p with held := held } }
  | none => pure ()
  releasePoolIfUnused k generation

def upTo (t : Shm) : ℕ → ℕ → List ℕ
  | 0, _ => []
  | n + 1, id => id :: match (t.surfaces.lookup id).bind Surface.parent with
    | some p => t.upTo n p
    | none => []

def up (t : Shm) (id : ℕ) : List ℕ := t.upTo (size t.subsurfaces + 1) id

def synced (t : Shm) (id : ℕ) : Bool :=
  (t.up id).any (fun s => (t.surfaces.lookup s).any Surface.sync)

/-- One surface's turn in `apply`: it keeps only its last commit. The result
also has the pools it let go of, and the subsurfaces applied in turn. -/
def applyOne (t : Shm) (s : ℕ) : Shm × List ℕ × List ℕ :=
  match t.surfaces.lookup s with
  | none => (t, [], [])
  | some sf =>
    let t := { t with
      surfaces := t.surfaces.insert s { sf with held := sf.held.getLast?.toList, cached := false } }
    (t, sf.held.dropLast.reduceOption,
      sf.children.filter (fun c => (t.surfaces.lookup c).any (fun sf => sf.sync && sf.cached)))

def applyLoop : ℕ → List ℕ → List ℕ → ShmM (List ℕ)
  | _, [], freed => return freed
  | 0, _ :: _, _ => throw .diverged
  | n + 1, s :: todo, freed => do
    let t ← get
    set (t.applyOne s).1
    applyLoop n ((t.applyOne s).2.2.reverse ++ todo) (freed ++ (t.applyOne s).2.1)

/-- Turns enough for the loop of `apply`: each child pushed is popped, and the
children of a surface other than the first are pushed for the cache it had. -/
def applyFuel (t : Shm) : ℕ :=
  (size t.surfaces + 1) * total (fun _ sf => sf.children.length) t.surfaces + 1

/-- A surface's state applied, and that of each synchronized subsurface under
it that has a cache. -/
def apply (id : ℕ) : ShmM Unit := do
  let t ← get
  let freed ← applyLoop t.applyFuel [id] []
  freed.forM (unhold k)

def orphan (t : Shm) (id : ℕ) (parent : Option ℕ) : Shm :=
  match parent with
  | none => t
  | some p => match t.surfaces.lookup p with
    | none => t
    | some sf => { t with
        surfaces := t.surfaces.insert p { sf with children := sf.children.filter (· ≠ id) } }

def endRole (id : ℕ) : ShmM Unit := do
  let t ← get
  match t.surfaces.lookup id with
  | none => return
  | some sf =>
    let t := { t with
      surfaces := t.surfaces.insert id { sf with parent := none, role := none, sync := false } }
    set (t.orphan id sf.parent)

def detach (id : ℕ) : ShmM Unit := do
  let t ← get
  if (t.surfaces.lookup id).any Surface.cached then apply k id else pure ()
  endRole id

/-- The first half of a commit: the surface holds the attached buffer's pool. -/
def holdPending (id : ℕ) : ShmM Unit := do
  let t ← get
  match t.surfaces.lookup id with
  | none => return
  | some sf => match sf.pending with
    | none => return
    | some p =>
      let sf := { sf with pending := none }
      set { t with surfaces := t.surfaces.insert id sf }
      if sf.held.getLast? = some p then return
      else if Policy.maxHeldPerSurface ≤ sf.held.length then
        fail (.resourceLimit "commits cached on one surface")
      else
        let t := { t with surfaces := t.surfaces.insert id { sf with held := sf.held ++ [p] } }
        match p.bind (fun g => (t.pools.lookup g).map (fun pool => (g, pool))) with
        | none => set t
        | some (g, pool) =>
          set { t with pools := t.pools.insert g { pool with held := pool.held + 1 } }

/-- A commit holds the attached buffer's pool; a synchronized subsurface's is
cached, any other surface's applied. -/
def commit (id : ℕ) : ShmM Unit := do
  holdPending id
  let t ← get
  if t.synced id then
    match t.surfaces.lookup id with
    | none => return
    | some sf => set { t with surfaces := t.surfaces.insert id { sf with cached := true } }
  else apply k id

def sizeOk (size : ℕ) : Bool := 0 < size && size < 2 ^ 31 && size ≤ Policy.maxShmPoolBytes

def createPool (id size : ℕ) (fd : Option Fd) : ShmM Unit := do
  if !sizeOk size then fail (.resourceLimit "wl_shm pool size") else
    let t ← get
    if Policy.maxShmPoolsPerSession ≤ t.poolCount ∨ Policy.maxShmBytesPerSession < t.poolBytes + size then
      fail (.resourceLimit "wl_shm pool budget in one session")
    else
      let fd ← orRefuse (.wire .argOverrun) fd
      let (copy, file) ← liftSession (k.poolFd fd)
      let generation := t.nextPool + 1
      set { t with
        nextPool := generation
        poolCount := t.poolCount + 1
        poolBytes := t.poolBytes + size
        poolIds := t.poolIds.insert id generation
        pools := t.pools.insert generation {
          size := size, buffers := 0, deleted := false, held := 0,
          fd := copy, file := file, range := size }
        fileEvents := t.fileEvents ++ [FileEvent.created file size] }

def resize (object size : ℕ) : ShmM Unit := do
  let t ← get
  let generation ← orRefuse (.resourceLimit "unknown wl_shm pool") (t.poolIds.lookup object)
  let p ← unwrap (t.pools.lookup generation)
  if !sizeOk size || size < p.size then fail (.resourceLimit "wl_shm pool resize size") else
    let growth := size - p.range
    if Policy.maxShmBytesPerSession < t.poolBytes + growth then
      fail (.resourceLimit "wl_shm pool budget in one session")
    else
      set { t with
        poolBytes := t.poolBytes + growth
        pools := t.pools.insert generation { p with size := size, range := p.range + growth }
        fileEvents := t.fileEvents ++ [FileEvent.resized p.file size] }

def createBuffer (object id : ℕ) : ShmM Unit := do
  let t ← get
  let generation ← orRefuse (.resourceLimit "unknown wl_shm pool") (t.poolIds.lookup object)
  set { t with bufferPools := t.bufferPools.insert id generation }
  let p ← unwrap (t.pools.lookup generation)
  set { t with
    bufferPools := t.bufferPools.insert id generation
    pools := t.pools.insert generation { p with buffers := p.buffers + 1 } }

def surface (t : Shm) (id : ℕ) : Surface := (t.surfaces.lookup id).getD {}

def attach (object buffer : ℕ) : ShmM Unit := do
  let t ← get
  set { t with
    surfaces := t.surfaces.insert object
      { t.surface object with pending := some (t.bufferPools.lookup buffer) } }

def getSubsurface (id surface parent : ℕ) : ShmM Unit := do
  let t ← get
  if ((t.surfaces.lookup surface).bind Surface.role).isSome ∨ surface ∈ t.up parent then
    fail (.forbidden "get_subsurface on a subsurface or above its parent")
  else
    let t := { t with
      surfaces := t.surfaces.insert surface
        { t.surface surface with role := some id, parent := some parent, sync := true } }
    set { t with
      surfaces := t.surfaces.insert parent
        { t.surface parent with children := (t.surface parent).children ++ [surface] }
      subsurfaces := t.subsurfaces.insert id surface }

def liveSurface (t : Shm) (object : ℕ) : Option ℕ :=
  (t.subsurfaces.lookup object).filter
    (fun s => (t.surfaces.lookup s).any (fun sf => sf.role = some object))

def setSync (object : ℕ) : ShmM Unit := do
  let t ← get
  match t.liveSurface object with
  | none => return
  | some s =>
    let sf ← unwrap (t.surfaces.lookup s)
    set { t with surfaces := t.surfaces.insert s { sf with sync := true } }

def setDesync (object : ℕ) : ShmM Unit := do
  let t ← get
  match t.liveSurface object with
  | none => return
  | some s =>
    let sf ← unwrap (t.surfaces.lookup s)
    let t := { t with surfaces := t.surfaces.insert s { sf with sync := false } }
    set t
    if sf.sync && sf.cached && !t.synced s then apply k s else return

def destroySubsurface (object : ℕ) : ShmM Unit := do
  let t ← get
  let live := t.liveSurface object
  set { t with subsurfaces := t.subsurfaces.erase object }
  match live with
  | none => return
  | some s => detach k s

def deletePool (id : ℕ) : ShmM Unit := do
  let t ← get
  match t.poolIds.lookup id with
  | none => return
  | some generation =>
    set { t with poolIds := t.poolIds.erase id }
    let p ← unwrap (t.pools.lookup generation)
    set { t with
      poolIds := t.poolIds.erase id
      pools := t.pools.insert generation { p with deleted := true } }
    releasePoolIfUnused k generation

def deleteBuffer (id : ℕ) : ShmM Unit := do
  let t ← get
  match t.bufferPools.lookup id with
  | none => return
  | some generation =>
    set { t with bufferPools := t.bufferPools.erase id }
    let p ← unwrap (t.pools.lookup generation)
    let buffers ← checkedSub p.buffers 1
    set { t with
      bufferPools := t.bufferPools.erase id
      pools := t.pools.insert generation { p with buffers := buffers } }
    releasePoolIfUnused k generation

/-- A surface's end ends its subsurfaces' roles too, applying their caches. -/
def deleteSurface (id : ℕ) : ShmM Unit := do
  let t ← get
  match t.surfaces.lookup id with
  | none => return
  | some sf =>
    set { t with surfaces := t.surfaces.erase id }
    sf.children.forM (detach k)
    modify (fun t => t.orphan id sf.parent)
    sf.held.reduceOption.forM (unhold k)

def deleteId (id : ℕ) : ShmM Unit := do
  deletePool k id
  deleteBuffer k id
  deleteSurface k id

end Shm

end Kryptik.Wlproxy
