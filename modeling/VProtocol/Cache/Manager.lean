import Mathlib.Logic.Function.Basic
import VProtocol.Cache.Control

/-!
# The block cache on disk and in memory

`CBlockCacheManager::Open`, `Close` and `ResizeCache`. The control block and the headers of
the caches are mapped files; the rest of a cache is memory. What fails from outside (a file
that is not opened, written or mapped, memory that is not there) is given with each call.
-/

namespace VProtocol.Cache

open Function (update)

/-! ## Files -/

/-- A cache file; its first eight bytes are the `CFileHeader`. -/
structure CacheFile where
  size : Nat := 0
  blockID : UInt64 := 0

/-- `ftruncate`: bytes behind the new end are gone, and new ones are zero. -/
def CacheFile.truncate (f : CacheFile) (size : Nat) : CacheFile :=
  { size := size, blockID := .ofNat (f.blockID.toNat % 256 ^ size) }

/-- What is at the base path. A control file that is too short reads as zeros. -/
structure Disk where
  dir : Bool := false
  caCtrl : Option CaCtrl := none
  cacheFile : Nat → Option CacheFile := fun _ => none

def Disk.setFile (d : Disk) (fileID : Nat) (f : CacheFile) : Disk :=
  { d with cacheFile := update d.cacheFile fileID (some f) }

@[simp] theorem Disk.setFile_dir (d : Disk) (k : Nat) (f : CacheFile) : (d.setFile k f).dir = d.dir := rfl
@[simp] theorem Disk.setFile_caCtrl (d : Disk) (k : Nat) (f : CacheFile) : (d.setFile k f).caCtrl = d.caCtrl := rfl
@[simp] theorem Disk.setFile_self (d : Disk) (k : Nat) (f : CacheFile) : (d.setFile k f).cacheFile k = some f :=
  Function.update_self _ _ _

theorem Disk.setFile_of_ne (d : Disk) {k i : Nat} (f : CacheFile) (h : i ≠ k) :
    (d.setFile k f).cacheFile i = d.cacheFile i := Function.update_of_ne h _ _

theorem Disk.setFile_same {d : Disk} {k : Nat} {f : CacheFile} (h : d.cacheFile k = some f) : d.setFile k f = d := by
  unfold Disk.setFile
  rw [← h, Function.update_eq_self]

@[simp] theorem Disk.setFile_setFile (d : Disk) (k : Nat) (f f' : CacheFile) :
    (d.setFile k f).setFile k f' = d.setFile k f' := by
  unfold Disk.setFile
  rw [Function.update_idem]

/-- What ACE and DSC do: whether a file of this size can be mapped with length 0 (on Windows, for
which the project is built, that maps all of it), and `DSC_ROUND_UP`. Nothing of an empty file can
be mapped. -/
structure Platform where
  mapWhole : Nat → Bool
  roundUp : Nat → Nat → Nat
  mapWhole_zero : mapWhole 0 = false

/-- `ACE_Shared_Memory_MM::open` on a file that is there: the file, and how much of it is mapped. -/
def Platform.shmOpen (p : Platform) (f : CacheFile) (len : Nat) : Option (CacheFile × Nat) :=
  if len = 0 then
    if p.mapWhole f.size then some (f, f.size) else none
  else some (if f.size < len then f.truncate len else f, len)

def defaultCacheFileSize : Nat := 4 * 1024 * 1024
def increaseCacheFileSize : Nat := 1 * 1024 * 1024

/-! ## Memory -/

/-- A pointer to the mapping that is open, or to none that is. -/
inductive MapPtr
  | null
  | current
  | stale
  deriving DecidableEq

def MapPtr.unmap : MapPtr → MapPtr
  | .current => .stale
  | ptr => ptr

/-- `shmCache` is the length of the mapping that is open; `header` is not initialized. -/
structure CCache where
  fileID : Nat := 0
  shmCache : Option Nat := none
  shareMem : MapPtr := .null
  header : MapPtr := .stale
  shareMemLen : Nat := 0
  blockDataLen : Nat := 0
  deriving DecidableEq

def CCache.close (cache : CCache) : CCache :=
  { cache with shmCache := none, shareMem := cache.shareMem.unmap, header := cache.header.unmap }

inductive CacheArray
  | null
  | allocated (caches : List CCache)
  | freed
  deriving DecidableEq

/-- `ctrlMapped` says that `m_pCaCtrl` points to the control block. -/
structure State where
  disk : Disk := {}
  cacheCount : UInt32 := 0
  ctrlMapped : Bool := false
  zCache : CacheArray := .null
  opened : Bool := false

/-! ## Open -/

/-- Which of the calls an `Open` makes succeed. -/
structure OpenEnv where
  mkdir : Bool
  ctrlOpen : Bool
  ctrlWrite : Bool
  cacheOpen : Nat → Bool
  truncate : Nat → Bool
  ctrlMap : Bool
  ctrlMalloc : Bool
  alloc : Bool
  cacheMap : Nat → Bool
  cacheMalloc : Nat → Bool

def OpenEnv.good : OpenEnv :=
  ⟨true, true, true, fun _ => true, fun _ => true, true, true, true, fun _ => true, fun _ => true⟩

def createMmapCfgFile (env : OpenEnv) (d : Disk) (initCfg : CaCtrl) : Disk × Int :=
  if d.dir && env.ctrlOpen then
    if env.ctrlWrite then ({ d with caCtrl := some initCfg }, 0)
    else ({ d with caCtrl := some (d.caCtrl.getD {}) }, -1)
  else (d, -1)

def createCacheFile (env : OpenEnv) (d : Disk) (fileID : Nat) : Disk × Int :=
  if d.dir && env.cacheOpen fileID then
    let f := (d.cacheFile fileID).getD {}
    if env.truncate fileID then (d.setFile fileID (f.truncate defaultCacheFileSize), 0)
    else (d.setFile fileID f, -1)
  else (d, -1)

def createCacheFiles (env : OpenEnv) : List Nat → Disk → Disk × Int
  | [], d => (d, 0)
  | idx :: rest, d =>
    match createCacheFile env d idx with
    | (d, 0) => createCacheFiles env rest d
    | (d, _) => (d, -1)

/-- What `Open` does where the base path is not there. -/
def createFiles (env : OpenEnv) (cacheCount : UInt32) (d : Disk) : Disk × Int :=
  match createMmapCfgFile env { d with dir := env.mkdir } (.initial cacheCount) with
  | (d, 0) => createCacheFiles env (List.range cacheCount.toNat) d
  | (d, _) => (d, -1)

/-- The mapping makes the file where there is none, and makes it long enough. -/
def loadMmapCfgFile (env : OpenEnv) (s : State) : State × Int :=
  if s.disk.dir && env.ctrlMap then
    let s := { s with disk := { s.disk with caCtrl := some (s.disk.caCtrl.getD {}) } }
    if env.ctrlMalloc then ({ s with ctrlMapped := true }, 0) else ({ s with ctrlMapped := false }, -1)
  else (s, -1)

/-- The file of a cache is mapped with the length `m_nShareMemLen`, the way `LoadCacheFile` and
`ResizeCache` do it. -/
def mapCacheFile (p : Platform) (map malloc : Bool) (d : Disk) (f : CacheFile) (cache : CCache) : Disk × CCache × Int :=
  match if map then p.shmOpen f cache.shareMemLen else none with
  | none => (d, cache, -1)
  | some (f, len) =>
    let d := d.setFile cache.fileID f
    if malloc then (d, { cache with shmCache := some len, shareMem := .current, header := .current }, 0)
    else (d, { cache with shmCache := none, shareMem := .null }, -1)

/-- Nothing sets `m_nShareMemLen` from the size of the file. -/
def loadCacheFile (p : Platform) (env : OpenEnv) (d : Disk) (cache : CCache) : Disk × CCache × Int :=
  match d.cacheFile cache.fileID with
  | none => (d, cache, -1)
  | some f => mapCacheFile p (env.cacheMap cache.fileID) (env.cacheMalloc cache.fileID) d f cache

/-- The caches behind one that fails are left as they were allocated. -/
def loadCacheFiles (p : Platform) (env : OpenEnv) : Nat → Disk → List CCache → Disk × List CCache × Int
  | _, d, [] => (d, [], 0)
  | idx, d, cache :: rest =>
    match loadCacheFile p env d { cache with fileID := idx } with
    | (d, cache, 0) =>
      let (d, rest, ret) := loadCacheFiles p env (idx + 1) d rest
      (d, cache :: rest, ret)
    | (d, cache, _) => (d, cache :: rest, -1)

def openCreate (env : OpenEnv) (nCacheCount : UInt32) (d : Disk) : Disk × Int :=
  if d.dir then (d, 0) else createFiles env nCacheCount d

def openLoad (p : Platform) (env : OpenEnv) (nCacheCount : UInt32) (s : State) : State × Int :=
  match loadMmapCfgFile env s with
  | (s, 0) =>
    if env.alloc then
      match loadCacheFiles p env 0 s.disk (List.replicate nCacheCount.toNat {}) with
      | (d, caches, ret) => ({ s with disk := d, zCache := .allocated caches, opened := ret == 0 }, ret)
    else ({ s with zCache := .null }, -1)
  | (s, _) => (s, -1)

/-- `CBlockCacheManager::Open` -/
def openCache (p : Platform) (env : OpenEnv) (nCacheCount : UInt32) (s : State) : State × Int :=
  match openCreate env nCacheCount s.disk with
  | (d, 0) => openLoad p env nCacheCount { s with disk := d, cacheCount := nCacheCount, opened := false }
  | (d, _) => ({ s with disk := d, cacheCount := nCacheCount, opened := false }, -1)

/-! ## Close and ResizeCache -/

inductive Fault
  | outOfRange
  | useAfterFree
  | nullPtr
  | misuse

/-- An array of `allocated` caches is freed as one of `passed`. -/
structure Dealloc where
  allocated : Nat
  passed : Nat

/-- `CBlockCacheManager::Close`. The array pointer is kept, and so is the control pointer. -/
def closeCache (s : State) : Except Fault (State × List Dealloc) :=
  match s.zCache with
  | .null => .ok ({ s with ctrlMapped := false, opened := false }, [])
  | .freed => .error .useAfterFree
  | .allocated caches =>
    if caches.length < s.cacheCount.toNat then .error .outOfRange
    else
      match if s.ctrlMapped then s.disk.caCtrl else none with
      | none => .error .nullPtr
      | some c =>
        .ok ({ s with zCache := .freed, ctrlMapped := false, opened := false }, [⟨caches.length, c.arrayLength.toNat⟩])

structure ResizeEnv where
  fileOpen : Bool
  truncate : Bool
  map : Bool
  malloc : Bool

def resizeCache (p : Platform) (env : ResizeEnv) (d : Disk) (cache : CCache) (nSize : Nat) : Disk × CCache × Int :=
  let cache := { cache with shareMemLen := p.roundUp nSize increaseCacheFileSize }.close
  match if env.fileOpen then d.cacheFile cache.fileID else none with
  | none => (d, cache, -1)
  | some f =>
    if env.truncate then
      let f := f.truncate cache.shareMemLen
      mapCacheFile p env.map env.malloc (d.setFile cache.fileID f) f cache
    else (d, cache, -1)

/-! ## The manager in use -/

/-- A block is written to the rear cache before it is pushed; `resize k` is for the `k`-th cache. -/
inductive Event
  | openCall (nCacheCount : UInt32) (env : OpenEnv)
  | close
  | pushBack (blockID : UInt64) (blockDataLen : Nat)
  | popFront
  | resize (k : Nat) (nSize : Nat) (env : ResizeEnv)

/-- The block is written through the header pointer of the cache, to its file. -/
def fillCache (d : Disk) (cache : CCache) (blockID : UInt64) (blockDataLen : Nat) : Option (Disk × CCache) :=
  match cache.header, d.cacheFile cache.fileID with
  | .current, some f =>
    some (d.setFile cache.fileID { f with blockID := blockID }, { cache with blockDataLen := blockDataLen })
  | _, _ => none

def pushBlock (s : State) (c : CaCtrl) (caches : List CCache) (blockID : UInt64) (blockDataLen : Nat) :
    Except Fault (State × List Dealloc) :=
  match caches[c.getRearCache]? with
  | none => .error .outOfRange
  | some cache =>
    match fillCache s.disk cache blockID blockDataLen with
    | none => .error .nullPtr
    | some (d, cache) => .ok ({ s with
        disk := { d with caCtrl := some c.pushBack }
        zCache := .allocated (caches.set c.getRearCache cache) }, [])

/-- The caches are used after an `Open` that returned 0. -/
def State.use (s : State) (f : CaCtrl → List CCache → Except Fault (State × List Dealloc)) :
    Except Fault (State × List Dealloc) :=
  match s.opened, s.disk.caCtrl, s.zCache with
  | true, some c, .allocated caches => f c caches
  | _, _, _ => .error .misuse

def resizeBlock (p : Platform) (env : ResizeEnv) (s : State) (caches : List CCache) (k nSize : Nat) :
    Except Fault (State × List Dealloc) :=
  match caches[k]? with
  | none => .error .outOfRange
  | some cache =>
    match resizeCache p env s.disk cache nSize with
    | (d, cache, _) => .ok ({ s with disk := d, zCache := .allocated (caches.set k cache) }, [])

/-- A push or a pop is made by the rules the header states, only where there is room or a block. -/
def step (p : Platform) (s : State) : Event → Except Fault (State × List Dealloc)
  | .openCall nCacheCount env => .ok ((openCache p env nCacheCount s).1, [])
  | .close => closeCache s
  | .pushBack blockID blockDataLen => s.use fun c caches =>
    if c.isFull then .error .misuse else pushBlock s c caches blockID blockDataLen
  | .popFront => s.use fun c _ =>
    if c.isEmpty then .error .misuse else .ok ({ s with disk := { s.disk with caCtrl := some c.popFront } }, [])
  | .resize k nSize env => s.use fun _ caches => resizeBlock p env s caches k nSize

end VProtocol.Cache
