import VProtocol.Cache.Manager

/-!
# Opening the block cache over and over

Creation is skipped where the base path is there. So an `Open` finds what the one that made
the path left, complete or not and for its own count of caches.
-/

namespace VProtocol.Cache

open Function (update)

/-! ## The property -/

/-- The control block is for as many caches as there are, and its indices are below. -/
def Consistent (s : State) : Prop :=
  ∃ c caches, s.disk.caCtrl = some c ∧ s.zCache = .allocated caches ∧ s.ctrlMapped = true ∧
    c.arrayLength = s.cacheCount ∧ caches.length = s.cacheCount.toNat ∧
    c.frontIndex < s.cacheCount ∧ c.rearIndex < s.cacheCount

def AllLoaded (s : State) : Prop :=
  ∀ caches, s.zCache = .allocated caches → ∀ cache ∈ caches, cache.shareMem = .current

/-- An `Open` that succeeds is right; one that fails is so when it is made once more, with
nothing to stop it. -/
def OpenRight (p : Platform) (nCacheCount : UInt32) (r : State × Int) : Prop :=
  let last := if r.2 = 0 then r else openCache p .good nCacheCount r.1
  last.2 = 0 ∧ Consistent last.1 ∧ AllLoaded last.1

def Right (p : Platform) (s : State) : Event → Prop
  | .openCall nCacheCount env => OpenRight p nCacheCount (openCache p env nCacheCount s)
  | .close => ∃ s' freed, closeCache s = .ok (s', freed) ∧ ∀ d ∈ freed, d.passed = d.allocated
  | _ => True

/-- All files are made that the base path needs for `n` caches. -/
def OpenEnv.Makes (env : OpenEnv) (n : Nat) : Prop :=
  env.ctrlOpen = true ∧ env.ctrlWrite = true ∧ ∀ k < n, env.cacheOpen k = true ∧ env.truncate k = true

def CacheArray.isAllocated : CacheArray → Bool
  | .allocated _ => true
  | _ => false

/-- The path is made for one count of caches, which every `Open` asks for, and it is made as a
whole or not at all. -/
def OpenSafe (p : Platform) (nCacheCount : UInt32) (env : OpenEnv) (d : Disk) : Prop :=
  if d.dir then d.caCtrl.map (·.arrayLength) = some nCacheCount
  else nCacheCount ≠ 0 ∧ p.mapWhole defaultCacheFileSize = true ∧ (env.mkdir = true → env.Makes nCacheCount.toNat)

/-- The array is not freed twice, nor without the control block, and no file of a cache becomes
one that cannot be mapped. -/
def Safe (p : Platform) (s : State) : Event → Prop
  | .openCall nCacheCount env => OpenSafe p nCacheCount env s.disk
  | .close => s.zCache ≠ .freed ∧ (s.zCache.isAllocated = true → s.ctrlMapped = true)
  | .resize _ nSize _ => p.mapWhole (p.roundUp nSize increaseCacheFileSize) = true
  | _ => True

def Event.isCall : Event → Bool
  | .openCall _ _ => true
  | .close => true
  | _ => false

instance (env : OpenEnv) (n : Nat) : Decidable (env.Makes n) := by
  delta OpenEnv.Makes; infer_instance

instance (p : Platform) (n : UInt32) (env : OpenEnv) (d : Disk) : Decidable (OpenSafe p n env d) := by
  delta OpenSafe; infer_instance

instance (p : Platform) (s : State) (e : Event) : Decidable (Safe p s e) := by
  cases e <;> (unfold Safe; infer_instance)

/-! ## What is on the disk -/

def Mappable (p : Platform) (d : Disk) (k : Nat) : Prop :=
  ∃ f, d.cacheFile k = some f ∧ p.mapWhole f.size = true

structure DiskInv (p : Platform) (d : Disk) : Prop where
  absent : d.dir = false → d = {}
  present : d.dir = true → ∃ c, d.caCtrl = some c ∧ 0 < c.arrayLength ∧ (∃ a b t, Tickets c.arrayLength a b c t) ∧
    (∀ k < c.arrayLength.toNat, Mappable p d k) ∧ ∀ k, c.arrayLength.toNat ≤ k → d.cacheFile k = none

/-- `LoadCacheFile` succeeds. -/
def LoadsAt (p : Platform) (env : OpenEnv) (d : Disk) (k : Nat) : Prop :=
  Mappable p d k ∧ env.cacheMap k = true ∧ env.cacheMalloc k = true

/-- What the path holds after it was made as a whole. -/
structure Created (n : UInt32) (d : Disk) : Prop where
  dir : d.dir = true
  caCtrl : d.caCtrl = some (.initial n)
  made : ∀ k < n.toNat, ∃ f, d.cacheFile k = some f ∧ f.size = defaultCacheFileSize
  rest : ∀ k, n.toNat ≤ k → d.cacheFile k = none

def CCache.loaded (k : Nat) (f : CacheFile) : CCache :=
  { fileID := k, shmCache := some f.size, shareMem := .current, header := .current }

section
variable {p : Platform} {env : OpenEnv} {d d' : Disk} {s s' : State} {n : UInt32} {k : Nat} {l : List Nat}

theorem toNat_pos (hn : n ≠ 0) : 0 < n.toNat := Nat.pos_of_ne_zero fun h0 => hn (UInt32.toNat_inj.mp h0)

/-! ## Creating the files -/

theorem createCacheFile_ok (hdir : d.dir = true) (hopen : env.cacheOpen k = true) (htrunc : env.truncate k = true) :
    createCacheFile env d k = (d.setFile k (((d.cacheFile k).getD {}).truncate defaultCacheFileSize), 0) := by
  unfold createCacheFile
  simp [hdir, hopen, htrunc]

theorem createCacheFiles_ok (hdir : d.dir = true) (h : ∀ k ∈ l, env.cacheOpen k = true ∧ env.truncate k = true) :
    ∃ d', createCacheFiles env l d = (d', 0) ∧ d'.dir = true ∧ d'.caCtrl = d.caCtrl ∧
      (∀ k ∈ l, ∃ f, d'.cacheFile k = some f ∧ f.size = defaultCacheFileSize) ∧
      ∀ k ∉ l, d'.cacheFile k = d.cacheFile k := by
  induction l generalizing d with
  | nil => exact ⟨d, rfl, hdir, rfl, List.forall_mem_nil _, fun _ _ => rfl⟩
  | cons idx rest ih =>
    obtain ⟨⟨hopen, htrunc⟩, hrest⟩ := List.forall_mem_cons.mp h
    unfold createCacheFiles
    rw [createCacheFile_ok hdir hopen htrunc]
    obtain ⟨d', hd', hdir', hctrl, hmade, hother⟩ :=
      ih (d := d.setFile idx (((d.cacheFile idx).getD {}).truncate defaultCacheFileSize)) hdir hrest
    refine ⟨d', hd', hdir', hctrl, List.forall_mem_cons.mpr ⟨?_, hmade⟩, fun k hk => ?_⟩
    · by_cases hin : idx ∈ rest
      · exact hmade idx hin
      · rw [hother idx hin, Disk.setFile_self]
        exact ⟨_, rfl, rfl⟩
    · rw [List.mem_cons, not_or] at hk
      rw [hother k hk.2, Disk.setFile_of_ne _ _ hk.1]

theorem not_mappable (hnone : d.cacheFile k = none) : ¬Mappable p d k := by
  rintro ⟨f, hf, -⟩
  rw [hnone] at hf
  cases hf

theorem createCacheFile_fails (hdir : d.dir = true) (hnone : d.cacheFile k = none)
    (h : ¬(env.cacheOpen k = true ∧ env.truncate k = true)) :
    ∃ d', createCacheFile env d k = (d', -1) ∧ d'.dir = true ∧ ¬Mappable p d' k := by
  unfold createCacheFile
  by_cases hopen : env.cacheOpen k = true
  · have htrunc : env.truncate k = false := by
      rw [← Bool.not_eq_true]
      exact fun ht => h ⟨hopen, ht⟩
    -- the file is there, and empty
    refine ⟨d.setFile k {}, by simp [hdir, hopen, htrunc, hnone], hdir, ?_⟩
    rintro ⟨f, hf, hmap⟩
    rw [Disk.setFile_self, Option.some.injEq] at hf
    rw [← hf] at hmap
    exact Bool.false_ne_true (p.mapWhole_zero.symm.trans hmap)
  · exact ⟨d, by simp [hopen], hdir, not_mappable hnone⟩

theorem createCacheFiles_fails (hdir : d.dir = true) (hl : l.Nodup) (hnone : ∀ k ∈ l, d.cacheFile k = none)
    (h : ¬∀ k ∈ l, env.cacheOpen k = true ∧ env.truncate k = true) :
    ∃ d', createCacheFiles env l d = (d', -1) ∧ d'.dir = true ∧ ∃ k ∈ l, ¬Mappable p d' k := by
  induction l generalizing d with
  | nil => exact absurd (List.forall_mem_nil _) h
  | cons idx rest ih =>
    obtain ⟨hidx, hrest⟩ := List.nodup_cons.mp hl
    obtain ⟨hnone₁, hnone₂⟩ := List.forall_mem_cons.mp hnone
    unfold createCacheFiles
    by_cases hok : env.cacheOpen idx = true ∧ env.truncate idx = true
    · rw [createCacheFile_ok hdir hok.1 hok.2]
      have hfail : ¬∀ k ∈ rest, env.cacheOpen k = true ∧ env.truncate k = true :=
        fun hall => h (List.forall_mem_cons.mpr ⟨hok, hall⟩)
      have hfree : ∀ k ∈ rest, (d.setFile idx (((d.cacheFile idx).getD {}).truncate defaultCacheFileSize)).cacheFile k
          = none := by
        intro k hk
        have hne : k ≠ idx := by
          rintro rfl
          exact hidx hk
        rw [Disk.setFile_of_ne _ _ hne]
        exact hnone₂ k hk
      obtain ⟨d', hd', hdir', k, hk, hmap⟩ :=
        ih (d := d.setFile idx (((d.cacheFile idx).getD {}).truncate defaultCacheFileSize)) hdir hrest hfree hfail
      exact ⟨d', hd', hdir', k, List.mem_cons_of_mem _ hk, hmap⟩
    · obtain ⟨d', hd', hdir', hmap⟩ := createCacheFile_fails (p := p) hdir hnone₁ hok
      rw [hd']
      exact ⟨d', rfl, hdir', idx, List.mem_cons_self, hmap⟩

theorem createFiles_makes (hmkdir : env.mkdir = true) (h : env.Makes n.toNat) :
    ∃ d', createFiles env n {} = (d', 0) ∧ Created n d' := by
  obtain ⟨hopen, hwrite, hfiles⟩ := h
  obtain ⟨d', hd', hdir, hctrl, hmade, hother⟩ := createCacheFiles_ok (l := List.range n.toNat)
    (d := { dir := true, caCtrl := some (.initial n) }) rfl (fun k hk => hfiles k (List.mem_range.mp hk))
  refine ⟨d', ?_, hdir, hctrl, fun k hk => hmade k (List.mem_range.mpr hk), fun k hk => hother k (by simpa using hk)⟩
  unfold createFiles createMmapCfgFile
  simp only [hmkdir, hopen, hwrite, Bool.and_self, if_true]
  exact hd'

theorem createFiles_good (n : UInt32) : ∃ d', createFiles .good n {} = (d', 0) ∧ Created n d' :=
  createFiles_makes rfl ⟨rfl, rfl, fun _ _ => ⟨rfl, rfl⟩⟩

theorem createFiles_fails (hmkdir : env.mkdir = true) (hn : n ≠ 0) (h : ¬env.Makes n.toNat) :
    ∃ d', createFiles env n {} = (d', -1) ∧ d'.dir = true ∧ ∃ k < n.toNat, ¬Mappable p d' k := by
  have hpos := toNat_pos hn
  unfold createFiles createMmapCfgFile
  cases hopen : env.ctrlOpen with
  | false => exact ⟨{ dir := true }, by simp [hmkdir], rfl, 0, hpos, not_mappable rfl⟩
  | true =>
    cases hwrite : env.ctrlWrite with
    | false => exact ⟨{ dir := true, caCtrl := some {} }, by simp [hmkdir], rfl, 0, hpos, not_mappable rfl⟩
    | true =>
      have hfail : ¬∀ k ∈ List.range n.toNat, env.cacheOpen k = true ∧ env.truncate k = true :=
        fun hall => h ⟨hopen, hwrite, fun k hk => hall k (List.mem_range.mpr hk)⟩
      obtain ⟨d', hd', hdir', k, hk, hmap⟩ := createCacheFiles_fails (p := p)
        (d := { dir := true, caCtrl := some (.initial n) }) rfl List.nodup_range (fun _ _ => rfl) hfail
      refine ⟨d', ?_, hdir', k, List.mem_range.mp hk, hmap⟩
      simp only [hmkdir, Bool.and_self, if_true]
      exact hd'

theorem createFiles_absent (hmkdir : env.mkdir = false) : createFiles env n {} = ({}, -1) := by
  unfold createFiles createMmapCfgFile
  simp [hmkdir]

/-! ## Loading the files -/

theorem shmOpen_zero (p : Platform) (f : CacheFile) :
    p.shmOpen f 0 = if p.mapWhole f.size then some (f, f.size) else none := rfl

theorem shmOpen_file {f g : CacheFile} {len l : Nat} (hle : len ≤ f.size) (h : p.shmOpen f len = some (g, l)) :
    g = f := by
  unfold Platform.shmOpen at h
  split at h
  · split at h
    · cases h
      rfl
    · cases h
  · rw [if_neg (Nat.not_lt.mpr hle)] at h
    cases h
    rfl

theorem mapCacheFile_disk {map malloc : Bool} {f : CacheFile} {cache : CCache} (hf : d.cacheFile cache.fileID = some f)
    (hle : cache.shareMemLen ≤ f.size) : (mapCacheFile p map malloc d f cache).1 = d := by
  unfold mapCacheFile
  split
  · rfl
  · rename_i g len hg
    have hg : g = f := by
      cases map with
      | true => exact shmOpen_file hle hg
      | false => cases hg
    rw [hg, Disk.setFile_same hf]
    cases malloc with
    | true => rfl
    | false => rfl

theorem loadCacheFile_ok (h : LoadsAt p env d k) :
    ∃ f, d.cacheFile k = some f ∧ loadCacheFile p env d { fileID := k } = (d, .loaded k f, 0) := by
  obtain ⟨⟨f, hf, hmap⟩, hopen, hmalloc⟩ := h
  refine ⟨f, hf, ?_⟩
  unfold loadCacheFile mapCacheFile
  simp [hf, hopen, shmOpen_zero, hmap, hmalloc, Disk.setFile_same hf, CCache.loaded]

theorem loadCacheFile_fails (h : ¬LoadsAt p env d k) :
    ∃ cache, loadCacheFile p env d { fileID := k } = (d, cache, -1) := by
  unfold loadCacheFile
  cases hf : d.cacheFile k with
  | none => exact ⟨_, rfl⟩
  | some f =>
    refine ⟨{ fileID := k }, ?_⟩
    unfold mapCacheFile
    simp only [shmOpen_zero]
    cases hopen : env.cacheMap k with
    | false => rfl
    | true =>
      cases hmap : p.mapWhole f.size with
      | false => rfl
      | true =>
        have hmalloc : env.cacheMalloc k = false := by
          rw [← Bool.not_eq_true]
          exact fun hm => h ⟨⟨f, hf, hmap⟩, hopen, hm⟩
        simp [hmalloc, Disk.setFile_same hf]

theorem loadCacheFiles_spec (p : Platform) (env : OpenEnv) (d : Disk) (m idx : Nat) :
    ∃ caches ret, loadCacheFiles p env idx d (List.replicate m {}) = (d, caches, ret) ∧ caches.length = m ∧
      (ret = 0 ↔ ∀ i < m, LoadsAt p env d (idx + i)) ∧
      (ret = 0 → ∀ i < m, ∃ f, d.cacheFile (idx + i) = some f ∧ caches[i]? = some (.loaded (idx + i) f)) := by
  induction m generalizing idx with
  | zero => exact ⟨[], 0, rfl, rfl, by simp, by simp⟩
  | succ m ih =>
    rw [List.replicate_succ]
    unfold loadCacheFiles
    by_cases hidx : LoadsAt p env d idx
    · obtain ⟨f, hf, hload⟩ := loadCacheFile_ok hidx
      obtain ⟨caches, ret, hrest, hlen, hret, hloaded⟩ := ih (idx + 1)
      refine ⟨.loaded idx f :: caches, ret, by simp [hload, hrest], by simp [hlen], ?_, fun h0 i hi => ?_⟩
      · rw [hret, Nat.forall_lt_succ_left]
        simp [hidx, Nat.add_comm, Nat.add_left_comm]
      · cases i with
        | zero => exact ⟨f, hf, rfl⟩
        | succ i =>
          have := hloaded h0 i (by omega)
          rwa [Nat.add_right_comm] at this
    · obtain ⟨cache, hload⟩ := loadCacheFile_fails hidx
      refine ⟨cache :: List.replicate m {}, -1, by simp [hload], by simp, ?_, by simp⟩
      exact ⟨fun h => by simp at h, fun h => absurd (h 0 (Nat.succ_pos m)) hidx⟩

/-! ## Open -/

def withCtrl (s : State) : State := { s with disk := { s.disk with caCtrl := some (s.disk.caCtrl.getD {}) } }

theorem withCtrl_eq {c : CaCtrl} (hc : s.disk.caCtrl = some c) : withCtrl s = s := by
  unfold withCtrl
  rw [hc, Option.getD_some, ← hc]

theorem loadMmapCfgFile_eq (hdir : s.disk.dir = true) : loadMmapCfgFile env s =
    if env.ctrlMap then
      if env.ctrlMalloc then ({ withCtrl s with ctrlMapped := true }, 0) else ({ withCtrl s with ctrlMapped := false }, -1)
    else (s, -1) := by
  unfold loadMmapCfgFile withCtrl
  rw [hdir, Bool.true_and]

/-- How far an `Open` of a path that is there gets. -/
theorem openLoad_cases (p : Platform) (env : OpenEnv) (n : UInt32) (hdir : s.disk.dir = true) :
    openLoad p env n s = (s, -1) ∨
    openLoad p env n s = ({ withCtrl s with ctrlMapped := false }, -1) ∨
    openLoad p env n s = ({ withCtrl s with ctrlMapped := true, zCache := .null }, -1) ∨
    ∃ caches ret, openLoad p env n s =
        ({ withCtrl s with ctrlMapped := true, zCache := .allocated caches, opened := ret == 0 }, ret) ∧
      caches.length = n.toNat ∧ (ret = 0 ↔ ∀ i < n.toNat, LoadsAt p env s.disk i) ∧
      (ret = 0 → ∀ i < n.toNat, ∃ f, s.disk.cacheFile i = some f ∧ caches[i]? = some (.loaded i f)) := by
  unfold openLoad
  rw [loadMmapCfgFile_eq hdir]
  cases hmap : env.ctrlMap with
  | false => exact .inl (by simp)
  | true =>
    cases hmalloc : env.ctrlMalloc with
    | false => exact .inr (.inl (by simp))
    | true =>
      cases halloc : env.alloc with
      | false => exact .inr (.inr (.inl (by simp)))
      | true =>
        obtain ⟨caches, ret, hload, hlen, hret, hloaded⟩ := loadCacheFiles_spec p env (withCtrl s).disk n.toNat 0
        simp only [Nat.zero_add] at hret hloaded
        exact .inr (.inr (.inr ⟨caches, ret, by simp [hload], hlen, hret, hloaded⟩))

theorem openCache_present (hdir : s.disk.dir = true) :
    openCache p env n s = openLoad p env n { s with cacheCount := n, opened := false } := by
  unfold openCache openCreate
  simp [hdir]

theorem openCache_good (hdir : s.disk.dir = true) :
    (openCache p .good n s).2 = 0 ↔ ∀ k < n.toNat, Mappable p s.disk k := by
  rw [openCache_present hdir]
  let s₀ : State := { s with cacheCount := n, opened := false }
  have hgood : ∀ k, LoadsAt p .good s.disk k ↔ Mappable p s.disk k :=
    fun k => ⟨fun h => h.1, fun h => ⟨h, rfl, rfl⟩⟩
  obtain ⟨caches, ret, hload, -, hret, -⟩ := loadCacheFiles_spec p .good (withCtrl s₀).disk n.toNat 0
  simp only [Nat.zero_add] at hret
  have heq : (openLoad p .good n s₀).2 = ret := by
    unfold openLoad
    rw [loadMmapCfgFile_eq (s := s₀) hdir]
    simp [OpenEnv.good] at hload ⊢
    simp [hload]
  rw [heq, hret]
  exact forall_congr' fun k => imp_congr_right fun _ => hgood k

/-- What an `Open` of a path that is there leaves, whether it succeeds or not. -/
structure Reopened (p : Platform) (env : OpenEnv) (s : State) (n : UInt32) (r : State × Int) : Prop where
  disk : r.1.disk = s.disk
  cacheCount : r.1.cacheCount = n
  opened : r.1.opened = (r.2 == 0)
  array : r.1.zCache = s.zCache ∨ r.1.zCache = .null ∨ ∃ caches, r.1.zCache = .allocated caches ∧ caches.length = n.toNat
  loaded : r.2 = 0 → r.1.ctrlMapped = true ∧ ∃ caches, r.1.zCache = .allocated caches ∧ caches.length = n.toNat ∧
    ∀ i < n.toNat, ∃ f, s.disk.cacheFile i = some f ∧ p.mapWhole f.size = true ∧ caches[i]? = some (.loaded i f)

theorem openCache_reopened (p : Platform) (env : OpenEnv) (n : UInt32) {c : CaCtrl} (hdir : s.disk.dir = true)
    (hc : s.disk.caCtrl = some c) : Reopened p env s n (openCache p env n s) := by
  rw [openCache_present hdir]
  let s₀ : State := { s with cacheCount := n, opened := false }
  have hw : withCtrl s₀ = s₀ := withCtrl_eq hc
  rcases openLoad_cases p env n (s := s₀) hdir with h | h | h | ⟨caches, ret, h, hlen, hret, hloaded⟩
  · rw [h]
    exact ⟨rfl, rfl, rfl, .inl rfl, by simp⟩
  · rw [h, hw]
    exact ⟨rfl, rfl, rfl, .inl rfl, by simp⟩
  · rw [h, hw]
    exact ⟨rfl, rfl, rfl, .inr (.inl rfl), by simp⟩
  · rw [h, hw]
    refine ⟨rfl, rfl, rfl, .inr (.inr ⟨caches, rfl, hlen⟩), fun h0 => ⟨rfl, caches, rfl, hlen, fun i hi => ?_⟩⟩
    obtain ⟨f, hf, hcache⟩ := hloaded h0 i hi
    obtain ⟨⟨f', hf', hmap⟩, -⟩ := hret.mp h0 i hi
    obtain rfl := Option.some.inj (hf.symm.trans hf')
    exact ⟨f, hf, hmap, hcache⟩

theorem openCache_cacheCount : (openCache p env n s).1.cacheCount = n := by
  unfold openCache
  generalize openCreate env n s.disk = r
  obtain ⟨d, ret⟩ := r
  split
  · rename_i heq
    obtain ⟨rfl, rfl⟩ := Prod.mk.inj heq
    by_cases hdir : d.dir = true
    · rcases openLoad_cases p env n (s := { s with disk := d, cacheCount := n, opened := false }) hdir with
        h | h | h | ⟨caches, ret, h, -⟩
      all_goals rw [h]
      all_goals rfl
    · simp [openLoad, loadMmapCfgFile, hdir]
  · rfl

theorem openCache_created (hd : s.disk = {}) (hcreate : createFiles env n {} = (d', 0)) (hdir : d'.dir = true) :
    openCache p env n s = openCache p env n { s with disk := d' } := by
  rw [openCache_present (s := { s with disk := d' }) hdir]
  unfold openCache openCreate
  simp [hd, hcreate]

theorem openCache_notCreated {ret : Int} (hd : s.disk = {}) (hcreate : createFiles env n {} = (d', ret)) (hret : ret ≠ 0) :
    openCache p env n s = ({ s with disk := d', cacheCount := n, opened := false }, -1) := by
  unfold openCache openCreate
  simp only [hd, Bool.false_eq_true, if_false, hcreate]

/-! ## Keeping the count -/

structure Inv (p : Platform) (s : State) : Prop where
  disk : DiskInv p s.disk
  array : ∀ caches, s.zCache = .allocated caches → s.disk.dir = true ∧
    ∃ c, s.disk.caCtrl = some c ∧ caches.length = c.arrayLength.toNat ∧ s.cacheCount = c.arrayLength
  opened : s.opened = true → s.ctrlMapped = true ∧ ∃ caches, s.zCache = .allocated caches

theorem Tickets.indices {L : UInt32} {a b : Nat} {c : CaCtrl} {t : Trail} (hL : 0 < L) (h : Tickets L a b c t) :
    c.frontIndex < L ∧ c.rearIndex < L := by
  have hpos : 0 < L.toNat := hL
  rw [UInt32.lt_iff_toNat_lt, UInt32.lt_iff_toNat_lt, h.frontIndex, h.rearIndex]
  exact ⟨Ring.slot_lt hpos, Ring.slot_lt hpos⟩

theorem Created.diskInv (hd : Created n d) (hn : n ≠ 0) (hmap : p.mapWhole defaultCacheFileSize = true) :
    DiskInv p d := by
  refine ⟨fun h => by simp [hd.dir] at h, fun _ => ⟨_, hd.caCtrl, ?_, ⟨0, 0, {}, tickets_initial n⟩, fun k hk => ?_, hd.rest⟩⟩
  · exact toNat_pos hn
  · obtain ⟨f, hf, hsize⟩ := hd.made k hk
    exact ⟨f, hf, by rw [hsize, hmap]⟩

theorem Reopened.consistent {c : CaCtrl} {r : State × Int} (hr : Reopened p env s n r) (hc : s.disk.caCtrl = some c)
    (hpos : 0 < c.arrayLength) (ht : ∃ a b t, Tickets c.arrayLength a b c t) (hret : r.2 = 0)
    (hn : c.arrayLength = n) : Consistent r.1 ∧ AllLoaded r.1 := by
  obtain ⟨a, b, t, ht⟩ := ht
  obtain ⟨hmapped, caches, hz, hlen, hloaded⟩ := hr.loaded hret
  obtain ⟨hfront, hrear⟩ := ht.indices hpos
  refine ⟨⟨c, caches, by rw [hr.disk, hc], hz, hmapped, ?_, ?_, ?_, ?_⟩, ?_⟩
  · rw [hr.cacheCount, hn]
  · rw [hr.cacheCount, hlen]
  · rw [hr.cacheCount, ← hn]
    exact hfront
  · rw [hr.cacheCount, ← hn]
    exact hrear
  · intro caches' hz' cache hcache
    obtain rfl := CacheArray.allocated.inj (hz.symm.trans hz')
    obtain ⟨i, hi, rfl⟩ := List.getElem_of_mem hcache
    obtain ⟨f, -, -, hi'⟩ := hloaded i (hlen ▸ hi)
    rw [List.getElem?_eq_getElem hi, Option.some.injEq] at hi'
    rw [hi']
    rfl

theorem Consistent.count {t : State} {c : CaCtrl} (ht : Consistent t) (hc : t.disk.caCtrl = some c) :
    c.arrayLength = t.cacheCount := by
  obtain ⟨c', -, hc', -, -, heq, -⟩ := ht
  obtain rfl := Option.some.inj (hc.symm.trans hc')
  exact heq

theorem Consistent.ne_zero {t : State} (ht : Consistent t) : t.cacheCount ≠ 0 := by
  obtain ⟨c, _, _, _, _, _, _, hfront, _⟩ := ht
  intro h0
  rw [h0] at hfront
  exact absurd hfront (Nat.not_lt_zero _)

theorem openRight_present (hd : DiskInv p s.disk) (hdir : s.disk.dir = true) :
    OpenRight p n (openCache p env n s) ↔ s.disk.caCtrl.map (·.arrayLength) = some n := by
  obtain ⟨c, hc, hpos, ht, hfiles, -⟩ := hd.present hdir
  have hr := openCache_reopened p env n hdir hc
  have hdir' : (openCache p env n s).1.disk.dir = true := by rw [hr.disk, hdir]
  have hc' : (openCache p env n s).1.disk.caCtrl = some c := by rw [hr.disk, hc]
  have hr' := openCache_reopened p .good n hdir' hc'
  rw [hc, Option.map_some, Option.some.injEq]
  unfold OpenRight
  split
  · rename_i hret
    constructor
    · intro ⟨_, hcons, _⟩
      have := hcons.count hc'
      rwa [hr.cacheCount] at this
    · intro hn
      exact ⟨hret, hr.consistent hc hpos ht hret hn⟩
  · constructor
    · intro ⟨_, hcons, _⟩
      have := hcons.count (hr'.disk ▸ hc')
      rwa [hr'.cacheCount] at this
    · intro hn
      have hret : (openCache p .good n (openCache p env n s).1).2 = 0 := by
        rw [openCache_good hdir', hr.disk, ← hn]
        exact hfiles
      exact ⟨hret, hr'.consistent hc' hpos ht hret hn⟩

theorem OpenRight.ne_zero (h : OpenRight p n (openCache p env n s)) : n ≠ 0 := by
  have hcons := h.2.1.ne_zero
  split at hcons
  · rwa [openCache_cacheCount] at hcons
  · rwa [openCache_cacheCount] at hcons

/-! ## An `Open` that makes the path -/

theorem Created.mapWhole (hd : Created n d) (hn : n ≠ 0) (h : ∀ k < n.toNat, Mappable p d k) :
    p.mapWhole defaultCacheFileSize = true := by
  obtain ⟨f, hf, hsize⟩ := hd.made 0 (toNat_pos hn)
  obtain ⟨f', hf', hok⟩ := h 0 (toNat_pos hn)
  obtain rfl := Option.some.inj (hf.symm.trans hf')
  rwa [← hsize]

/-- The path was made as a whole; what fails after that is made good by the next `Open`. -/
theorem openRight_created (hn : n ≠ 0) (hd : s.disk = {}) (hcreate : createFiles env n {} = (d', 0)) (hd' : Created n d') :
    OpenRight p n (openCache p env n s) ↔ p.mapWhole defaultCacheFileSize = true := by
  rw [openCache_created hd hcreate hd'.dir]
  constructor
  · intro h
    have hr := openCache_reopened p env n (s := { s with disk := d' }) hd'.dir hd'.caCtrl
    apply hd'.mapWhole hn
    unfold OpenRight at h
    split at h
    · obtain ⟨-, caches, -, -, hloaded⟩ := hr.loaded h.1
      intro k hk
      obtain ⟨f, hf, hmap, -⟩ := hloaded k hk
      exact ⟨f, hf, hmap⟩
    · have hretry := h.1
      rwa [openCache_good (by rw [hr.disk]; exact hd'.dir), hr.disk] at hretry
  · intro hmap
    rw [openRight_present (hd'.diskInv hn hmap) hd'.dir, hd'.caCtrl]
    rfl

theorem openRight_untouched (hn : n ≠ 0) (hd : s.disk = {}) :
    OpenRight p n (s, -1) ↔ p.mapWhole defaultCacheFileSize = true := by
  obtain ⟨d', hcreate, hd'⟩ := createFiles_good n
  rw [← openRight_created hn hd hcreate hd']
  unfold OpenRight
  rw [if_neg (show (-1 : Int) ≠ 0 by decide)]
  split
  · rfl
  · rename_i hret
    have hr := openCache_reopened p .good n (s := { s with disk := d' }) hd'.dir hd'.caCtrl
    rw [openCache_created hd hcreate hd'.dir] at hret ⊢
    -- with nothing to stop it the second attempt does what the first did
    have hsame : (openCache p .good n (openCache p .good n { s with disk := d' }).1).2 = 0 ↔
        (openCache p .good n { s with disk := d' }).2 = 0 := by
      rw [openCache_good (by rw [hr.disk]; exact hd'.dir), openCache_good hd'.dir, hr.disk]
    exact ⟨fun h => absurd h.1 hret, fun h => absurd (hsame.mp h.1) hret⟩

theorem openRight_broken (hdir : d'.dir = true) (h : ∃ k < n.toNat, ¬Mappable p d' k) :
    ¬OpenRight p n ({ s with disk := d', cacheCount := n, opened := false }, -1) := by
  intro hright
  obtain ⟨k, hk, hmap⟩ := h
  have hretry := hright.1
  rw [if_neg (show (-1 : Int) ≠ 0 by decide), openCache_good hdir] at hretry
  exact hmap (hretry k hk)

theorem openRight_absent (hd : s.disk = {}) : OpenRight p n (openCache p env n s) ↔
    n ≠ 0 ∧ p.mapWhole defaultCacheFileSize = true ∧ (env.mkdir = true → env.Makes n.toNat) := by
  by_cases hn : n = 0
  · exact ⟨fun h => absurd hn h.ne_zero, fun h => absurd hn h.1⟩
  cases hmkdir : env.mkdir with
  | false =>
    rw [openCache_notCreated hd (createFiles_absent hmkdir) (by decide), openRight_untouched hn rfl]
    simp [hn]
  | true =>
    by_cases hmakes : env.Makes n.toNat
    · obtain ⟨d', hcreate, hd'⟩ := createFiles_makes hmkdir hmakes
      rw [openRight_created hn hd hcreate hd']
      simp [hn, hmakes]
    · obtain ⟨d', hcreate, hdir, hbroken⟩ := createFiles_fails (p := p) hmkdir hn hmakes
      rw [openCache_notCreated hd hcreate (by decide)]
      exact ⟨fun h => absurd h (openRight_broken hdir hbroken), fun h => absurd (h.2.2 rfl) hmakes⟩

/-! ## Close -/

theorem closeRight_iff (hi : Inv p s) : Right p s .close ↔ Safe p s .close := by
  unfold Right Safe closeCache
  cases hz : s.zCache with
  | null => simp [CacheArray.isAllocated]
  | freed => simp
  | allocated caches =>
    obtain ⟨-, c, hc, hlen, hcount⟩ := hi.array caches hz
    simp only [hlen, hcount, Nat.lt_irrefl, if_false, hc]
    cases hm : s.ctrlMapped with
    | true => simp [CacheArray.isAllocated]
    | false => simp [CacheArray.isAllocated]

/-! ## Runs -/

theorem inv_init (p : Platform) : Inv p {} :=
  ⟨⟨fun _ => rfl, fun h => by simp at h⟩, fun _ h => by simp at h, fun h => by simp at h⟩

theorem inv_reopened (hd : DiskInv p s.disk) (hdir : s.disk.dir = true)
    (hcount : s.disk.caCtrl.map (·.arrayLength) = some n)
    (harray : ∀ caches, s.zCache = .allocated caches → caches.length = n.toNat) : Inv p (openCache p env n s).1 := by
  obtain ⟨c, hc, hn⟩ := Option.map_eq_some_iff.mp hcount
  have hr := openCache_reopened p env n hdir hc
  refine ⟨by rwa [hr.disk], fun caches hz => ⟨by rw [hr.disk, hdir], c, by rw [hr.disk, hc], ?_, by rw [hr.cacheCount, hn]⟩,
    fun ho => ?_⟩
  · rw [hn]
    rcases hr.array with h | h | ⟨caches', h, hlen⟩
    · exact harray caches (h ▸ hz)
    · rw [h] at hz
      cases hz
    · obtain rfl := CacheArray.allocated.inj (h.symm.trans hz)
      exact hlen
  · rw [hr.opened, beq_iff_eq] at ho
    obtain ⟨hm, caches, hz, -⟩ := hr.loaded ho
    exact ⟨hm, caches, hz⟩

theorem inv_opened (hi : Inv p s) (hs : OpenSafe p n env s.disk) : Inv p (openCache p env n s).1 := by
  unfold OpenSafe at hs
  cases hdir : s.disk.dir with
  | true =>
    rw [hdir, if_pos rfl] at hs
    obtain ⟨c, hc, hn⟩ := Option.map_eq_some_iff.mp hs
    apply inv_reopened hi.disk hdir hs
    intro caches hz
    obtain ⟨-, c', hc', hlen, -⟩ := hi.array caches hz
    obtain rfl := Option.some.inj (hc.symm.trans hc')
    rw [hlen, hn]
  | false =>
    rw [hdir, if_neg Bool.false_ne_true] at hs
    obtain ⟨hn, hmap, hmakes⟩ := hs
    have hd := hi.disk.absent hdir
    have hnone : ∀ caches, s.zCache ≠ .allocated caches := by
      intro caches hz
      have := (hi.array caches hz).1
      rw [hdir] at this
      cases this
    cases hmkdir : env.mkdir with
    | false =>
      rw [openCache_notCreated hd (createFiles_absent hmkdir) (by decide)]
      exact ⟨(inv_init p).disk, fun caches hz => absurd hz (hnone caches), fun h => by simp at h⟩
    | true =>
      obtain ⟨d', hcreate, hd'⟩ := createFiles_makes hmkdir (hmakes hmkdir)
      rw [openCache_created hd hcreate hd'.dir]
      exact inv_reopened (hd'.diskInv hn hmap) hd'.dir (by rw [hd'.caCtrl]; rfl) fun caches hz => absurd hz (hnone caches)

theorem inv_closed (hi : Inv p s) {freed} (h : closeCache s = .ok (s', freed)) : Inv p s' := by
  unfold closeCache at h
  split at h
  · cases h
    rename_i hz
    exact ⟨hi.disk, fun caches hz' => hi.array caches hz', fun h => by simp at h⟩
  · cases h
  · split at h
    · cases h
    · split at h
      · cases h
      · cases h
        exact ⟨hi.disk, fun caches hz' => by simp at hz', fun h => by simp at h⟩

theorem DiskInv.change {c : CaCtrl} (c' : CaCtrl) {f : CacheFile} (f' : CacheFile) (hd : DiskInv p d)
    (hdir : d.dir = true) (hc : d.caCtrl = some c) (hlen : c'.arrayLength = c.arrayLength)
    (ht : ∀ a b t, Tickets c.arrayLength a b c t → ∃ a b t, Tickets c.arrayLength a b c' t)
    (hf : d.cacheFile k = some f) (hmap : p.mapWhole f.size = true → p.mapWhole f'.size = true) :
    DiskInv p { d.setFile k f' with caCtrl := some c' } := by
  obtain ⟨c₀, hc₀, hpos, ⟨a, b, t, htk⟩, hfiles, hrest⟩ := hd.present hdir
  obtain rfl := Option.some.inj (hc.symm.trans hc₀)
  refine ⟨fun h => by simp [hdir] at h, fun _ => ⟨c', rfl, hlen ▸ hpos, hlen ▸ ht a b t htk, fun i hi => ?_, fun i hi => ?_⟩⟩
  · rw [hlen] at hi
    obtain ⟨g, hg, hgmap⟩ := hfiles i hi
    by_cases hik : i = k
    · subst hik
      obtain rfl := Option.some.inj (hf.symm.trans hg)
      exact ⟨f', Disk.setFile_self _ _ _, hmap hgmap⟩
    · exact ⟨g, by rw [← hg]; exact Disk.setFile_of_ne _ _ hik, hgmap⟩
  · rw [hlen] at hi
    have hik : i ≠ k := by
      rintro rfl
      rw [hrest i hi] at hf
      cases hf
    rw [← hrest i hi]
    exact Disk.setFile_of_ne _ _ hik

theorem State.use_eq_ok {g} {freed : List Dealloc} (h : s.use g = .ok (s', freed)) : s.opened = true ∧ ∃ c caches,
    s.disk.caCtrl = some c ∧ s.zCache = .allocated caches ∧ g c caches = .ok (s', freed) := by
  unfold State.use at h
  split at h
  · rename_i c caches ho hc hz
    exact ⟨ho, c, caches, hc, hz, h⟩
  · cases h

theorem resizeCache_disk (p : Platform) (renv : ResizeEnv) (d : Disk) (cache : CCache) (nSize : Nat) :
    (resizeCache p renv d cache nSize).1 = d ∨ ∃ f f', d.cacheFile cache.fileID = some f ∧
      f'.size = p.roundUp nSize increaseCacheFileSize ∧ (resizeCache p renv d cache nSize).1 = d.setFile cache.fileID f' := by
  unfold resizeCache
  extract_lets resized
  have hid : resized.fileID = cache.fileID := rfl
  split
  · exact .inl rfl
  · rename_i f hf
    have hf : d.cacheFile cache.fileID = some f := by
      split at hf
      · rwa [← hid]
      · cases hf
    cases htrunc : renv.truncate with
    | false => exact .inl rfl
    | true =>
      refine .inr ⟨f, f.truncate resized.shareMemLen, hf, rfl, ?_⟩
      rw [if_pos rfl, mapCacheFile_disk (by rw [Disk.setFile_self]) (Nat.le_refl _), hid]

theorem Inv.change {caches caches' : List CCache} {c c' : CaCtrl} (hi : Inv p s) (ho : s.opened = true)
    (hc : s.disk.caCtrl = some c) (hz : s.zCache = .allocated caches) (hlen : caches'.length = caches.length)
    (hd : DiskInv p d) (hdir : d.dir = s.disk.dir) (hc' : d.caCtrl = some c') (hcount : c'.arrayLength = c.arrayLength) :
    Inv p { s with disk := d, zCache := .allocated caches' } := by
  obtain ⟨hdir₀, c₀, hc₀, hl, hn⟩ := hi.array caches hz
  obtain rfl := Option.some.inj (hc.symm.trans hc₀)
  refine ⟨hd, fun caches'' hz'' => ?_, fun _ => ⟨(hi.opened ho).1, caches', rfl⟩⟩
  obtain rfl := CacheArray.allocated.inj hz''
  exact ⟨hdir.trans hdir₀, c', hc', by rw [hlen, hl, hcount], by rw [hcount]; exact hn⟩

theorem inv_pushed {blockID blockDataLen freed} (hi : Inv p s)
    (h : step p s (.pushBack blockID blockDataLen) = .ok (s', freed)) : Inv p s' := by
  obtain ⟨ho, c, caches, hc, hz, h⟩ := State.use_eq_ok h
  obtain ⟨hdir, -⟩ := hi.array caches hz
  obtain ⟨c₁, hc₁, hpos, -⟩ := hi.disk.present hdir
  obtain rfl := Option.some.inj (hc.symm.trans hc₁)
  split at h
  · cases h
  rename_i hfull
  unfold pushBlock at h
  split at h
  · cases h
  rename_i cache hcache
  unfold fillCache at h
  split at h
  · cases h
  rename_i d cache' hfill
  split at hfill
  · rename_i f hhead hf
    cases hfill
    cases h
    refine hi.change ho hc hz (List.length_set ..) ?_ rfl rfl rfl
    refine hi.disk.change c.pushBack _ hdir hc rfl (fun a b t ht => ?_) hf id
    exact ⟨a, b + 1, _, ht.pushBack hpos (by simpa using hfull)⟩
  · cases hfill

theorem inv_popped {freed} (hi : Inv p s) (h : step p s .popFront = .ok (s', freed)) : Inv p s' := by
  obtain ⟨ho, c, caches, hc, hz, h⟩ := State.use_eq_ok h
  obtain ⟨hdir, -⟩ := hi.array caches hz
  obtain ⟨c₁, hc₁, hpos, ⟨a, b, t, ht⟩, hfiles, hrest⟩ := hi.disk.present hdir
  obtain rfl := Option.some.inj (hc.symm.trans hc₁)
  split at h
  · cases h
  rename_i hempty
  cases h
  have hnext := hi.change (d := { s.disk with caCtrl := some c.popFront }) ho hc hz rfl
    ⟨fun hd => by simp [hdir] at hd, fun _ => ⟨_, rfl, hpos, ⟨a + 1, b, _, ht.popFront hpos (by simpa using hempty)⟩,
      hfiles, hrest⟩⟩ rfl rfl rfl
  rwa [← hz] at hnext

theorem inv_resized {k nSize renv freed} (hi : Inv p s) (hs : Safe p s (.resize k nSize renv))
    (h : step p s (.resize k nSize renv) = .ok (s', freed)) : Inv p s' := by
  obtain ⟨ho, c, caches, hc, hz, h⟩ := State.use_eq_ok h
  obtain ⟨hdir, -⟩ := hi.array caches hz
  unfold resizeBlock at h
  split at h
  · cases h
  rename_i cache hcache
  have hdisk := resizeCache_disk p renv s.disk cache nSize
  generalize resizeCache p renv s.disk cache nSize = r at h hdisk
  obtain ⟨d, cache', ret⟩ := r
  cases h
  rcases hdisk with rfl | ⟨f, f', hf, hsize, rfl⟩
  · exact hi.change ho hc hz (List.length_set ..) hi.disk rfl hc rfl
  · refine hi.change ho hc hz (List.length_set ..) ?_ rfl hc rfl
    have hd := hi.disk.change (k := cache.fileID) c f' hdir hc rfl (fun a b t ht => ⟨a, b, t, ht⟩) hf
      (fun _ => by rw [hsize]; exact hs)
    have hsame : { s.disk.setFile cache.fileID f' with caCtrl := some c } = s.disk.setFile cache.fileID f' := by
      rw [← hc]
      rfl
    rwa [hsame] at hd

theorem inv_step {e : Event} {freed} (hi : Inv p s) (hs : Safe p s e) (h : step p s e = .ok (s', freed)) :
    Inv p s' := by
  cases e with
  | openCall n env =>
    cases h
    exact inv_opened hi hs
  | close => exact inv_closed hi h
  | pushBack blockID blockDataLen => exact inv_pushed hi h
  | popFront => exact inv_popped hi h
  | resize k nSize renv => exact inv_resized hi hs h

theorem run_inv {tr} (h : Run (step p) {} (fun _ s e => Safe p s e) tr s) : Inv p s := by
  apply h.invariant (fun _ s => Inv p s)
  · exact inv_init p
  · intro _ _ _ _ _ _ hi hs hst
    exact inv_step hi hs hst

theorem Inv.consistent (hi : Inv p s) (ho : s.opened = true) : Consistent s := by
  obtain ⟨hm, caches, hz⟩ := hi.opened ho
  obtain ⟨hdir, c, hc, hlen, hcount⟩ := hi.array caches hz
  obtain ⟨c', hc', hpos, ⟨a, b, t, ht⟩, -⟩ := hi.disk.present hdir
  obtain rfl := Option.some.inj (hc.symm.trans hc')
  obtain ⟨hfront, hrear⟩ := ht.indices hpos
  rw [← hcount] at hfront hrear hlen
  exact ⟨c, caches, hc, hz, hm, hcount.symm, hlen, hfront, hrear⟩

/-- While the calls are safe the indices address caches that are loaded, and the next `Open`
or `Close` is right exactly where it is safe. -/
theorem open_consistent_iff (p : Platform) (tr : List (Entry State Event Dealloc)) (s : State)
    (h : Run (step p) {} (fun _ s e => Safe p s e) tr s) :
    (s.opened = true → Consistent s) ∧ ∀ e, e.isCall = true → (Right p s e ↔ Safe p s e) := by
  have hi := run_inv h
  refine ⟨hi.consistent, fun e he => ?_⟩
  cases e with
  | openCall n env =>
    show OpenRight p n (openCache p env n s) ↔ OpenSafe p n env s.disk
    unfold OpenSafe
    cases hdir : s.disk.dir with
    | true => rw [if_pos rfl, openRight_present hi.disk hdir]
    | false => rw [if_neg Bool.false_ne_true, openRight_absent (hi.disk.absent hdir)]
  | close => exact closeRight_iff hi
  | pushBack => cases he
  | popFront => cases he
  | resize => cases he

/-- A file that is not empty can be mapped as a whole, as on Windows. -/
def Platform.plain : Platform where
  mapWhole size := 0 < size
  roundUp size unit := (size + unit - 1) / unit * unit
  mapWhole_zero := rfl

/-- The second of two cache files is not made, the directory stays, and no `Open` makes the file.
A path made for three caches is opened for two, and `Close` frees the array as one of three. -/
theorem open_broken : (∃ env, ¬Right .plain {} (.openCall 2 env)) ∧
    ∃ tr s, Run (step .plain) {} anyStep tr s ∧ s.opened = true ∧ ¬Right .plain s .close := by
  constructor
  · let env : OpenEnv := { OpenEnv.good with cacheOpen := fun k => k != 1 }
    refine ⟨env, fun h => ?_⟩
    have hretry : (openCache .plain .good 2 (openCache .plain env 2 {}).1).2 = 0 := h.1
    have hfails : (openCache .plain .good 2 (openCache .plain env 2 {}).1).2 = -1 := by decide
    rw [hfails] at hretry
    cases hretry
  · let evs : List Event := [.openCall 3 .good, .close, .openCall 2 .good]
    let s := final (step .plain) {} evs
    refine ⟨_, s, run_trace_any evs, rfl, ?_⟩
    rintro ⟨s', freed, hclose, hright⟩
    have hfreed : freed = [⟨2, 3⟩] := by
      cases hclose
      rfl
    have h32 : 3 = 2 := hright ⟨2, 3⟩ (by simp [hfreed])
    cases h32

theorem open_consistent_two :
    let evs := [.openCall 2 .good, .pushBack 7 100, .close, .openCall 2 .good, .pushBack 8 200, .popFront]
    let s := final (step .plain) {} evs
    (s.opened = true → Consistent s) ∧ (Right .plain s (.openCall 2 .good) ↔ Safe .plain s (.openCall 2 .good)) ∧
      (Right .plain s (.openCall 1 .good) ↔ Safe .plain s (.openCall 1 .good)) := by
  intro evs s
  have hr : Run (step .plain) {} (fun _ s e => Safe .plain s e) (trace (step .plain) {} evs) s :=
    run_of_meets (step .plain) {} (fun _ s e => Safe .plain s e) evs (by decide)
  have h := open_consistent_iff .plain _ s hr
  exact ⟨h.1, h.2 _ rfl, h.2 _ rfl⟩

end

end VProtocol.Cache
