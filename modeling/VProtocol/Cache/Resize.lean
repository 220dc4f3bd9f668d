import VProtocol.Cache.Open

/-!
# Resizing a cache

`ResizeCache` writes the new length into the cache and closes its mapping before it tries anything
that can fail. When one of its steps fails, the old mapping is gone, the pointers of the cache point
into it, and the length is that of a mapping that was never made.
-/

namespace VProtocol.Cache

/-! ## The property -/

/-- The cache has a mapping, and both of its pointers point into it. -/
structure CCache.Usable (cache : CCache) : Prop where
  mapped : cache.shmCache.isSome = true
  shareMem : cache.shareMem = .current
  header : cache.header = .current

/-- `cache` has become `cache'`. -/
structure ResizeRight (cache : CCache) (nSize : Nat) (cache' : CCache) (ret : Int) : Prop where
  resized : ret = 0 → nSize ≤ cache'.shareMemLen ∧ cache'.shmCache = some cache'.shareMemLen ∧ cache'.Usable
  kept : ret = -1 → cache.Usable → cache' = cache

/-- The file is there and every step succeeds; nothing can be mapped with the length 0. -/
structure Resizes (p : Platform) (env : ResizeEnv) (d : Disk) (cache : CCache) (nSize : Nat) : Prop where
  fileOpen : env.fileOpen = true
  file : (d.cacheFile cache.fileID).isSome = true
  truncate : env.truncate = true
  map : env.map = true
  malloc : env.malloc = true
  length : p.roundUp nSize increaseCacheFileSize ≠ 0

section
variable {p : Platform} {env : ResizeEnv} {d : Disk} {cache : CCache} {nSize : Nat}

/-! ## What becomes of a cache -/

theorem resizeCache_succeeds (h : Resizes p env d cache nSize) :
    (resizeCache p env d cache nSize).2.2 = 0 ∧ (resizeCache p env d cache nSize).2.1 =
      { cache with
        shareMemLen := p.roundUp nSize increaseCacheFileSize
        shmCache := some (p.roundUp nSize increaseCacheFileSize)
        shareMem := .current
        header := .current } := by
  obtain ⟨f, hf⟩ := Option.isSome_iff_exists.mp h.file
  have hopen : p.shmOpen (f.truncate (p.roundUp nSize increaseCacheFileSize)) (p.roundUp nSize increaseCacheFileSize) =
      some (f.truncate (p.roundUp nSize increaseCacheFileSize), p.roundUp nSize increaseCacheFileSize) := by
    have hfits : ¬(f.truncate (p.roundUp nSize increaseCacheFileSize)).size < p.roundUp nSize increaseCacheFileSize :=
      Nat.lt_irrefl _
    unfold Platform.shmOpen
    rw [if_neg h.length, if_neg hfits]
  unfold resizeCache mapCacheFile
  simp only [CCache.close, h.fileOpen, if_true, hf, h.truncate, h.map, hopen, h.malloc, and_self]

theorem resizeCache_fails (h : ¬Resizes p env d cache nSize) :
    (resizeCache p env d cache nSize).2.2 = -1 ∧ (resizeCache p env d cache nSize).2.1.shmCache = none ∧
      (resizeCache p env d cache nSize).2.1.shareMemLen = p.roundUp nSize increaseCacheFileSize := by
  unfold resizeCache
  extract_lets resized
  cases hopen : env.fileOpen with
  | false => exact ⟨rfl, rfl, rfl⟩
  | true =>
    rw [if_pos rfl]
    cases hf : d.cacheFile resized.fileID with
    | none => exact ⟨rfl, rfl, rfl⟩
    | some f =>
      cases htruncate : env.truncate with
      | false => exact ⟨rfl, rfl, rfl⟩
      | true =>
        simp only [if_true]
        unfold mapCacheFile
        cases hmap : env.map with
        | false => exact ⟨rfl, rfl, rfl⟩
        | true =>
          rw [if_pos rfl]
          cases hshm : p.shmOpen (f.truncate resized.shareMemLen) resized.shareMemLen with
          | none => exact ⟨rfl, rfl, rfl⟩
          | some r =>
            cases hmalloc : env.malloc with
            | false => exact ⟨rfl, rfl, rfl⟩
            | true =>
              refine absurd ⟨hopen, ?_, htruncate, hmap, hmalloc, fun hzero => ?_⟩ h
              · rw [show d.cacheFile cache.fileID = some f from hf]
                rfl
              · -- a file of length 0 cannot be mapped as a whole
                have hlen : resized.shareMemLen = 0 := hzero
                unfold Platform.shmOpen at hshm
                rw [if_pos hlen, hlen] at hshm
                rw [show (f.truncate 0).size = 0 from rfl, p.mapWhole_zero] at hshm
                cases hshm

/-! ## All or nothing -/

/-- Resizing is all or nothing exactly when every step succeeds and the length is rounded up to
no less than what was asked for, or the cache has no mapping to lose. -/
theorem resize_right_iff (p : Platform) (env : ResizeEnv) (d : Disk) (cache : CCache) (nSize : Nat) :
    ResizeRight cache nSize (resizeCache p env d cache nSize).2.1 (resizeCache p env d cache nSize).2.2 ↔
      Resizes p env d cache nSize ∧ nSize ≤ p.roundUp nSize increaseCacheFileSize ∨
      ¬Resizes p env d cache nSize ∧ ¬cache.Usable := by
  by_cases h : Resizes p env d cache nSize
  · obtain ⟨hret, hcache⟩ := resizeCache_succeeds h
    rw [hret, hcache]
    constructor
    · intro hright
      exact .inl ⟨h, (hright.resized rfl).1⟩
    · rintro (⟨-, hle⟩ | ⟨hno, -⟩)
      · exact ⟨fun _ => ⟨hle, rfl, rfl, rfl, rfl⟩, fun hfail => by cases hfail⟩
      · exact absurd h hno
  · obtain ⟨hret, hclosed, -⟩ := resizeCache_fails h
    constructor
    · intro hright
      refine .inr ⟨h, fun husable => ?_⟩
      have hmapped := husable.mapped
      rw [← hright.kept hret husable, hclosed] at hmapped
      cases hmapped
    · rintro (⟨hyes, -⟩ | ⟨-, hnot⟩)
      · exact absurd hyes h
      · refine ⟨fun hzero => ?_, fun _ husable => absurd husable hnot⟩
        rw [hret] at hzero
        cases hzero

/-- A cache of 4 MB whose new file cannot be truncated. -/
theorem resize_unmaps : ¬∀ (p : Platform) (env : ResizeEnv) (d : Disk) (cache : CCache) (nSize : Nat),
    (∀ n unit, 0 < unit → n ≤ p.roundUp n unit) →
      ResizeRight cache nSize (resizeCache p env d cache nSize).2.1 (resizeCache p env d cache nSize).2.2 := by
  intro hall
  have hround : ∀ n unit, 0 < unit → n ≤ Platform.plain.roundUp n unit := by
    intro n unit hunit
    have hdiv := Nat.div_add_mod (n + unit - 1) unit
    have hmod := Nat.mod_lt (n + unit - 1) hunit
    rw [Nat.mul_comm] at hdiv
    show n ≤ (n + unit - 1) / unit * unit
    omega
  let cache : CCache := { shmCache := some defaultCacheFileSize, shareMem := .current, header := .current }
  let d : Disk := { dir := true, cacheFile := fun _ => some { size := defaultCacheFileSize } }
  have h := hall .plain ⟨true, false, true, true⟩ d cache (5 * 1024 * 1024) hround
  exact absurd (congrArg CCache.shmCache (h.kept rfl ⟨rfl, rfl, rfl⟩)) (by decide)

end

end VProtocol.Cache
