import VProtocol.Cache.Open

/-!
# Cached blocks after a restart

The control block and the headers are in the files. How long a block and how long the mapping
of a cache is was known to the array that `Close` frees, and `Open` sets neither.
-/

namespace VProtocol.Cache

/-- The indices of the caches in the queue, the front first. -/
def CaCtrl.occupied (c : CaCtrl) : List Nat :=
  (List.range c.itemCount.toNat).map fun i => (c.frontIndex.toNat + i) % c.arrayLength.toNat

/-- `s` is the manager before the `Close`, `s'` after the `Open`. -/
def SlotSurvives (s s' : State) (caches caches' : List CCache) (i : Nat) : Prop :=
  ∃ cache cache' f f', caches[i]? = some cache ∧ caches'[i]? = some cache' ∧
    s.disk.cacheFile cache.fileID = some f ∧ s'.disk.cacheFile cache'.fileID = some f' ∧
    f'.blockID = f.blockID ∧ cache'.blockDataLen = cache.blockDataLen ∧
    f'.size = f.size ∧ cache'.shareMemLen = f'.size

def Survives (s s' : State) : Prop :=
  ∃ c caches caches', s.disk.caCtrl = some c ∧ s'.disk.caCtrl.map (·.occupied) = some c.occupied ∧
    s.zCache = .allocated caches ∧ s'.zCache = .allocated caches' ∧
    ∀ i ∈ c.occupied, SlotSurvives s s' caches caches' i

section
variable {p : Platform} {env : OpenEnv} {s s' s'' : State} {n : UInt32} {e : Event} {freed : List Dealloc}

theorem occupied_eq_nil {c : CaCtrl} : c.occupied = [] ↔ c.itemCount = 0 := by
  unfold CaCtrl.occupied
  rw [List.map_eq_nil_iff, List.range_eq_nil, ← UInt32.toNat_inj, UInt32.toNat_zero]

/-! ## An open manager -/

structure OpenInv (s : State) : Prop where
  dir : s.opened = true → s.disk.dir = true
  caCtrl : s.opened = true → ∃ c, s.disk.caCtrl = some c
  array : s.opened = true → ∃ caches, s.zCache = .allocated caches

theorem OpenInv.closed (h : s.opened = false) : OpenInv s :=
  ⟨fun ho => by simp [h] at ho, fun ho => by simp [h] at ho, fun ho => by simp [h] at ho⟩

theorem openLoad_inv (h : s.opened = false) : OpenInv (openLoad p env n s).1 := by
  cases hdir : s.disk.dir with
  | false =>
    unfold openLoad loadMmapCfgFile
    simp only [hdir, Bool.false_and, Bool.false_eq_true, if_false]
    exact .closed h
  | true =>
    rcases openLoad_cases p env n hdir with heq | heq | heq | ⟨caches, ret, heq, -⟩
    · rw [heq]
      exact .closed h
    · rw [heq]
      exact .closed h
    · rw [heq]
      exact .closed h
    · rw [heq]
      exact ⟨fun _ => hdir, fun _ => ⟨_, rfl⟩, fun _ => ⟨caches, rfl⟩⟩

theorem openCache_inv : OpenInv (openCache p env n s).1 := by
  unfold openCache
  generalize openCreate env n s.disk = r
  obtain ⟨d, ret⟩ := r
  split
  · exact openLoad_inv rfl
  · exact .closed rfl

theorem closeCache_disk (h : closeCache s = .ok (s', freed)) : s'.disk = s.disk ∧ s'.opened = false := by
  unfold closeCache at h
  split at h
  · cases h
    exact ⟨rfl, rfl⟩
  · cases h
  · split at h
    · cases h
    · split at h
      · cases h
      · cases h
        exact ⟨rfl, rfl⟩

theorem openInv_step (hi : OpenInv s) (h : step p s e = .ok (s', freed)) : OpenInv s' := by
  cases e with
  | openCall n env =>
    cases h
    exact openCache_inv
  | close =>
    exact .closed (closeCache_disk h).2
  | pushBack blockID blockDataLen =>
    obtain ⟨ho, c, caches, hc, hz, h⟩ := State.use_eq_ok h
    split at h
    · cases h
    · unfold pushBlock at h
      split at h
      · cases h
      · unfold fillCache at h
        split at h
        · cases h
        · rename_i hfill
          split at hfill
          · cases hfill
            cases h
            exact ⟨fun _ => hi.dir ho, fun _ => ⟨_, rfl⟩, fun _ => ⟨_, rfl⟩⟩
          · cases hfill
  | popFront =>
    obtain ⟨ho, c, caches, hc, hz, h⟩ := State.use_eq_ok h
    split at h
    · cases h
    · cases h
      exact ⟨fun _ => hi.dir ho, fun _ => ⟨_, rfl⟩, fun _ => ⟨caches, hz⟩⟩
  | resize k nSize renv =>
    obtain ⟨ho, c, caches, hc, hz, h⟩ := State.use_eq_ok h
    unfold resizeBlock at h
    split at h
    · cases h
    · rename_i cache hcache
      have hdisk := resizeCache_disk p renv s.disk cache nSize
      generalize resizeCache p renv s.disk cache nSize = r at h hdisk
      obtain ⟨d, cache', ret⟩ := r
      cases h
      rcases hdisk with rfl | ⟨f, f', -, -, rfl⟩
      · exact ⟨fun _ => hi.dir ho, fun _ => ⟨c, hc⟩, fun _ => ⟨_, rfl⟩⟩
      · exact ⟨fun _ => hi.dir ho, fun _ => ⟨c, hc⟩, fun _ => ⟨_, rfl⟩⟩

theorem run_openInv {tr} (h : Run (step p) {} anyStep tr s) : OpenInv s := by
  apply h.invariant (fun _ s => OpenInv s)
  · exact .closed rfl
  · intro _ _ _ _ _ _ hi _ hst
    exact openInv_step hi hst

/-! ## Close and Open -/

theorem not_survives {caches caches' : List CCache} {i : Nat} (hr : Reopened p env s n (s', 0))
    (hz : s'.zCache = .allocated caches') : ¬SlotSurvives s s' caches caches' i := by
  rintro ⟨cache, cache', f, f', -, hcache', -, hf', -, -, -, hlen⟩
  obtain ⟨-, caches'', hz'', hcount, hloaded⟩ := hr.loaded rfl
  obtain rfl := CacheArray.allocated.inj (hz.symm.trans hz'')
  have hi : i < n.toNat := by
    rw [← hcount]
    exact (List.getElem?_eq_some_iff.mp hcache').1
  obtain ⟨g, hg, hmap, hget⟩ := hloaded i hi
  obtain rfl := Option.some.inj (hcache'.symm.trans hget)
  rw [hr.disk] at hf'
  obtain rfl := Option.some.inj (hg.symm.trans hf')
  have hzero : g.size = 0 := hlen.symm
  rw [hzero, p.mapWhole_zero] at hmap
  cases hmap

/-- What is in the files survives, so the blocks do exactly where there are none. -/
theorem restart_survives_iff (p : Platform) (tr : List (Entry State Event Dealloc)) (s s' s'' : State) (env : OpenEnv)
    (freed : List Dealloc) (h : Run (step p) {} anyStep tr s) (ho : s.opened = true)
    (hclose : closeCache s = .ok (s', freed))
    (hopen : openCache p env s.cacheCount s' = (s'', 0)) :
    s''.disk = s.disk ∧ (Survives s s'' ↔ ∃ c, s.disk.caCtrl = some c ∧ c.itemCount = 0) := by
  have hi := run_openInv h
  obtain ⟨c, hc⟩ := hi.caCtrl ho
  obtain ⟨caches, hz⟩ := hi.array ho
  have hdisk := (closeCache_disk hclose).1
  have hr := openCache_reopened p env s.cacheCount (s := s') (by rw [hdisk, hi.dir ho]) (by rw [hdisk, hc])
  rw [hopen] at hr
  have hdisk' : s''.disk = s.disk := hr.disk.trans hdisk
  have hr : Reopened p env s s.cacheCount (s'', 0) := by
    refine ⟨hdisk', hr.cacheCount, hr.opened, ?_, hdisk ▸ hr.loaded⟩
    obtain ⟨-, caches'', hz'', hlen, -⟩ := hr.loaded rfl
    exact .inr (.inr ⟨caches'', hz'', hlen⟩)
  obtain ⟨-, caches'', hz'', -⟩ := hr.loaded rfl
  refine ⟨hdisk', ?_, ?_⟩
  · rintro ⟨c', _, caches', hc', -, -, hz', hslots⟩
    refine ⟨c', hc', ?_⟩
    rw [← occupied_eq_nil, List.eq_nil_iff_forall_not_mem]
    exact fun i hi => not_survives hr hz' (hslots i hi)
  · rintro ⟨c', hc', h0⟩
    refine ⟨c', caches, caches'', hc', by rw [hdisk', hc', Option.map_some], hz, hz'', ?_⟩
    rw [occupied_eq_nil.mpr h0]
    exact List.forall_mem_nil _

/-- One block of 100 bytes, which is not there after the restart. -/
theorem restart_lost : ∃ tr s s' s'' freed, Run (step .plain) {} anyStep tr s ∧ s.opened = true ∧
    closeCache s = .ok (s', freed) ∧ openCache .plain .good s.cacheCount s' = (s'', 0) ∧ ¬Survives s s'' := by
  let evs : List Event := [.openCall 2 .good, .pushBack 7 100]
  let s := final (step .plain) {} evs
  let s' := final (step .plain) {} (evs ++ [.close])
  let s'' := final (step .plain) {} (evs ++ [.close, .openCall 2 .good])
  refine ⟨_, s, s', s'', [⟨2, 2⟩], run_trace_any evs, rfl, rfl, rfl, ?_⟩
  rintro ⟨c, caches, caches', hc, -, hz, hz', hslots⟩
  cases hc
  cases hz
  cases hz'
  obtain ⟨cache, cache', -, -, hcache, hcache', -, -, -, hlen, -⟩ := hslots 0 (by decide)
  cases hcache
  cases hcache'
  cases hlen

theorem restart_survives_two :
    let evs : List Event := [.openCall 2 .good, .pushBack 7 100, .resize 1 5000000 ⟨true, true, true, true⟩,
      .pushBack 8 200, .popFront]
    let s := final (step .plain) {} evs
    let s'' := final (step .plain) {} (evs ++ [.close, .openCall 2 .good])
    s''.disk = s.disk ∧ (Survives s s'' ↔ ∃ c, s.disk.caCtrl = some c ∧ c.itemCount = 0) := by
  intro evs s s''
  let s' := final (step .plain) {} (evs ++ [.close])
  exact restart_survives_iff .plain _ s s' s'' .good [⟨2, 2⟩] (run_trace_any evs) rfl rfl rfl

end

end VProtocol.Cache
