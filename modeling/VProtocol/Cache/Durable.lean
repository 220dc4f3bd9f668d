import VProtocol.Cache.Open
import VProtocol.Cache.Restart

/-!
# The queue of blocks on the disk

The control block and the headers of the caches are in the files. So the ids of the blocks that
were pushed and not popped are there in their order after any number of `Open` and `Close`, also
those that failed, after every `ResizeCache` that leaves room for the header, and after the
end of a process between two calls or while it wrote a block. The data behind a header is not
in the model, and a resize may cut it.
-/

namespace VProtocol.Cache

open Function (update)

/-! ## The property -/

def Disk.blockAt (d : Disk) (i : Nat) : UInt64 := ((d.cacheFile i).getD {}).blockID

/-- The headers of the caches in the queue, the front first. -/
def Disk.blocks (d : Disk) : List UInt64 :=
  match d.caCtrl with
  | none => []
  | some c => c.occupied.map d.blockAt

/-- A process ends in the middle of a block when the block is in the rear cache and not yet pushed. -/
inductive Deed
  | call (e : Event)
  | torn (blockID : UInt64) (blockDataLen : Nat)
  | killed

def tornBlock (s : State) (c : CaCtrl) (caches : List CCache) (blockID : UInt64) (blockDataLen : Nat) :
    Except Fault (State × List Dealloc) :=
  match caches[c.getRearCache]? with
  | none => .error .outOfRange
  | some cache =>
    match fillCache s.disk cache blockID blockDataLen with
    | none => .error .nullPtr
    | some (d, _) => .ok ({ disk := d }, [])

/-- One call of a process, or its end: the next one has what is on the disk. -/
def life (p : Platform) (s : State) : Deed → Except Fault (State × List Dealloc)
  | .call e => step p s e
  | .torn blockID blockDataLen => s.use fun c caches =>
    if c.isFull then .error .misuse else tornBlock s c caches blockID blockDataLen
  | .killed => .ok ({ disk := s.disk }, [])

def Deed.queued (q : List UInt64) : Deed → List UInt64
  | .call (.pushBack blockID _) => q ++ [blockID]
  | .call .popFront => q.tail
  | _ => q

/-- The blocks that were pushed and not popped. -/
def queue (tr : List (Entry State Deed Dealloc)) : List UInt64 := tr.foldl (fun q en => en.ev.queued q) []

def KeepsHeader (p : Platform) : Deed → Prop
  | .call (.resize _ nSize _) => 8 ≤ p.roundUp nSize increaseCacheFileSize
  | _ => True

instance (p : Platform) (e : Deed) : Decidable (KeepsHeader p e) := by
  unfold KeepsHeader
  split <;> infer_instance

/-- The manager is a queue of the blocks `q`. -/
structure Holds (s : State) (q : List UInt64) : Prop where
  blocks : s.disk.blocks = q
  empty : ∀ c, s.disk.caCtrl = some c → (c.isEmpty = true ↔ q = [])
  full : ∀ c, s.disk.caCtrl = some c → (c.isFull = true ↔ q.length = c.arrayLength.toNat)
  front : ∀ c caches cache f, s.opened = true → s.disk.caCtrl = some c → s.zCache = .allocated caches → q ≠ [] →
    caches[c.getFrontCache]? = some cache → s.disk.cacheFile cache.fileID = some f → q.head? = some f.blockID

/-- A control block is that of a path made for no caches or not made to its end, or one in use. -/
def CaCtrl.Sound (c : CaCtrl) : Prop :=
  c = {} ∨ 0 < c.arrayLength ∧ ∃ a b t, Tickets c.arrayLength a b c t

/-- Each cache of an open manager has the file with its own index. -/
def OwnFiles (s : State) : Prop :=
  s.opened = true → ∀ caches, s.zCache = .allocated caches → ∀ (i : Nat) (cache : CCache), caches[i]? = some cache →
    cache.fileID = i

structure Stored (s : State) (q : List UInt64) : Prop where
  blocks : s.disk.blocks = q
  dir : ∀ c, s.disk.caCtrl = some c → s.disk.dir = true
  ctrl : ∀ c, s.disk.caCtrl = some c → c.Sound
  files : OwnFiles s

section
variable {p : Platform} {env : OpenEnv} {d d' : Disk} {s s' : State} {n : UInt32} {c : CaCtrl} {q : List UInt64}
  {k : Nat} {freed : List Dealloc} {L : UInt32} {a b : Nat} {t : Trail}

/-! ## The caches of the queue -/

theorem occupied_length (c : CaCtrl) : c.occupied.length = c.itemCount.toNat := by
  simp [CaCtrl.occupied]

theorem Tickets.occupied (h : Tickets L a b c t) : c.occupied = Ring.slots L.toNat a b := by
  unfold CaCtrl.occupied Ring.slots
  rw [h.itemCount, h.arrayLength, h.frontIndex, List.range'_eq_map_range, List.map_map]
  apply List.map_congr_left
  intro i _
  exact Nat.mod_add_mod a L.toNat i

theorem Disk.blocks_some (hc : d.caCtrl = some c) : d.blocks = c.occupied.map d.blockAt := by
  unfold Disk.blocks
  rw [hc]

theorem Disk.blocks_empty (hc : d.caCtrl = none ∨ d.caCtrl = some (.initial n)) : d.blocks = [] := by
  unfold Disk.blocks
  rcases hc with hc | hc
  · rw [hc]
  · rw [hc]
    rfl

theorem Sound.initial (n : UInt32) : (CaCtrl.initial n).Sound := by
  by_cases hn : n = 0
  · rw [hn]
    exact .inl rfl
  · exact .inr ⟨UInt32.pos_iff_ne_zero.mpr hn, 0, 0, {}, tickets_initial n⟩

theorem Sound.pushBack (h : c.Sound) (hfull : c.isFull = false) :
    c.pushBack.Sound ∧ c.pushBack.occupied = c.occupied ++ [c.getRearCache] ∧ c.getRearCache ∉ c.occupied := by
  rcases h with rfl | ⟨hpos, a, b, t, ht⟩
  · cases hfull
  · have hpush := ht.pushBack hpos hfull
    have hrear : c.getRearCache = Ring.slot c.arrayLength.toNat b := ht.rearIndex
    refine ⟨.inr ⟨hpos, a, b + 1, _, hpush⟩, ?_, ?_⟩
    · rw [hpush.occupied, ht.occupied, Ring.slots_succ ht.window.le, hrear]
    · rw [ht.occupied, hrear]
      exact ht.window.slot_notMem (ht.isFull.mp hfull)

theorem Sound.popFront (h : c.Sound) (hempty : c.isEmpty = false) :
    c.popFront.Sound ∧ c.occupied = c.getFrontCache :: c.popFront.occupied := by
  rcases h with rfl | ⟨hpos, a, b, t, ht⟩
  · cases hempty
  · have hpop := ht.popFront hpos hempty
    have hlt := ht.isEmpty.mp hempty
    have hfront : c.getFrontCache = Ring.slot c.arrayLength.toNat a := ht.frontIndex
    refine ⟨.inr ⟨hpos, a + 1, b, _, hpop⟩, ?_⟩
    rw [hpop.occupied, ht.occupied, hfront, ← Ring.slots_append (Nat.le_succ a) hlt]
    simp [Ring.slots]

theorem Stored.holds (h : Stored s q) : Holds s q := by
  have hlen : ∀ c, s.disk.caCtrl = some c → q.length = c.itemCount.toNat := by
    intro c hc
    rw [← h.blocks, Disk.blocks_some hc, List.length_map, occupied_length]
  refine ⟨h.blocks, fun c hc => ?_, fun c hc => ?_, fun c caches cache f ho hc hz hne hcache hf => ?_⟩
  · rw [← List.length_eq_zero_iff, hlen c hc]
    unfold CaCtrl.isEmpty
    rw [beq_iff_eq, ← UInt32.toNat_inj, UInt32.toNat_zero]
  · rw [hlen c hc]
    unfold CaCtrl.isFull
    rw [beq_iff_eq, ← UInt32.toNat_inj]
  · have hempty : c.isEmpty = false := by
      unfold CaCtrl.isEmpty
      rw [beq_eq_false_iff_ne, ne_eq, ← UInt32.toNat_inj, UInt32.toNat_zero, ← hlen c hc]
      exact fun h0 => hne (List.length_eq_zero_iff.mp h0)
    have hid := h.files ho caches hz _ cache hcache
    rw [← h.blocks, Disk.blocks_some hc, (Sound.popFront (h.ctrl c hc) hempty).2, List.map_cons, List.head?_cons]
    unfold Disk.blockAt
    rw [← hid, hf]
    rfl

/-! ## Open and Close -/

theorem Stored.closed {s' : State} (h : Stored s q) (hd : s'.disk = s.disk) (ho : s'.opened = false) : Stored s' q :=
  ⟨by rw [hd, h.blocks], by rw [hd]; exact h.dir, by rw [hd]; exact h.ctrl, fun h' => by simp [ho] at h'⟩

/-- A control block without entries is written where there was none. -/
theorem Stored.fresh {s' : State} (h : Stored s q) (hnone : s.disk.caCtrl = none)
    (hc : s'.disk.caCtrl = none ∨ s'.disk.dir = true ∧ ∃ n, s'.disk.caCtrl = some (.initial n))
    (hid : OwnFiles s') : Stored s' q := by
  have hq : q = [] := by rw [← h.blocks, Disk.blocks_empty (n := 0) (.inl hnone)]
  rw [hq]
  rcases hc with hc | ⟨hdir, n, hc⟩
  · exact ⟨Disk.blocks_empty (n := 0) (.inl hc), by simp [hc], by simp [hc], hid⟩
  · refine ⟨Disk.blocks_empty (.inr hc), fun _ _ => hdir, fun c hc' => ?_, hid⟩
    obtain rfl := Option.some.inj (hc.symm.trans hc')
    exact Sound.initial n

theorem createCacheFiles_keeps (env : OpenEnv) (l : List Nat) (d : Disk) :
    (createCacheFiles env l d).1.dir = d.dir ∧ (createCacheFiles env l d).1.caCtrl = d.caCtrl := by
  induction l generalizing d with
  | nil => exact ⟨rfl, rfl⟩
  | cons idx rest ih =>
    have hone : (createCacheFile env d idx).1.dir = d.dir ∧ (createCacheFile env d idx).1.caCtrl = d.caCtrl := by
      unfold createCacheFile
      split
      · extract_lets f
        split
        · exact ⟨rfl, rfl⟩
        · exact ⟨rfl, rfl⟩
      · exact ⟨rfl, rfl⟩
    unfold createCacheFiles
    generalize createCacheFile env d idx = r at hone
    obtain ⟨d', ret⟩ := r
    split
    · rename_i heq
      obtain ⟨rfl, -⟩ := Prod.mk.inj heq
      rw [(ih _).1, (ih _).2]
      exact hone
    · rename_i heq
      obtain ⟨rfl, -⟩ := Prod.mk.inj heq
      exact hone

theorem createFiles_ctrl (hnone : d.caCtrl = none) : (createFiles env n d).1.caCtrl = none ∨
    (createFiles env n d).1.dir = true ∧ ∃ n', (createFiles env n d).1.caCtrl = some (.initial n') := by
  have hcfg : (createMmapCfgFile env { d with dir := env.mkdir } (.initial n)).1.caCtrl = none ∨
      (createMmapCfgFile env { d with dir := env.mkdir } (.initial n)).1.dir = true ∧
      ∃ n', (createMmapCfgFile env { d with dir := env.mkdir } (.initial n)).1.caCtrl = some (.initial n') := by
    unfold createMmapCfgFile
    split
    · rename_i hdir
      have hdir : env.mkdir = true := (Bool.and_eq_true_iff.mp hdir).1
      split
      · exact .inr ⟨hdir, n, rfl⟩
      · refine .inr ⟨hdir, 0, ?_⟩
        show some (d.caCtrl.getD {}) = _
        rw [hnone]
        rfl
    · exact .inl hnone
  unfold createFiles
  generalize createMmapCfgFile env { d with dir := env.mkdir } (.initial n) = r at hcfg
  obtain ⟨d', ret⟩ := r
  split
  · rename_i heq
    obtain ⟨rfl, -⟩ := Prod.mk.inj heq
    rw [(createCacheFiles_keeps _ _ _).1, (createCacheFiles_keeps _ _ _).2]
    exact hcfg
  · rename_i heq
    obtain ⟨rfl, -⟩ := Prod.mk.inj heq
    exact hcfg

theorem Stored.created (h : Stored s q) (env : OpenEnv) (n : UInt32) :
    Stored { s with disk := (openCreate env n s.disk).1, cacheCount := n, opened := false } q := by
  unfold openCreate
  split
  · exact h.closed rfl rfl
  · rename_i hdir
    have hnone : s.disk.caCtrl = none := by
      cases hc : s.disk.caCtrl with
      | none => rfl
      | some c => exact absurd (h.dir c hc) hdir
    exact h.fresh hnone (createFiles_ctrl hnone) fun ho => by simp at ho

/-- Loading makes a control block of zeros where there is none and changes nothing else on the disk. -/
theorem Stored.loaded (h : Stored s q) (ho : s.opened = false) : Stored (openLoad p env n s).1 q := by
  cases hdir : s.disk.dir with
  | false =>
    have heq : openLoad p env n s = (s, -1) := by
      unfold openLoad loadMmapCfgFile
      simp [hdir]
    rw [heq]
    exact h
  | true =>
    have hctrl : ∀ s' : State, s'.disk = (withCtrl s).disk → OwnFiles s' → Stored s' q := by
      intro s' hd hid
      cases hc : s.disk.caCtrl with
      | none =>
        refine h.fresh hc (.inr ⟨by rw [hd]; exact hdir, 0, ?_⟩) hid
        rw [hd]
        show some (s.disk.caCtrl.getD {}) = _
        rw [hc]
        rfl
      | some c =>
        rw [withCtrl_eq hc] at hd
        exact ⟨by rw [hd, h.blocks], by rw [hd]; exact h.dir, by rw [hd]; exact h.ctrl, hid⟩
    rcases openLoad_cases p env n hdir with heq | heq | heq | ⟨caches, ret, heq, hlen, -, hloaded⟩
    · rw [heq]
      exact h
    · rw [heq]
      exact hctrl _ rfl fun ho' => by simp [withCtrl, ho] at ho'
    · rw [heq]
      exact hctrl _ rfl fun ho' => by simp [withCtrl, ho] at ho'
    · rw [heq]
      refine hctrl _ rfl fun ho' caches' hz i cache hcache => ?_
      obtain rfl := CacheArray.allocated.inj hz
      obtain ⟨f, -, hi⟩ := hloaded (beq_iff_eq.mp ho') i (hlen ▸ (List.getElem?_eq_some_iff.mp hcache).1)
      obtain rfl := Option.some.inj (hcache.symm.trans hi)
      rfl

theorem Stored.opened (h : Stored s q) : Stored (openCache p env n s).1 q := by
  have hcreated := h.created env n
  unfold openCache
  generalize openCreate env n s.disk = r at hcreated
  obtain ⟨d, ret⟩ := r
  split
  · rename_i heq
    obtain ⟨rfl, -⟩ := Prod.mk.inj heq
    exact hcreated.loaded rfl
  · rename_i heq
    obtain ⟨rfl, -⟩ := Prod.mk.inj heq
    exact hcreated

/-! ## Writing and resizing a cache -/

theorem blocks_setFile (hc : d.caCtrl = some c) (f : CacheFile) (hf : k ∈ c.occupied → f.blockID = d.blockAt k) :
    c.occupied.map (d.setFile k f).blockAt = d.blocks := by
  rw [Disk.blocks_some hc]
  apply List.map_congr_left
  intro i hi
  unfold Disk.blockAt
  by_cases hik : i = k
  · subst hik
    rw [Disk.setFile_self]
    exact hf hi
  · rw [Disk.setFile_of_ne _ _ hik]

theorem fillCache_eq {cache cache' : CCache} {blockID : UInt64} {blockDataLen : Nat}
    (h : fillCache d cache blockID blockDataLen = some (d', cache')) :
    (∃ f, d' = d.setFile cache.fileID f ∧ f.blockID = blockID) ∧ cache'.fileID = cache.fileID := by
  unfold fillCache at h
  split at h
  · obtain ⟨rfl, rfl⟩ := Prod.mk.inj (Option.some.inj h)
    exact ⟨⟨_, rfl, rfl⟩, rfl⟩
  · cases h

theorem set_fileID {caches : List CCache} {cache cache' : CCache}
    (hid : ∀ (i : Nat) (cache : CCache), caches[i]? = some cache → cache.fileID = i) (hk : caches[k]? = some cache)
    (hsame : cache'.fileID = cache.fileID) :
    ∀ (i : Nat) (cache : CCache), (caches.set k cache')[i]? = some cache → cache.fileID = i := by
  intro i x hx
  rw [List.getElem?_set] at hx
  split at hx
  · rename_i hki
    subst hki
    split at hx
    · obtain rfl := Option.some.inj hx
      rw [hsame]
      exact hid k cache hk
    · cases hx
  · exact hid i x hx

theorem Stored.pushed {caches : List CCache} {blockID : UInt64} {blockDataLen : Nat} (h : Stored s q)
    (ho : s.opened = true)
    (hc : s.disk.caCtrl = some c) (hz : s.zCache = .allocated caches) (hfull : c.isFull = false)
    (hst : pushBlock s c caches blockID blockDataLen = .ok (s', freed)) : Stored s' (q ++ [blockID]) := by
  unfold pushBlock at hst
  split at hst
  · cases hst
  rename_i cache hcache
  split at hst
  · cases hst
  rename_i d cache' hfill
  obtain ⟨⟨f, rfl, hf⟩, hsame⟩ := fillCache_eq hfill
  have hrear : cache.fileID = c.getRearCache := h.files ho caches hz _ cache hcache
  obtain ⟨hsound, hocc, hnot⟩ := Sound.pushBack (h.ctrl c hc) hfull
  cases hst
  refine ⟨?_, fun c' hc' => h.dir c hc, fun c' hc' => ?_, fun _ caches' hz' => ?_⟩
  · rw [hrear, Disk.blocks_some rfl, hocc, List.map_append, List.map_singleton]
    congr 1
    · rw [← h.blocks]
      exact blocks_setFile hc f fun hmem => absurd hmem hnot
    · rw [List.singleton_inj, ← hf]
      unfold Disk.blockAt
      show ((update s.disk.cacheFile c.getRearCache (some f) c.getRearCache).getD {}).blockID = _
      rw [Function.update_self]
      rfl
  · obtain rfl := Option.some.inj hc'
    exact hsound
  · obtain rfl := CacheArray.allocated.inj hz'
    exact set_fileID (h.files ho caches hz) hcache hsame

theorem Stored.torn {caches : List CCache} {blockID : UInt64} {blockDataLen : Nat} (h : Stored s q)
    (ho : s.opened = true)
    (hc : s.disk.caCtrl = some c) (hz : s.zCache = .allocated caches) (hfull : c.isFull = false)
    (hst : tornBlock s c caches blockID blockDataLen = .ok (s', freed)) : Stored s' q := by
  unfold tornBlock at hst
  split at hst
  · cases hst
  rename_i cache hcache
  split at hst
  · cases hst
  rename_i d cache' hfill
  obtain ⟨⟨f, rfl, hf⟩, -⟩ := fillCache_eq hfill
  have hrear : cache.fileID = c.getRearCache := h.files ho caches hz _ cache hcache
  obtain ⟨-, -, hnot⟩ := Sound.pushBack (h.ctrl c hc) hfull
  cases hst
  refine ⟨?_, h.dir, h.ctrl, fun h' => by simp at h'⟩
  rw [Disk.blocks_some (d := s.disk.setFile cache.fileID f) hc, ← h.blocks, hrear]
  exact blocks_setFile hc f fun hmem => absurd hmem hnot

theorem truncate_blockID (f : CacheFile) {size : Nat} (h : 8 ≤ size) : (f.truncate size).blockID = f.blockID := by
  have hlt : f.blockID.toNat < 256 ^ size :=
    Nat.lt_of_lt_of_le f.blockID.toNat_lt (Nat.pow_le_pow_right (n := 256) (by omega) h)
  unfold CacheFile.truncate
  rw [Nat.mod_eq_of_lt hlt, UInt64.ofNat_toNat]

/-- `ResizeCache` changes the length of the file of the cache, at most. -/
theorem resizeCache_header (renv : ResizeEnv) (cache : CCache) (nSize : Nat) (h : 8 ≤ p.roundUp nSize increaseCacheFileSize) :
    (resizeCache p renv d cache nSize).2.1.fileID = cache.fileID ∧
      ((resizeCache p renv d cache nSize).1 = d ∨ ∃ f f', d.cacheFile cache.fileID = some f ∧ f'.blockID = f.blockID ∧
        (resizeCache p renv d cache nSize).1 = d.setFile cache.fileID f') := by
  have hmapped : ∀ (map malloc : Bool) (d : Disk) (f : CacheFile) (cache : CCache),
      (mapCacheFile p map malloc d f cache).2.1.fileID = cache.fileID := by
    intro map malloc d f cache
    unfold mapCacheFile
    split
    · rfl
    · cases malloc with
      | true => rfl
      | false => rfl
  unfold resizeCache
  extract_lets resized
  split
  · exact ⟨rfl, .inl rfl⟩
  rename_i f hf
  have hf : d.cacheFile cache.fileID = some f := by
    split at hf
    · exact hf
    · cases hf
  cases htrunc : renv.truncate with
  | false => exact ⟨rfl, .inl rfl⟩
  | true =>
    rw [if_pos rfl, hmapped]
    refine ⟨rfl, .inr ⟨f, f.truncate resized.shareMemLen, hf, truncate_blockID f h, ?_⟩⟩
    rw [mapCacheFile_disk (by rw [Disk.setFile_self]) (Nat.le_refl _)]
    rfl

theorem Stored.resized {caches : List CCache} {nSize : Nat} {renv : ResizeEnv} (h : Stored s q) (ho : s.opened = true)
    (hz : s.zCache = .allocated caches) (hkeep : 8 ≤ p.roundUp nSize increaseCacheFileSize)
    (hst : resizeBlock p renv s caches k nSize = .ok (s', freed)) : Stored s' q := by
  unfold resizeBlock at hst
  split at hst
  · cases hst
  rename_i cache hcache
  obtain ⟨hsame, hdisk⟩ := resizeCache_header (d := s.disk) renv cache nSize hkeep
  generalize resizeCache p renv s.disk cache nSize = r at hst hsame hdisk
  obtain ⟨d, cache', ret⟩ := r
  cases hst
  have hfiles : OwnFiles { s with disk := d, zCache := .allocated (caches.set k cache') } := by
    intro _ caches' hz'
    obtain rfl := CacheArray.allocated.inj hz'
    exact set_fileID (h.files ho caches hz) hcache hsame
  rcases hdisk with rfl | ⟨f, f', hf, hblock, rfl⟩
  · exact ⟨h.blocks, h.dir, h.ctrl, hfiles⟩
  · refine ⟨?_, h.dir, h.ctrl, hfiles⟩
    rw [← h.blocks]
    cases hc : s.disk.caCtrl with
    | none =>
      rw [Disk.blocks_empty (n := 0) (.inl hc)]
      exact Disk.blocks_empty (n := 0) (.inl hc)
    | some c =>
      rw [Disk.blocks_some (d := s.disk.setFile cache.fileID f') hc]
      apply blocks_setFile hc f'
      intro _
      unfold Disk.blockAt
      rw [hblock, hf]
      rfl

/-! ## Runs -/

theorem stored_step {e : Deed} (h : Stored s q) (hk : KeepsHeader p e) (hst : life p s e = .ok (s', freed)) :
    Stored s' (e.queued q) := by
  cases e with
  | killed =>
    cases hst
    exact h.closed rfl rfl
  | torn blockID blockDataLen =>
    obtain ⟨ho, c, caches, hc, hz, hst⟩ := State.use_eq_ok hst
    split at hst
    · cases hst
    · rename_i hfull
      exact h.torn ho hc hz (by simpa using hfull) hst
  | call e =>
    cases e with
    | openCall n env =>
      cases hst
      exact h.opened
    | close =>
      obtain ⟨hd, ho⟩ := closeCache_disk hst
      exact h.closed hd ho
    | pushBack blockID blockDataLen =>
      obtain ⟨ho, c, caches, hc, hz, hst⟩ := State.use_eq_ok hst
      split at hst
      · cases hst
      · rename_i hfull
        exact h.pushed ho hc hz (by simpa using hfull) hst
    | popFront =>
      obtain ⟨ho, c, caches, hc, hz, hst⟩ := State.use_eq_ok hst
      split at hst
      · cases hst
      · rename_i hempty
        obtain ⟨hsound, hocc⟩ := Sound.popFront (h.ctrl c hc) (by simpa using hempty)
        cases hst
        refine ⟨?_, fun _ _ => h.dir c hc, fun c' hc' => ?_, h.files⟩
        · show _ = q.tail
          rw [← h.blocks, Disk.blocks_some hc, hocc, List.map_cons, List.tail_cons]
          rfl
        · obtain rfl := Option.some.inj hc'
          exact hsound
    | resize k nSize renv =>
      obtain ⟨ho, c, caches, hc, hz, hst⟩ := State.use_eq_ok hst
      exact h.resized ho hz hk hst

theorem stored_init : Stored {} [] where
  blocks := rfl
  dir _ h := by cases h
  ctrl _ h := by cases h
  files h := by cases h

/-- In every life of a base path the disk holds the ids of the blocks that were pushed and not
popped, in their order: the front cache has the oldest of them, a push finds the ring full exactly
when there are as many as caches, and a pop finds it empty exactly when there is none. -/
theorem blocks_durable (p : Platform) (tr : List (Entry State Deed Dealloc)) (s : State)
    (h : Run (life p) {} (fun _ _ e => KeepsHeader p e) tr s) : Holds s (queue tr) := by
  apply Stored.holds
  apply h.invariant (fun tr s => Stored s (queue tr))
  · exact stored_init
  · intro tr s e s' outs _ hs hk hst
    have hstep := stored_step hs hk hst
    unfold queue at *
    rwa [List.foldl_append]

theorem blocks_durable_torn :
    let evs : List Deed := [.call (.openCall 2 .good), .call (.pushBack 7 100), .call (.pushBack 8 200), .call .popFront,
      .torn 9 300, .call (.openCall 2 .good), .call (.resize 1 1 ⟨true, true, true, true⟩), .call (.pushBack 10 100)]
    let s := final (life .plain) {} evs
    s.opened = true ∧ queue (trace (life .plain) {} evs) = [8, 10] ∧ Holds s (queue (trace (life .plain) {} evs)) := by
  intro evs s
  have hr : Run (life .plain) {} (fun _ _ e => KeepsHeader .plain e) (trace (life .plain) {} evs) s :=
    run_of_meets (life .plain) {} (fun _ _ e => KeepsHeader .plain e) evs (by decide)
  exact ⟨rfl, rfl, blocks_durable .plain _ s hr⟩

end

end VProtocol.Cache
