import VProtocol.Lib.Run
import VProtocol.Lib.Ring

/-!
# The control block of the block cache

`CBlockCacheManager::SCaCtrl` and the operations on it. The front index is that of the
cache that was filled first, the rear index that of the cache that is filled next.
-/

namespace VProtocol.Cache

structure CaCtrl where
  arrayLength : UInt32 := 0
  itemCount : UInt32 := 0
  frontIndex : UInt32 := 0
  rearIndex : UInt32 := 0
  deriving DecidableEq

namespace CaCtrl

def isFull (c : CaCtrl) : Bool := c.itemCount == c.arrayLength

def isEmpty (c : CaCtrl) : Bool := c.itemCount == 0

/-- The index `GetRearCache` takes the cache at. -/
def getRearCache (c : CaCtrl) : Nat := c.rearIndex.toNat

/-- The index `GetFrontCache` takes the cache at. -/
def getFrontCache (c : CaCtrl) : Nat := c.frontIndex.toNat

def pushBack (c : CaCtrl) : CaCtrl :=
  let rearIndex := c.rearIndex + 1
  { c with
    rearIndex := if rearIndex ≥ c.arrayLength then 0 else rearIndex
    itemCount := c.itemCount + 1 }

def popFront (c : CaCtrl) : CaCtrl :=
  let frontIndex := c.frontIndex + 1
  { c with
    frontIndex := if frontIndex ≥ c.arrayLength then 0 else frontIndex
    itemCount := c.itemCount - 1 }

def saveContext (c : CaCtrl) : CaCtrl := c

def restoreContext (_ cac : CaCtrl) : CaCtrl := cac

end CaCtrl

/-! ## Using the ring -/

/-- Which caches were filled and which were visited, each in the order in which it was done. -/
structure Trail where
  filled : List Nat := []
  visited : List Nat := []

/-- A saved context is kept with the trail of that time: a restore undoes what was done since. -/
structure CacheRing where
  ctrl : CaCtrl
  trail : Trail := {}
  saved : List (CaCtrl × Trail) := []

/-- `restoreContext k` goes back to the `k`-th saved context, the last one first. -/
inductive Op
  | pushBack
  | popFront
  | saveContext
  | restoreContext (k : Nat)

inductive Misuse
  | full
  | empty
  | notSaved

/-- A cache is filled before `PushBack` and visited before `PopFront`; the index of the cache is given out. -/
def useRing (r : CacheRing) : Op → Except Misuse (CacheRing × List Nat)
  | .pushBack =>
    if r.ctrl.isFull then .error .full
    else .ok ({ r with
      ctrl := r.ctrl.pushBack
      trail := { r.trail with filled := r.trail.filled ++ [r.ctrl.getRearCache] } }, [r.ctrl.getRearCache])
  | .popFront =>
    if r.ctrl.isEmpty then .error .empty
    else .ok ({ r with
      ctrl := r.ctrl.popFront
      trail := { r.trail with visited := r.trail.visited ++ [r.ctrl.getFrontCache] } }, [r.ctrl.getFrontCache])
  | .saveContext => .ok ({ r with saved := (r.ctrl.saveContext, r.trail) :: r.saved }, [])
  | .restoreContext k =>
    match r.saved[k]? with
    | none => .error .notSaved
    | some (cac, trail) => .ok ({ ctrl := r.ctrl.restoreContext cac, trail := trail, saved := r.saved.drop k }, [])

/-- The control block `Open` writes for `arrayLength` caches. -/
def CaCtrl.initial (arrayLength : UInt32) : CaCtrl := { arrayLength := arrayLength }

/-- The ring is a queue: what was filled is what was visited and, behind it, what still waits. -/
structure Fifo (r : CacheRing) (queue : List Nat) : Prop where
  order : r.trail.filled = r.trail.visited ++ queue
  length : queue.length = r.ctrl.itemCount.toNat
  distinct : queue.Nodup
  count : r.ctrl.itemCount ≤ r.ctrl.arrayLength
  front : r.ctrl.frontIndex < r.ctrl.arrayLength
  rear : r.ctrl.rearIndex < r.ctrl.arrayLength
  index : r.ctrl.rearIndex.toNat = (r.ctrl.frontIndex.toNat + r.ctrl.itemCount.toNat) % r.ctrl.arrayLength.toNat
  first : r.ctrl.isEmpty = false → queue.head? = some r.ctrl.getFrontCache
  free : r.ctrl.isFull = false → r.ctrl.getRearCache ∉ queue

/-! ## Tickets -/

/-- The control block and the trail after the tickets up to `b` were given and those up to `a` taken back. -/
structure Tickets (L : UInt32) (a b : Nat) (c : CaCtrl) (t : Trail) : Prop where
  window : Ring.Window L.toNat a b
  arrayLength : c.arrayLength = L
  itemCount : c.itemCount.toNat = b - a
  frontIndex : c.frontIndex.toNat = Ring.slot L.toNat a
  rearIndex : c.rearIndex.toNat = Ring.slot L.toNat b
  filled : t.filled = Ring.slots L.toNat 0 b
  visited : t.visited = Ring.slots L.toNat 0 a

structure RingInv (L : UInt32) (r : CacheRing) : Prop where
  now : ∃ a b, Tickets L a b r.ctrl r.trail
  saved : ∀ s ∈ r.saved, ∃ a b, Tickets L a b s.1 s.2

section
variable {L i : UInt32} {a b : Nat} {c : CaCtrl} {t : Trail} {r r' : CacheRing} {outs : List Nat}

theorem toNat_next (hL : 0 < L) (hi : i.toNat = Ring.slot L.toNat a) :
    (if i + 1 ≥ L then 0 else i + 1).toNat = Ring.slot L.toNat (a + 1) := by
  have hpos : 0 < L.toNat := hL
  have hlt : i.toNat < L.toNat := hi ▸ Ring.slot_lt hpos
  have hsucc : (i + 1).toNat = i.toNat + 1 := by
    rw [UInt32.toNat_add]
    exact Nat.mod_eq_of_lt (Nat.lt_of_le_of_lt hlt L.toNat_lt)
  rw [Ring.slot_succ hpos, ← hi, ← hsucc, apply_ite UInt32.toNat]
  exact if_congr UInt32.le_iff_toNat_le rfl rfl

theorem Tickets.isFull (h : Tickets L a b c t) : c.isFull = false ↔ b < a + L.toNat := by
  have hle := h.window.le
  have hfit := h.window.fit
  unfold CaCtrl.isFull
  rw [beq_eq_false_iff_ne, ne_eq, ← UInt32.toNat_inj, h.itemCount, h.arrayLength]
  omega

theorem Tickets.isEmpty (h : Tickets L a b c t) : c.isEmpty = false ↔ a < b := by
  have hle := h.window.le
  unfold CaCtrl.isEmpty
  rw [beq_eq_false_iff_ne, ne_eq, ← UInt32.toNat_inj, h.itemCount, UInt32.toNat_zero]
  omega

theorem tickets_initial (L : UInt32) : Tickets L 0 0 (.initial L) {} :=
  ⟨⟨Nat.le_refl 0, Nat.zero_le _⟩, rfl, rfl, (Nat.zero_mod _).symm, (Nat.zero_mod _).symm, rfl, rfl⟩

theorem Tickets.pushBack (hL : 0 < L) (h : Tickets L a b c t) (hfull : c.isFull = false) :
    Tickets L a (b + 1) c.pushBack { t with filled := t.filled ++ [c.getRearCache] } := by
  have hle := h.window.le
  have hlt := h.isFull.mp hfull
  have hcount : (c.itemCount + 1).toNat = b + 1 - a := by
    have hL := L.toNat_lt
    rw [UInt32.toNat_add, h.itemCount, UInt32.toNat_one, Nat.mod_eq_of_lt (by omega)]
    omega
  refine ⟨⟨by omega, by omega⟩, h.arrayLength, hcount, h.frontIndex, ?_, ?_, h.visited⟩
  · unfold CaCtrl.pushBack
    rw [h.arrayLength]
    exact toNat_next hL h.rearIndex
  · unfold CaCtrl.getRearCache
    rw [h.filled, h.rearIndex, Ring.slots_succ (Nat.zero_le b)]

theorem Tickets.popFront (hL : 0 < L) (h : Tickets L a b c t) (hempty : c.isEmpty = false) :
    Tickets L (a + 1) b c.popFront { t with visited := t.visited ++ [c.getFrontCache] } := by
  have hlt := h.isEmpty.mp hempty
  have hfit := h.window.fit
  have hcount : (c.itemCount - 1).toNat = b - (a + 1) := by
    rw [UInt32.toNat_sub_of_le, h.itemCount, UInt32.toNat_one]
    · omega
    · rw [UInt32.le_iff_toNat_le, h.itemCount, UInt32.toNat_one]
      omega
  refine ⟨⟨hlt, by omega⟩, h.arrayLength, hcount, ?_, h.rearIndex, h.filled, ?_⟩
  · unfold CaCtrl.popFront
    rw [h.arrayLength]
    exact toNat_next hL h.frontIndex
  · unfold CaCtrl.getFrontCache
    rw [h.visited, h.frontIndex, Ring.slots_succ (Nat.zero_le a)]

theorem Tickets.fifo (hL : 0 < L) (h : Tickets L a b r.ctrl r.trail) : Fifo r (Ring.slots L.toNat a b) := by
  have hpos : 0 < L.toNat := hL
  have hle := h.window.le
  have hfit := h.window.fit
  refine ⟨?_, ?_, h.window.nodup, ?_, ?_, ?_, ?_, fun he => ?_, fun hf => ?_⟩
  · rw [h.filled, h.visited, Ring.slots_append (Nat.zero_le a) hle]
  · rw [Ring.length_slots, h.itemCount]
  · rw [UInt32.le_iff_toNat_le, h.itemCount, h.arrayLength]
    omega
  · rw [UInt32.lt_iff_toNat_lt, h.frontIndex, h.arrayLength]
    exact Ring.slot_lt hpos
  · rw [UInt32.lt_iff_toNat_lt, h.rearIndex, h.arrayLength]
    exact Ring.slot_lt hpos
  · rw [h.rearIndex, h.frontIndex, h.itemCount, h.arrayLength]
    exact h.window.slot_end
  · unfold CaCtrl.getFrontCache
    rw [h.frontIndex]
    exact Ring.head?_slots (h.isEmpty.mp he)
  · unfold CaCtrl.getRearCache
    rw [h.rearIndex]
    exact h.window.slot_notMem (h.isFull.mp hf)

/-! ## Runs -/

theorem ringInv_step (hL : 0 < L) (hr : RingInv L r) {op : Op} (h : useRing r op = .ok (r', outs)) : RingInv L r' := by
  obtain ⟨a, b, hnow⟩ := hr.now
  cases op with
  | pushBack =>
    unfold useRing at h
    cases hf : r.ctrl.isFull with
    | true => simp [hf] at h
    | false =>
      simp only [hf, Bool.false_eq_true, if_false, Except.ok.injEq, Prod.mk.injEq] at h
      rw [← h.1]
      exact ⟨⟨a, b + 1, hnow.pushBack hL hf⟩, hr.saved⟩
  | popFront =>
    unfold useRing at h
    cases he : r.ctrl.isEmpty with
    | true => simp [he] at h
    | false =>
      simp only [he, Bool.false_eq_true, if_false, Except.ok.injEq, Prod.mk.injEq] at h
      rw [← h.1]
      exact ⟨⟨a + 1, b, hnow.popFront hL he⟩, hr.saved⟩
  | saveContext =>
    cases h
    exact ⟨hr.now, List.forall_mem_cons.mpr ⟨hr.now, hr.saved⟩⟩
  | restoreContext k =>
    unfold useRing at h
    cases hk : r.saved[k]? with
    | none => simp [hk] at h
    | some s =>
      simp only [hk, Except.ok.injEq, Prod.mk.injEq] at h
      rw [← h.1]
      exact ⟨hr.saved s (List.mem_of_getElem? hk), fun s hs => hr.saved s (List.mem_of_mem_drop hs)⟩

theorem run_ringInv (hL : 0 < L) {tr} (h : Run useRing ⟨.initial L, {}, []⟩ anyStep tr r) : RingInv L r := by
  apply h.invariant (fun _ r => RingInv L r)
  · exact ⟨⟨0, 0, tickets_initial L⟩, List.forall_mem_nil _⟩
  · intro _ _ _ _ _ _ hr _ hst
    exact ringInv_step hL hr hst

/-- The block cache ring is a queue, whatever was undone in between. -/
theorem ring_fifo (L : UInt32) (hL : 1 ≤ L) (tr : List (Entry CacheRing Op Nat)) (r : CacheRing)
    (h : Run useRing ⟨.initial L, {}, []⟩ anyStep tr r) : r.ctrl.arrayLength = L ∧ ∃ queue, Fifo r queue := by
  have hpos : 0 < L := by
    rw [UInt32.lt_iff_toNat_lt]
    exact UInt32.le_iff_toNat_le.mp hL
  obtain ⟨a, b, hnow⟩ := (run_ringInv hpos h).now
  exact ⟨hnow.arrayLength, _, hnow.fifo hpos⟩

theorem ring_fifo_three :
    let ops := [.pushBack, .pushBack, .saveContext, .pushBack, .restoreContext 0, .popFront, .pushBack, .pushBack]
    let r := final useRing ⟨.initial 3, {}, []⟩ ops
    r.trail.filled = [0, 1, 2, 0] ∧ r.ctrl.isFull = true ∧ r.ctrl.arrayLength = 3 ∧ ∃ queue, Fifo r queue := by
  intro ops r
  have hr := ring_fifo 3 (by decide) _ r (run_trace_any ops)
  exact ⟨by decide, by decide, hr⟩

end

end VProtocol.Cache
