import VProtocol.Lib.Ring
import VProtocol.Lib.Run
import VProtocol.Mq.TypeArray

/-!
# What a `CTypeArray` guarantees

One array from its construction on, with the block that its slots are in: the
block grows before it is full, until the count of its slots, which has 32 bits,
wraps around. `Get` goes round the elements, and a walk may delete each element
it comes to, since the element that fills the hole is the one to visit next.
-/

namespace VProtocol.Mq

open Function (update)

namespace TypeArray

/-- `insert` into the block: the element is written before the block grows. -/
def insertIn (p : Ptr) (ix : Indices) (a : TypeArray) : Res (TypeArray × Indices) :=
  match ix p with
  | some _ => .ok (a, ix)
  | none =>
    if a.allocNum ≤ a.elems.length then .error .outOfRange
    else
      let elems := a.elems ++ [p]
      let ix := update ix p (some a.elems.length)
      if elems.length = a.allocNum then
        let allocNum := (a.allocNum + stepEnlargeNum) % 2 ^ 32
        -- the old slots are copied into the new block
        if allocNum < elems.length then .error .outOfRange
        else .ok ({ a with elems, allocNum }, ix)
      else .ok ({ a with elems }, ix)

/-- `n` calls of `Get`. -/
def gets : Nat → TypeArray → TypeArray × List (Option Ptr)
  | 0, a => (a, [])
  | n + 1, a =>
    let r := a.get
    let r' := gets n r.1
    (r'.1, r.2 :: r'.2)

end TypeArray

/-- The array and the indices in its elements, which are outside to begin with. -/
structure ArrayState where
  array : TypeArray := {}
  indices : Indices := fun _ => none

inductive ArrayOp where
  | insert (p : Ptr)
  | delete (p : Ptr)
  | get
  | begin
  | next (p : Ptr)

namespace ArrayState

def step (s : ArrayState) : ArrayOp → Res (ArrayState × List (Option Ptr))
  | .insert p => do
    let r ← s.array.insertIn p s.indices
    .ok (⟨r.1, r.2⟩, [])
  | .delete p => do
    let r ← s.array.delete p s.indices
    .ok (⟨r.1, r.2.1⟩, [r.2.2])
  | .get => .ok (⟨s.array.get.1, s.indices⟩, [s.array.get.2])
  | .begin => .ok (s, [s.array.begin])
  | .next p => .ok (s, [s.array.next p s.indices])

/-- A walk from an element on that deletes what `del` says; `n` elements are visited. -/
def walk (del : Ptr → Bool) (s : ArrayState) : Nat → Option Ptr → Res (List Ptr × ArrayState)
  | _, none => .ok ([], s)
  | 0, some _ => .error .endless
  | n + 1, some p =>
    if del p then do
      let r ← s.array.delete p s.indices
      let w ← walk del ⟨r.1, r.2.1⟩ n r.2.2
      .ok (p :: w.1, w.2)
    else do
      let w ← walk del s n (s.array.next p s.indices)
      .ok (p :: w.1, w.2)

/-! ## The property -/

/-- How many elements are too many: the block of so many slots cannot grow. -/
def maxElems : Nat := 2 ^ 32 - stepEnlargeNum

structure Right (s : ArrayState) : Prop where
  placed : TypeArray.Placed s.array s.indices
  outside : ∀ p, p ∉ s.array.elems → s.indices p = none
  room : s.array.elems.length < s.array.allocNum
  insert : ∀ p, p ∈ s.array.elems ∨ s.array.elems.length + 1 < maxElems →
    ∃ s', s.step (.insert p) = .ok (s', []) ∧ ∀ q, q ∈ s'.array.elems ↔ q = p ∨ q ∈ s.array.elems
  delete : ∀ p, ∃ s' next, s.step (.delete p) = .ok (s', [next]) ∧
    ∀ q, q ∈ s'.array.elems ↔ q ≠ p ∧ q ∈ s.array.elems
  gets : ∃ l : List Ptr, (s.array.gets s.array.size).2 = l.map some ∧ l.Perm s.array.elems
  walk : ∀ del, ∃ visited s', s.walk del s.array.size s.array.begin = .ok (visited, s') ∧
    visited.Perm s.array.elems ∧ ∀ q, q ∈ s'.array.elems ↔ q ∈ s.array.elems ∧ del q = false

/-- Every operation keeps it. -/
structure Inv (s : ArrayState) : Prop where
  placed : TypeArray.Placed s.array s.indices
  outside : ∀ p, p ∉ s.array.elems → s.indices p = none
  room : s.array.elems.length < s.array.allocNum
  steps : stepEnlargeNum ∣ s.array.allocNum
  block : s.array.allocNum ≤ maxElems
  index : s.array.index = 0 ∨ s.array.index < s.array.elems.length

end ArrayState

namespace TypeArray

variable {a : TypeArray} {ix : Indices} {p : Ptr}

theorem delete_eq {i : Nat} (hix : ix p = some i) (hne : a.elems ≠ []) :
    ∃ ix', a.delete p ix = .ok (⟨swapErase a.elems i, a.allocNum,
      if (swapErase a.elems i).length ≤ a.index then 0 else a.index⟩, ix', movedBy a.elems i) := by
  unfold TypeArray.delete
  simp only [hix, if_neg hne]
  exact ⟨_, rfl⟩

theorem get_spec (hindex : a.index < a.elems.length) :
    a.get = ({ a with index := Ring.slot a.elems.length (a.index + 1) },
      a.elems[Ring.slot a.elems.length (a.index + 1)]?) := by
  have hne : a.elems ≠ [] := fun h => by simp [h] at hindex
  unfold get Ring.slot
  rw [if_neg hne]
  by_cases hlt : a.index + 1 < a.elems.length
  · rw [if_pos hlt, Nat.mod_eq_of_lt hlt]
  · have hlast : a.index + 1 = a.elems.length := by omega
    rw [if_neg hlt, hlast, Nat.mod_self]

theorem gets_reads (hindex : a.index < a.elems.length) (n : Nat) :
    ∃ l : List Ptr, (a.gets n).2 = l.map some ∧ l.length = n ∧ Ring.Reads a.elems (a.index + 1) l := by
  induction n generalizing a with
  | zero => exact ⟨[], rfl, rfl, fun j x hx => by simp at hx⟩
  | succ n ih =>
    have hslot : Ring.slot a.elems.length (a.index + 1) < a.elems.length := Ring.slot_lt (by omega)
    obtain ⟨l, hl, hlen, hreads⟩ := ih (a := { a with index := Ring.slot a.elems.length (a.index + 1) }) hslot
    refine ⟨a.elems[Ring.slot a.elems.length (a.index + 1)] :: l, ?_, ?_, ?_⟩
    · unfold gets
      rw [get_spec hindex, List.map_cons, ← hl, List.getElem?_eq_getElem hslot]
    · rw [List.length_cons, hlen]
    · exact Ring.Reads.cons (List.getElem?_eq_getElem hslot) (Ring.reads_slot.mp hreads)

end TypeArray

namespace ArrayState

section
variable {s s' : ArrayState} {p : Ptr} {outs : List (Option Ptr)}

theorem inv_init : Inv {} :=
  ⟨TypeArray.placed_empty _, fun _ _ => rfl, by decide, by decide, by decide, .inl rfl⟩

theorem Inv.mem_iff (hi : s.Inv) : p ∈ s.array.elems ↔ (s.indices p).isSome := by
  constructor
  · exact hi.placed.isSome
  · intro hsome
    by_contra hp
    rw [hi.outside p hp] at hsome
    cases hsome

/-! ## Insertion -/

theorem Inv.insertIn (hi : s.Inv) (hp : s.indices p = none) (hlt : s.array.elems.length + 1 < maxElems) :
    s.array.insertIn p s.indices = .ok (s.array.insert p s.indices) := by
  have hroom := hi.room
  have hsteps := hi.steps
  unfold maxElems stepEnlargeNum at *
  unfold TypeArray.insertIn TypeArray.insert stepEnlargeNum
  rw [hp]
  simp only [List.length_append, List.length_singleton, if_neg (Nat.not_le.mpr hroom)]
  by_cases hfull : s.array.elems.length + 1 = s.array.allocNum
  · have hwrap : (s.array.allocNum + 64) % 2 ^ 32 = s.array.allocNum + 64 := Nat.mod_eq_of_lt (by omega)
    have hcopy : ¬s.array.allocNum + 64 < s.array.elems.length + 1 := by omega
    simp only [if_pos hfull, hwrap, if_neg hcopy]
  · simp only [if_neg hfull]

theorem Inv.insertIn_full (hi : s.Inv) (hp : s.indices p = none) (hlen : s.array.elems.length + 1 = maxElems) :
    s.array.insertIn p s.indices = .error .outOfRange := by
  have hroom := hi.room
  have hblock := hi.block
  have hfull : s.array.elems.length + 1 = s.array.allocNum := by omega
  have hwrap : (s.array.allocNum + stepEnlargeNum) % 2 ^ 32 = 0 := by
    rw [← hfull, hlen]
    rfl
  unfold TypeArray.insertIn
  rw [hp]
  simp only [List.length_append, List.length_singleton, if_neg (Nat.not_le.mpr hroom), if_pos hfull, hwrap,
    if_pos (Nat.succ_pos _)]

theorem Inv.inserted (hi : s.Inv) (hp : s.indices p = none) (hlt : s.array.elems.length + 1 < maxElems) :
    Inv ⟨(s.array.insert p s.indices).1, (s.array.insert p s.indices).2⟩ := by
  obtain ⟨helems, hix⟩ := TypeArray.insert_elems s.array hp
  have hroom := hi.room
  have hsteps := hi.steps
  have hblock := hi.block
  have hindex : (s.array.insert p s.indices).1.index = s.array.index := by
    unfold TypeArray.insert
    rw [hp]
  have halloc : (s.array.insert p s.indices).1.allocNum =
      if s.array.elems.length + 1 = s.array.allocNum then s.array.allocNum + stepEnlargeNum else s.array.allocNum := by
    unfold TypeArray.insert
    rw [hp]
    simp only [List.length_append, List.length_singleton]
  unfold maxElems stepEnlargeNum at *
  refine ⟨hi.placed.insert hp, fun q hq => ?_, ?_, ?_, ?_, ?_⟩
  · rw [helems, List.mem_append, List.mem_singleton, not_or] at hq
    show (s.array.insert p s.indices).2 q = none
    rw [hix, Function.update_of_ne hq.2]
    exact hi.outside q hq.1
  · show (s.array.insert p s.indices).1.elems.length < (s.array.insert p s.indices).1.allocNum
    rw [helems, halloc, List.length_append, List.length_singleton]
    split <;> omega
  · show 64 ∣ (s.array.insert p s.indices).1.allocNum
    rw [halloc]
    split <;> omega
  · show (s.array.insert p s.indices).1.allocNum ≤ 2 ^ 32 - 64
    rw [halloc]
    split <;> omega
  · show (s.array.insert p s.indices).1.index = 0 ∨
      (s.array.insert p s.indices).1.index < (s.array.insert p s.indices).1.elems.length
    rw [hindex, helems, List.length_append]
    exact hi.index.imp_right fun h => Nat.lt_add_right _ h

theorem Inv.step_insert_mem (hi : s.Inv) (hp : p ∈ s.array.elems) : s.step (.insert p) = .ok (s, []) := by
  obtain ⟨i, hix⟩ := Option.isSome_iff_exists.mp (hi.mem_iff.mp hp)
  unfold ArrayState.step TypeArray.insertIn
  simp only [hix]
  rfl

theorem Inv.step_insert (hi : s.Inv) (hp : p ∉ s.array.elems) (hlt : s.array.elems.length + 1 < maxElems) :
    s.step (.insert p) = .ok (⟨(s.array.insert p s.indices).1, (s.array.insert p s.indices).2⟩, []) := by
  unfold ArrayState.step
  simp only [hi.insertIn (hi.outside p hp) hlt]
  rfl

/-! ## Deletion -/

theorem Inv.deleted (hi : s.Inv) (hp : p ∈ s.array.elems) : ∃ i a' ix' next, s.array.elems[i]? = some p ∧
    s.array.delete p s.indices = .ok (a', ix', next) ∧ Inv ⟨a', ix'⟩ ∧ a'.elems = swapErase s.array.elems i ∧
    next = a'.elems[i]? := by
  obtain ⟨a', ix', next, hdel, hmem, hlen, hplaced, hgone, hkept⟩ := hi.placed.delete hp
  obtain ⟨i, hi'⟩ := List.mem_iff_getElem?.mp hp
  obtain ⟨ix'', heq⟩ := TypeArray.delete_eq (hi.placed.slot i p hi') (List.ne_nil_of_mem hp)
  obtain ⟨ha', -, hnext⟩ := Except.ok_triple (hdel.symm.trans heq)
  have hlt := (List.getElem?_eq_some_iff.mp hi').1
  have helems : a'.elems = swapErase s.array.elems i := by rw [ha']
  refine ⟨i, a', ix', next, hi', hdel, ⟨hplaced, fun q hq => ?_, ?_, ?_, ?_, ?_⟩, helems, ?_⟩
  · by_cases hqp : q = p
    · rw [hqp]
      exact hgone
    · have hout : q ∉ s.array.elems := fun hq' => hq ((hmem q).mpr ⟨hqp, hq'⟩)
      exact (hkept q hout).trans (hi.outside q hout)
  · show a'.elems.length < a'.allocNum
    have hroom := hi.room
    have halloc : a'.allocNum = s.array.allocNum := by rw [ha']
    omega
  · show stepEnlargeNum ∣ a'.allocNum
    rw [ha']
    exact hi.steps
  · show a'.allocNum ≤ maxElems
    rw [ha']
    exact hi.block
  · show a'.index = 0 ∨ a'.index < a'.elems.length
    rw [ha']
    by_cases hle : (swapErase s.array.elems i).length ≤ s.array.index
    · exact .inl (if_pos hle)
    · right
      simp only [if_neg hle]
      exact Nat.lt_of_not_le hle
  · rw [hnext, helems, getElem?_swapErase_self hlt]

theorem Inv.step_delete_none (hi : s.Inv) (hp : p ∉ s.array.elems) : s.step (.delete p) = .ok (s, [none]) := by
  unfold ArrayState.step
  simp only [TypeArray.delete_none s.array (hi.outside p hp)]
  rfl

/-! ## Reading in turn -/

theorem Inv.gets (hi : s.Inv) : ∃ l : List Ptr, (s.array.gets s.array.size).2 = l.map some ∧ l.Perm s.array.elems := by
  by_cases hne : s.array.elems = []
  · refine ⟨[], ?_, ?_⟩
    · simp [TypeArray.size, hne, TypeArray.gets]
    · rw [hne]
  · have hpos := List.length_pos_iff.mpr hne
    have hindex : s.array.index < s.array.elems.length := by
      rcases hi.index with h | h
      · rw [h]
        exact hpos
      · exact h
    obtain ⟨l, hl, hlen, hreads⟩ := TypeArray.gets_reads hindex s.array.size
    exact ⟨l, hl, hreads.perm hi.placed.nodup hlen⟩

/-! ## Walking -/

/-- A walk from slot `k` on visits what is behind the slot, and what of it is to be deleted goes. -/
structure Walked (del : Ptr → Bool) (s : ArrayState) (k : Nat) (visited : List Ptr) (s' : ArrayState) : Prop where
  visited : visited.Perm (s.array.elems.drop k)
  left : ∀ q, q ∈ s'.array.elems ↔ q ∈ s.array.elems ∧ (q ∈ s.array.elems.drop k → del q = false)

variable {del : Ptr → Bool} {k n : Nat} {visited : List Ptr}

theorem Walked.done (hk : s.array.elems.drop k = []) : Walked del s k [] s := by
  refine ⟨?_, fun q => ?_⟩
  · rw [hk]
  · rw [hk]
    exact ⟨fun h => ⟨h, nofun⟩, fun h => h.1⟩

theorem drop_eq_cons {l : List Ptr} (hp : l[k]? = some p) : l.drop k = p :: l.drop (k + 1) := by
  obtain ⟨hk, rfl⟩ := List.getElem?_eq_some_iff.mp hp
  exact List.drop_eq_getElem_cons hk

/-- The erasure leaves the slots before its own alone and brings the next element to it. -/
theorem Walked.deleted (hn : s.array.elems.Nodup) (hp : s.array.elems[k]? = some p) (hdel : del p = true)
    {t : ArrayState} (ht : t.array.elems = swapErase s.array.elems k) (h : Walked del t k visited s') :
    Walked del s k (p :: visited) s' := by
  have hk := (List.getElem?_eq_some_iff.mp hp).1
  have hperm : (t.array.elems.drop k).Perm (s.array.elems.drop (k + 1)) := ht ▸ drop_swapErase_perm hk
  refine ⟨?_, fun q => ?_⟩
  · rw [drop_eq_cons hp]
    exact (h.visited.trans hperm).cons p
  · have htaken : q ∈ t.array.elems ↔ q ≠ p ∧ q ∈ s.array.elems := ht ▸ mem_swapErase (takenBy_of_getElem? hp) hn
    rw [h.left q, htaken, hperm.mem_iff, drop_eq_cons hp, List.mem_cons]
    constructor
    · rintro ⟨⟨hne, hq⟩, hkept⟩
      exact ⟨hq, fun h => hkept (h.resolve_left hne)⟩
    · rintro ⟨hq, hkept⟩
      have hne : q ≠ p := by
        rintro rfl
        rw [hkept (.inl rfl)] at hdel
        cases hdel
      exact ⟨⟨hne, hq⟩, fun h => hkept (.inr h)⟩

theorem Walked.passed (hp : s.array.elems[k]? = some p) (hdel : ¬del p = true) (h : Walked del s (k + 1) visited s') :
    Walked del s k (p :: visited) s' := by
  refine ⟨?_, fun q => ?_⟩
  · rw [drop_eq_cons hp]
    exact h.visited.cons p
  · rw [h.left q, drop_eq_cons hp, List.mem_cons]
    constructor
    · rintro ⟨hq, hkept⟩
      refine ⟨hq, fun h => ?_⟩
      rcases h with rfl | h
      · exact Bool.eq_false_iff.mpr hdel
      · exact hkept h
    · exact fun ⟨hq, hkept⟩ => ⟨hq, fun h => hkept (.inr h)⟩

/-- The walk takes as many steps as there are elements behind slot `k`, whatever it deletes. -/
theorem Inv.walk (hi : s.Inv) (hlen : (s.array.elems.drop k).length ≤ n) :
    ∃ visited s', s.walk del n s.array.elems[k]? = .ok (visited, s') ∧ Walked del s k visited s' := by
  induction n generalizing s k with
  | zero =>
    have hdrop : s.array.elems.drop k = [] := List.eq_nil_of_length_eq_zero (Nat.le_zero.mp hlen)
    rw [List.getElem?_eq_none (List.drop_eq_nil_iff.mp hdrop)]
    exact ⟨[], s, rfl, .done hdrop⟩
  | succ n ih =>
    cases hp : s.array.elems[k]? with
    | none => exact ⟨[], s, rfl, .done (List.drop_eq_nil_iff.mpr (List.getElem?_eq_none_iff.mp hp))⟩
    | some p =>
      have hrest : (s.array.elems.drop (k + 1)).length ≤ n := by
        rw [drop_eq_cons hp, List.length_cons] at hlen
        exact Nat.le_of_succ_le_succ hlen
      have hk := (List.getElem?_eq_some_iff.mp hp).1
      unfold ArrayState.walk
      by_cases hdel : del p = true
      · obtain ⟨i, a', ix', next, hi', hdeleted, hinv, helems, hnext⟩ := hi.deleted (List.mem_of_getElem? hp)
        obtain rfl : k = i := (List.getElem?_inj hk hi.placed.nodup).mp (hp.trans hi'.symm)
        have hlen' : (a'.elems.drop k).length ≤ n := by
          rw [helems, (drop_swapErase_perm hk).length_eq]
          exact hrest
        obtain ⟨visited, s', hwalk, hwalked⟩ := ih hinv hlen'
        refine ⟨p :: visited, s', ?_, hwalked.deleted hi.placed.nodup hp hdel helems⟩
        simp only [if_pos hdel, hdeleted, Except.ok_bind, hnext]
        rw [hwalk]
        rfl
      · obtain ⟨visited, s', hwalk, hwalked⟩ := ih hi hrest
        refine ⟨p :: visited, s', ?_, hwalked.passed hp hdel⟩
        rw [if_neg hdel, hi.placed.next hp, hwalk]
        rfl

/-! ## Runs -/

theorem Inv.step (hi : s.Inv) {op : ArrayOp} (hs : s.step op = .ok (s', outs)) : s'.Inv := by
  cases op with
  | insert p =>
    by_cases hp : p ∈ s.array.elems
    · obtain ⟨rfl, -⟩ := Prod.mk.inj (Except.ok.inj ((hi.step_insert_mem hp).symm.trans hs))
      exact hi
    · by_cases hlt : s.array.elems.length + 1 < maxElems
      · obtain ⟨rfl, -⟩ := Prod.mk.inj (Except.ok.inj ((hi.step_insert hp hlt).symm.trans hs))
        exact hi.inserted (hi.outside p hp) hlt
      · have hroom := hi.room
        have hblock := hi.block
        obtain ⟨r, hr, -⟩ := Except.bind_eq_ok.mp hs
        rw [hi.insertIn_full (hi.outside p hp) (by omega)] at hr
        cases hr
  | delete p =>
    by_cases hp : p ∈ s.array.elems
    · obtain ⟨i, a', ix', next, -, hdel, hinv, -, -⟩ := hi.deleted hp
      obtain ⟨r, hr, hs⟩ := Except.bind_eq_ok.mp hs
      obtain rfl := Except.ok.inj (hdel.symm.trans hr)
      obtain ⟨rfl, -⟩ := Prod.mk.inj (Except.ok.inj hs)
      exact hinv
    · obtain ⟨rfl, -⟩ := Prod.mk.inj (Except.ok.inj ((hi.step_delete_none hp).symm.trans hs))
      exact hi
  | get =>
    obtain ⟨rfl, -⟩ := Prod.mk.inj (Except.ok.inj hs)
    by_cases hlt : s.array.index < s.array.elems.length
    · rw [TypeArray.get_spec hlt]
      exact ⟨hi.placed.of_elems rfl, hi.outside, hi.room, hi.steps, hi.block, .inr (Ring.slot_lt (by omega))⟩
    · have hzero := hi.index.resolve_right hlt
      have hnil : s.array.elems = [] := List.eq_nil_of_length_eq_zero (by omega)
      have hsame : s.array.get = (s.array, none) := by
        unfold TypeArray.get
        rw [if_pos hnil]
      rw [hsame]
      exact hi
  | begin =>
    obtain ⟨rfl, -⟩ := Prod.mk.inj (Except.ok.inj hs)
    exact hi
  | next p =>
    obtain ⟨rfl, -⟩ := Prod.mk.inj (Except.ok.inj hs)
    exact hi

theorem Inv.of_run {tr : List (Entry ArrayState ArrayOp (Option Ptr))} (h : Run ArrayState.step {} anyStep tr s) :
    s.Inv :=
  h.invariant (fun _ s => s.Inv) inv_init fun _ _ _ _ _ _ hi _ hs => hi.step hs

theorem Inv.right (hi : s.Inv) : s.Right := by
  refine ⟨hi.placed, hi.outside, hi.room, fun p hp => ?_, fun p => ?_, hi.gets, fun del => ?_⟩
  · by_cases hin : p ∈ s.array.elems
    · exact ⟨s, hi.step_insert_mem hin, fun q => ⟨.inr, fun h => h.elim (fun he => he ▸ hin) id⟩⟩
    · refine ⟨_, hi.step_insert hin (hp.resolve_left hin), fun q => ?_⟩
      rw [(TypeArray.insert_elems s.array (hi.outside p hin)).1, List.mem_append, List.mem_singleton, or_comm]
  · by_cases hin : p ∈ s.array.elems
    · obtain ⟨i, a', ix', next, hat, hdel, -, helems, -⟩ := hi.deleted hin
      refine ⟨⟨a', ix'⟩, next, ?_, fun q => ?_⟩
      · unfold ArrayState.step
        simp only [hdel]
        rfl
      · exact helems ▸ mem_swapErase (takenBy_of_getElem? hat) hi.placed.nodup
    · refine ⟨s, none, hi.step_delete_none hin, fun q => ⟨fun hq => ⟨?_, hq⟩, fun h => h.2⟩⟩
      rintro rfl
      exact hin hq
  · obtain ⟨visited, s', hwalk, hwalked⟩ : ∃ visited s', s.walk del s.array.size s.array.begin = .ok (visited, s') ∧
        Walked del s 0 visited s' := hi.walk (Nat.le_refl _)
    refine ⟨visited, s', hwalk, hwalked.visited, fun q => (hwalked.left q).trans ?_⟩
    exact ⟨fun ⟨hq, hkept⟩ => ⟨hq, hkept hq⟩, fun ⟨hq, hkept⟩ => ⟨hq, fun _ => hkept⟩⟩

theorem run_inserts (n : Nat) (hn : n < maxElems) : ∃ tr s, Run ArrayState.step {} anyStep tr s ∧
    s.array.elems = List.range n := by
  induction n with
  | zero => exact ⟨[], {}, .nil, rfl⟩
  | succ n ih =>
    obtain ⟨tr, s, hr, helems⟩ := ih (Nat.lt_of_succ_lt hn)
    have hi := Inv.of_run hr
    have hp : n ∉ s.array.elems := by
      rw [helems, List.mem_range]
      exact Nat.lt_irrefl n
    have hlen : s.array.elems.length + 1 < maxElems := by rwa [helems, List.length_range]
    refine ⟨_, _, hr.snoc trivial (hi.step_insert hp hlen), ?_⟩
    show (s.array.insert n s.indices).1.elems = List.range (n + 1)
    rw [(TypeArray.insert_elems s.array (hi.outside n hp)).1, helems, List.range_succ]

end

end ArrayState

/-- After every sequence of operations the array is as it should be, as long as there are not too many elements. -/
theorem type_array_right {tr : List (Entry ArrayState ArrayOp (Option Ptr))} {s : ArrayState}
    (h : Run ArrayState.step {} anyStep tr s) : s.Right :=
  (ArrayState.Inv.of_run h).right

theorem type_array_right_two :
    (final ArrayState.step {} ([.insert 5, .insert 7, .delete 5, .get] : List ArrayOp)).Right :=
  type_array_right (run_trace_any ([.insert 5, .insert 7, .delete 5, .get] : List ArrayOp))

/-- The insertion that would make it 2^32 - 64 elements copies them into a block of no slots. -/
theorem type_array_overflow : ¬∀ (tr : List (Entry ArrayState ArrayOp (Option Ptr))) (s : ArrayState),
    Run ArrayState.step {} anyStep tr s → ∀ p, ∃ s', s.step (.insert p) = .ok (s', []) := by
  intro hall
  obtain ⟨tr, s, hr, helems⟩ := ArrayState.run_inserts (ArrayState.maxElems - 1) (Nat.sub_lt (by decide) Nat.one_pos)
  have hi := ArrayState.Inv.of_run hr
  have hp : ArrayState.maxElems ∉ s.array.elems := by
    rw [helems, List.mem_range]
    omega
  obtain ⟨s', hs⟩ := hall tr s hr ArrayState.maxElems
  obtain ⟨r, hr', -⟩ := Except.bind_eq_ok.mp hs
  rw [hi.insertIn_full (hi.outside _ hp) (by rw [helems, List.length_range]; rfl)] at hr'
  cases hr'

end VProtocol.Mq
