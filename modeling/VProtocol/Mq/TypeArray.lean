import Mathlib.Logic.Function.Basic
import VProtocol.Lib.SwapArray
import VProtocol.Mq.Msg

/-!
# `CTypeArray`

The elements are pointers, and each element stores its own index; the members of the
elements are apart from the array. An index of -1 is `none`.
-/

namespace VProtocol.Mq

open Function (update)

abbrev Indices := Ptr → Option Nat

def stepEnlargeNum : Nat := 64

/-- `elems` are the slots below `m_nCurNum`; `index` is where `Get` is. -/
structure TypeArray where
  elems : List Ptr := []
  allocNum : Nat := stepEnlargeNum
  index : Nat := 0
  deriving DecidableEq

namespace TypeArray

def insert (p : Ptr) (ix : Indices) (a : TypeArray) : TypeArray × Indices :=
  match ix p with
  | some _ => (a, ix)
  | none =>
    let elems := a.elems ++ [p]
    let allocNum := if elems.length = a.allocNum then a.allocNum + stepEnlargeNum else a.allocNum
    ({ a with elems := elems, allocNum := allocNum }, update ix p (some a.elems.length))

/-- What comes back is the element that took the place, if one did. Without elements the
count wraps around and a slot far outside is read. -/
def delete (p : Ptr) (ix : Indices) (a : TypeArray) : Res (TypeArray × Indices × Option Ptr) :=
  match ix p with
  | none => .ok (a, ix, none)
  | some i =>
    if a.elems = [] then .error .outOfRange
    else
      let elems := swapErase a.elems i
      let next := movedBy a.elems i
      let ix :=
        match next with
        | some q => update ix q (some i)
        | none => ix
      .ok ({ a with elems := elems, index := if a.index ≥ elems.length then 0 else a.index }, update ix p none, next)

def get (a : TypeArray) : TypeArray × Option Ptr :=
  if a.elems = [] then (a, none)
  else if a.index + 1 < a.elems.length then ({ a with index := a.index + 1 }, a.elems[a.index + 1]?)
  else ({ a with index := 0 }, a.elems[0]?)

def isEmpty (a : TypeArray) : Bool := a.elems.isEmpty

def begin (a : TypeArray) : Option Ptr := a.elems[0]?

/-- The index -1 wraps around. -/
def next (p : Ptr) (ix : Indices) (a : TypeArray) : Option Ptr :=
  match ix p with
  | none => a.elems[0]?
  | some i => a.elems[i + 1]?

def size (a : TypeArray) : Nat := a.elems.length

/-! ## Elements in their places -/

/-- No element is there twice, and each stores its slot. -/
structure Placed (a : TypeArray) (ix : Indices) : Prop where
  nodup : a.elems.Nodup
  slot : ∀ k p, a.elems[k]? = some p → ix p = some k

section
variable {a : TypeArray} {ix ix' : Indices} {p q : Ptr}

theorem Placed.isSome (h : Placed a ix) (hp : p ∈ a.elems) : (ix p).isSome := by
  obtain ⟨k, hk, rfl⟩ := List.getElem_of_mem hp
  rw [h.slot k _ (List.getElem?_eq_getElem hk)]
  rfl

theorem placed_empty (ix : Indices) : Placed {} ix := by
  refine ⟨List.nodup_nil, fun k p hk => ?_⟩
  rw [List.getElem?_nil] at hk
  cases hk

theorem Placed.congr (h : Placed a ix) (heq : ∀ p ∈ a.elems, ix' p = ix p) : Placed a ix' := by
  refine ⟨h.nodup, fun k p hk => ?_⟩
  rw [heq p (List.mem_of_getElem? hk)]
  exact h.slot k p hk

theorem insert_elems (a : TypeArray) (hp : ix p = none) :
    (a.insert p ix).1.elems = a.elems ++ [p] ∧ (a.insert p ix).2 = update ix p (some a.elems.length) := by
  unfold insert
  rw [hp]
  exact ⟨rfl, rfl⟩

theorem Placed.insert (h : Placed a ix) (hp : ix p = none) :
    Placed (a.insert p ix).1 (a.insert p ix).2 := by
  have hnot : p ∉ a.elems := by
    intro hmem
    have hsome := h.isSome hmem
    rw [hp] at hsome
    cases hsome
  obtain ⟨helems, hix⟩ := insert_elems a hp
  rw [hix]
  refine ⟨?_, fun k q hk => ?_⟩
  · rw [helems]
    exact List.nodup_append.mpr ⟨h.nodup, List.nodup_singleton p, fun x hx y hy => by
      rw [List.mem_singleton.mp hy]
      exact fun he => hnot (he ▸ hx)⟩
  · rw [helems] at hk
    by_cases hlt : k < a.elems.length
    · rw [List.getElem?_append_left hlt] at hk
      have hne : q ≠ p := fun he => hnot (he ▸ List.mem_of_getElem? hk)
      rw [Function.update_of_ne hne]
      exact h.slot k q hk
    · rw [List.getElem?_append_right (by omega), List.getElem?_singleton] at hk
      split at hk
      · rename_i hzero
        obtain rfl := Option.some.inj hk
        rw [Function.update_self]
        congr 1
        omega
      · cases hk

theorem Placed.delete (h : Placed a ix) (hp : p ∈ a.elems) : ∃ a' ix' next, a.delete p ix = .ok (a', ix', next) ∧
    (∀ q, q ∈ a'.elems ↔ q ≠ p ∧ q ∈ a.elems) ∧ a'.elems.length = a.elems.length - 1 ∧ Placed a' ix' ∧ ix' p = none ∧
    ∀ q, q ∉ a.elems → ix' q = ix q := by
  obtain ⟨k, hk⟩ := List.mem_iff_getElem?.mp hp
  have hix := h.slot k p hk
  have htaken := takenBy_of_getElem? hk
  have hne : a.elems ≠ [] := List.ne_nil_of_mem hp
  unfold TypeArray.delete
  rw [hix]
  simp only [if_neg hne]
  refine ⟨_, _, _, rfl, fun q => mem_swapErase htaken h.nodup, swapErase_length _ _, ⟨?_, fun j q hj => ?_⟩,
    Function.update_self _ _ _, fun q hq => ?_⟩
  · exact swapErase_nodup htaken h.nodup
  · obtain ⟨hqp, hq⟩ := (mem_swapErase htaken h.nodup).mp (List.mem_of_getElem? hj)
    rw [Function.update_of_ne hqp]
    -- where the element was, and so where it is now
    obtain ⟨i, hi⟩ := List.mem_iff_getElem?.mp hq
    have hnow := getElem?_swapErase htaken hi hqp h.nodup
    have hplace : (if movedBy a.elems k = some q then k else i) = j := by
      have hlt := (List.getElem?_eq_some_iff.mp hj).1
      exact ((List.getElem?_inj hlt (swapErase_nodup htaken h.nodup)).mp (hj.trans hnow.symm)).symm
    have hslot := h.slot i q hi
    cases hmoved : movedBy a.elems k with
    | none =>
      rw [hmoved, if_neg (by simp)] at hplace
      subst hplace
      exact hslot
    | some r =>
      rw [hmoved] at hplace
      by_cases hr : r = q
      · subst hr
        rw [if_pos rfl] at hplace
        subst hplace
        exact Function.update_self _ _ _
      · rw [if_neg (by simpa using hr)] at hplace
        subst hplace
        simp only [Function.update_of_ne (Ne.symm hr)]
        exact hslot
  · have hqp : q ≠ p := fun he => hq (he ▸ hp)
    rw [Function.update_of_ne hqp]
    cases hmoved : movedBy a.elems k with
    | none => rfl
    | some r =>
      have hqr : q ≠ r := fun he => hq (he ▸ movedBy_mem hmoved)
      exact Function.update_of_ne hqr _ _

theorem get_elems (a : TypeArray) : a.get.1.elems = a.elems := by
  unfold get
  split
  · rfl
  · split
    · rfl
    · rfl

theorem Placed.of_elems {a' : TypeArray} (h : Placed a ix) (he : a'.elems = a.elems) : Placed a' ix :=
  ⟨he ▸ h.nodup, he ▸ h.slot⟩

theorem delete_none (a : TypeArray) (hp : ix p = none) : a.delete p ix = .ok (a, ix, none) := by
  unfold TypeArray.delete
  rw [hp]

theorem Placed.next (h : Placed a ix) {k : Nat} (hk : a.elems[k]? = some p) : a.next p ix = a.elems[k + 1]? := by
  unfold TypeArray.next
  rw [h.slot k p hk]

end

end TypeArray

end VProtocol.Mq
