import Mathlib.Data.List.Basic
import Mathlib.Data.List.Nodup
import Mathlib.Data.List.Perm.Basic

/-!
# Arrays whose elements store their own position

Insertion puts an element at the end and writes its position into the element;
erasure fills the slot at the stored position with the last element and drops the
last slot. An element has one position, however many arrays it is in, so an
erasure takes out the element at the stored position, whichever that is.
-/

namespace VProtocol

section
variable {α : Type}

/-- What is left of `l` when its last element fills slot `i` and the last slot is dropped.
From the last slot on, nothing is moved. -/
def swapErase (l : List α) (i : Nat) : List α :=
  match l.getLast? with
  | none => []
  | some q => if i < l.length - 1 then l.dropLast.set i q else l.dropLast

def movedBy (l : List α) (i : Nat) : Option α :=
  if i < l.length - 1 then l.getLast? else none

def takenBy (l : List α) (i : Nat) : Option α := l[min i (l.length - 1)]?

theorem swapErase_concat (l : List α) (q : α) (i : Nat) :
    swapErase (l ++ [q]) i = if i < l.length then l.set i q else l := by
  simp [swapErase]

theorem movedBy_concat (l : List α) (q : α) (i : Nat) :
    movedBy (l ++ [q]) i = if i < l.length then some q else none := by
  simp [movedBy]

theorem takenBy_concat (l : List α) (q : α) (i : Nat) :
    takenBy (l ++ [q]) i = if i < l.length then l[i]? else some q := by
  unfold takenBy
  by_cases h : i < l.length
  · have hm : min i ((l ++ [q]).length - 1) = i := by simp; omega
    rw [hm, if_pos h, List.getElem?_append_left h]
  · have hm : min i ((l ++ [q]).length - 1) = l.length := by simp; omega
    rw [hm, if_neg h]; simp

theorem takenBy_mem {l : List α} {i : Nat} {x : α} (h : takenBy l i = some x) : x ∈ l :=
  List.mem_of_getElem? h

theorem takenBy_isSome {l : List α} (hl : l ≠ []) (i : Nat) : (takenBy l i).isSome := by
  have hp := List.length_pos_iff.mpr hl
  have hi : min i (l.length - 1) < l.length := by omega
  rw [takenBy, List.getElem?_eq_getElem hi]
  rfl

theorem takenBy_of_getElem? {l : List α} {i : Nat} {x : α} (h : l[i]? = some x) : takenBy l i = some x := by
  have hi : i < l.length := (List.getElem?_eq_some_iff.mp h).1
  have hm : min i (l.length - 1) = i := by omega
  rw [takenBy, hm, h]

theorem swapErase_length (l : List α) (i : Nat) : (swapErase l i).length = l.length - 1 := by
  rcases List.eq_nil_or_concat l with rfl | ⟨l, q, rfl⟩
  · rfl
  · rw [List.concat_eq_append, swapErase_concat]
    split <;> simp

theorem set_perm_cons_erase [DecidableEq α] {l : List α} {i : Nat} {x : α} (h : l[i]? = some x) (q : α) :
    (l.set i q).Perm (q :: l.erase x) := by
  obtain ⟨hi, rfl⟩ := List.getElem?_eq_some_iff.mp h
  have h1 : (l[i] :: l.eraseIdx i).Perm (l[i] :: l.erase l[i]) :=
    (List.getElem_cons_eraseIdx_perm hi).trans (List.perm_cons_erase (List.getElem_mem hi))
  exact (List.set_perm_cons_eraseIdx hi q).trans (h1.cons_inv.cons q)

/-- An erasure takes out the element at the stored position and no other. -/
theorem swapErase_perm [DecidableEq α] {l : List α} {i : Nat} {x : α} (h : takenBy l i = some x) :
    (swapErase l i).Perm (l.erase x) := by
  rcases List.eq_nil_or_concat l with rfl | ⟨l, q, rfl⟩
  · simp [takenBy] at h
  · rw [List.concat_eq_append] at h ⊢
    rw [takenBy_concat] at h
    rw [swapErase_concat]
    split at h
    · rename_i hi
      rw [if_pos hi, List.erase_append_left _ (List.mem_of_getElem? h)]
      exact (set_perm_cons_erase h q).trans (List.perm_append_singleton q _).symm
    · rename_i hi
      obtain rfl := Option.some.inj h
      rw [if_neg hi]
      have : (l ++ [q]).Perm (q :: (l ++ [q]).erase q) := List.perm_cons_erase (by simp)
      exact ((List.perm_append_singleton q l).symm.trans this).cons_inv

theorem swapErase_nodup [DecidableEq α] {l : List α} {i : Nat} {x : α} (h : takenBy l i = some x) (hn : l.Nodup) :
    (swapErase l i).Nodup :=
  (swapErase_perm h).nodup_iff.mpr (hn.erase x)

theorem mem_swapErase [DecidableEq α] {l : List α} {i : Nat} {x : α} (h : takenBy l i = some x) (hn : l.Nodup)
    {y : α} : y ∈ swapErase l i ↔ y ≠ x ∧ y ∈ l := by
  rw [(swapErase_perm h).mem_iff, hn.mem_erase_iff]

theorem swapErase_subset (l : List α) (i : Nat) : swapErase l i ⊆ l := by
  unfold swapErase
  intro y hy
  split at hy
  · cases hy
  · rename_i q hq
    split at hy
    · rcases List.mem_or_eq_of_mem_set hy with hy | rfl
      · exact List.dropLast_subset _ hy
      · exact List.mem_of_getLast? hq
    · exact List.dropLast_subset _ hy

theorem movedBy_mem {l : List α} {i : Nat} {q : α} (h : movedBy l i = some q) : q ∈ l := by
  unfold movedBy at h
  split at h
  · exact List.mem_of_getLast? h
  · cases h

/-- The elements that stay keep a right position: the moved one gets the slot it
fills, the others are where they were. -/
theorem getElem?_swapErase [DecidableEq α] {l : List α} {i j : Nat} {x y : α}
    (h : takenBy l i = some x) (hy : l[j]? = some y)
    (hxy : y ≠ x) (hn : l.Nodup) : (swapErase l i)[if movedBy l i = some y then i else j]? = some y := by
  rcases List.eq_nil_or_concat l with rfl | ⟨l, q, rfl⟩
  · simp at hy
  · rw [List.concat_eq_append] at h hy hn ⊢
    rw [takenBy_concat] at h
    rw [swapErase_concat, movedBy_concat]
    have hql : q ∉ l := fun hq => (List.nodup_append.mp hn).2.2 q hq q (by simp) rfl
    by_cases hi : i < l.length
    · rw [if_pos hi] at h
      simp only [if_pos hi, Option.some.injEq]
      by_cases hq : q = y
      · subst hq; simp [hi]
      · have hj : j < l.length := by
          by_contra hj
          rw [List.getElem?_append_right (by omega)] at hy
          exact hq (List.mem_singleton.mp (List.mem_of_getElem? hy)).symm
        rw [List.getElem?_append_left hj] at hy
        have hij : i ≠ j := by
          intro heq
          subst heq
          rw [h] at hy
          exact hxy (Option.some.inj hy).symm
        rw [if_neg hq, List.getElem?_set_ne hij, hy]
    · rw [if_neg hi] at h
      obtain rfl := Option.some.inj h
      simp only [if_neg hi, reduceCtorEq, if_false]
      have hj : j < l.length := by
        by_contra hj
        rw [List.getElem?_append_right (by omega)] at hy
        exact hxy (List.mem_singleton.mp (List.mem_of_getElem? hy))
      rwa [List.getElem?_append_left hj] at hy

/-! ## On the way through the array -/

/-- What comes next after an erasure is in the slot that became free. -/
theorem getElem?_swapErase_self {l : List α} {i : Nat} (hi : i < l.length) : (swapErase l i)[i]? = movedBy l i := by
  rcases List.eq_nil_or_concat l with rfl | ⟨l, q, rfl⟩
  · cases hi
  · rw [List.concat_eq_append] at hi ⊢
    rw [swapErase_concat, movedBy_concat]
    by_cases h : i < l.length
    · rw [if_pos h, if_pos h, List.getElem?_set_self h]
    · rw [if_neg h, if_neg h, List.getElem?_eq_none (Nat.le_of_not_lt h)]

theorem drop_swapErase_perm {l : List α} {i : Nat} (hi : i < l.length) :
    ((swapErase l i).drop i).Perm (l.drop (i + 1)) := by
  rcases List.eq_nil_or_concat l with rfl | ⟨l, q, rfl⟩
  · cases hi
  · rw [List.concat_eq_append, List.length_append, List.length_singleton] at hi
    rw [List.concat_eq_append, swapErase_concat]
    by_cases h : i < l.length
    · rw [if_pos h, List.drop_append_of_le_length h, List.drop_eq_getElem_cons (by simpa using h), List.getElem_set_self,
        List.drop_set_of_lt (Nat.lt_succ_self i)]
      exact (List.perm_append_singleton q _).symm
    · rw [if_neg h, List.drop_of_length_le (Nat.le_of_not_lt h), List.drop_of_length_le (by simp; omega)]

end

end VProtocol
