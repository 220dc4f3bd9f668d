import Mathlib.Data.Int.CardIntervalMod
import Mathlib.Data.List.Nodup
import Mathlib.Data.List.Perm.Subperm

/-!
# Rings

What is put into a ring of `n` slots takes the tickets 0, 1, 2, … in turn, and ticket `t` is in
slot `t % n`. The tickets from `a` up to `b` fit in as long as there are at most `n` of them.
A ring of different elements that is read in turn gives each of them its share of the reads.
-/

namespace VProtocol.Ring

structure Window (n a b : Nat) : Prop where
  le : a ≤ b
  fit : b ≤ a + n

def slot (n t : Nat) : Nat := t % n

/-- The slots of the tickets from `a` up to `b`, in their order. -/
def slots (n a b : Nat) : List Nat := (List.range' a (b - a)).map (slot n)

variable {n a b c t : Nat}

theorem slot_lt (hn : 0 < n) : slot n t < n := Nat.mod_lt _ hn

/-- The next slot by a comparison instead of a division. -/
theorem slot_succ (hn : 0 < n) : slot n (t + 1) = if n ≤ slot n t + 1 then 0 else slot n t + 1 := by
  have hlt : slot n t < n := slot_lt hn
  unfold slot at *
  rw [← Nat.mod_add_mod]
  split
  · rw [show t % n + 1 = n by omega, Nat.mod_self]
  · exact Nat.mod_eq_of_lt (by omega)

@[simp] theorem length_slots : (slots n a b).length = b - a := by simp [slots]

theorem mem_slots {i : Nat} : i ∈ slots n a b ↔ ∃ t, a ≤ t ∧ t < b ∧ slot n t = i := by
  unfold slots
  simp only [List.mem_map, List.mem_range'_1]
  constructor
  · rintro ⟨t, ⟨h₁, h₂⟩, rfl⟩
    exact ⟨t, h₁, by omega, rfl⟩
  · rintro ⟨t, h₁, h₂, rfl⟩
    exact ⟨t, ⟨h₁, by omega⟩, rfl⟩

theorem slots_append (hab : a ≤ b) (hbc : b ≤ c) : slots n a b ++ slots n b c = slots n a c := by
  unfold slots
  rw [← List.map_append]
  have hb : b = a + (b - a) := by omega
  have hc : c - a = (b - a) + (c - b) := by omega
  rw [hc, ← List.range'_append_1, ← hb]

theorem slots_succ (h : a ≤ b) : slots n a (b + 1) = slots n a b ++ [slot n b] := by
  rw [← slots_append h (Nat.le_succ b)]
  simp [slots]

theorem head?_slots (h : a < b) : (slots n a b).head? = some (slot n a) := by
  obtain ⟨k, rfl⟩ := Nat.exists_eq_add_of_lt h
  rw [show a + k + 1 = a + (k + 1) from rfl]
  simp [slots, List.range'_succ]

theorem Window.slot_inj (h : Window n a b) {t u : Nat} (ht : a ≤ t ∧ t < b) (hu : a ≤ u ∧ u < b)
    (he : slot n t = slot n u) : t = u := by
  have hfit := h.fit
  apply Nat.mod_injOn_Ico a n _ _ he
  · simp only [Finset.coe_Ico, Set.mem_Ico]
    omega
  · simp only [Finset.coe_Ico, Set.mem_Ico]
    omega

theorem Window.nodup (h : Window n a b) : (slots n a b).Nodup := by
  unfold slots
  refine List.Nodup.map_on ?_ List.nodup_range'
  intro t ht u hu he
  simp only [List.mem_range'_1] at ht hu
  exact h.slot_inj ⟨ht.1, by omega⟩ ⟨hu.1, by omega⟩ he

theorem Window.slot_notMem (h : Window n a b) (hlt : b < a + n) : slot n b ∉ slots n a b := by
  have h' : Window n a (b + 1) := ⟨Nat.le_succ_of_le h.le, hlt⟩
  intro hm
  obtain ⟨t, h₁, h₂, he⟩ := mem_slots.mp hm
  have := h'.slot_inj ⟨h₁, by omega⟩ ⟨h.le, Nat.lt_succ_self b⟩ he
  omega

theorem Window.slot_end (h : Window n a b) : slot n b = (slot n a + (b - a)) % n := by
  unfold slot
  rw [Nat.mod_add_mod, Nat.add_sub_cancel' h.le]

/-! ## Reading in turn -/

section
variable {α : Type} {ids l : List α} {i k : Nat} {x : α}

/-- `l` is what is read of the ring `ids` in turn, from slot `i` on. -/
def Reads (ids : List α) (i : Nat) (l : List α) : Prop :=
  ∀ j x, l[j]? = some x → ids[slot ids.length (i + j)]? = some x

theorem Reads.drop (h : Reads ids i l) (k : Nat) : Reads ids (i + k) (l.drop k) := by
  intro j x hx
  rw [List.getElem?_drop] at hx
  rw [Nat.add_assoc]
  exact h (k + j) x hx

theorem Reads.take (h : Reads ids i l) (k : Nat) : Reads ids i (l.take k) := by
  intro j x hx
  rw [List.getElem?_take] at hx
  by_cases hj : j < k
  · rw [if_pos hj] at hx
    exact h j x hx
  · rw [if_neg hj] at hx
    cases hx

theorem Reads.init (h : Reads ids i (l ++ [x])) : Reads ids i l := by
  have htake := h.take l.length
  rwa [List.take_left] at htake

theorem Reads.snoc (h : Reads ids i l) (hx : ids[slot ids.length (i + l.length)]? = some x) :
    Reads ids i (l ++ [x]) := by
  intro j y hy
  rcases Nat.lt_or_ge j l.length with hj | hj
  · rw [List.getElem?_append_left hj] at hy
    exact h j y hy
  · obtain ⟨hlt, rfl⟩ := List.getElem?_eq_some_iff.mp hy
    obtain rfl : j = l.length := by
      rw [List.length_append, List.length_singleton] at hlt
      omega
    rw [List.getElem_append_right (Nat.le_refl _)]
    simpa using hx

theorem Reads.cons (hx : ids[slot ids.length i]? = some x) (h : Reads ids (i + 1) l) : Reads ids i (x :: l) := by
  intro j y hy
  cases j with
  | zero => rwa [Nat.add_zero, ← Option.some.inj hy]
  | succ j =>
    rw [Nat.add_comm j 1, ← Nat.add_assoc]
    exact h j y hy

theorem reads_slot : Reads ids (slot ids.length i + k) l ↔ Reads ids (i + k) l := by
  unfold Reads slot
  simp only [Nat.add_assoc, Nat.mod_add_mod]

theorem Reads.mem (h : Reads ids i l) (hx : x ∈ l) : x ∈ ids := by
  obtain ⟨j, hj⟩ := List.getElem?_of_mem hx
  exact List.mem_of_getElem? (h j x hj)

theorem Reads.nodup (h : Reads ids i l) (hn : ids.Nodup) (hle : l.length ≤ ids.length) : l.Nodup := by
  rw [List.nodup_iff_getElem?_ne_getElem?]
  intro j k hjk hk heq
  have hj : j < l.length := Nat.lt_trans hjk hk
  have hreadj := h j l[j] (List.getElem?_eq_getElem hj)
  have hreadk := h k l[j] (heq.symm.trans (List.getElem?_eq_getElem hj))
  obtain ⟨hltj, hatj⟩ := List.getElem?_eq_some_iff.mp hreadj
  obtain ⟨hltk, hatk⟩ := List.getElem?_eq_some_iff.mp hreadk
  have hslot := (hn.getElem_inj_iff).mp (hatj.trans hatk.symm)
  have hwindow : Window ids.length i (i + l.length) := ⟨Nat.le_add_right _ _, Nat.add_le_add_left hle i⟩
  have heq := hwindow.slot_inj (t := i + j) (u := i + k) (by omega) (by omega) hslot
  omega

theorem Reads.perm (h : Reads ids i l) (hn : ids.Nodup) (hlen : l.length = ids.length) : l.Perm ids :=
  (List.Nodup.subperm (h.nodup hn (Nat.le_of_eq hlen)) fun _ hx => h.mem hx).perm_of_length_le (Nat.le_of_eq hlen.symm)

theorem Reads.nodup_window (h : Reads ids i l) (hn : ids.Nodup) (hk : k ≤ ids.length) (a : Nat) :
    ((l.drop a).take k).Nodup :=
  ((h.drop a).take k).nodup hn ((List.length_take_le k _).trans hk)

theorem slot_eq_iff [DecidableEq α] (hn : ids.Nodup) (hx : x ∈ ids) (i j : Nat) :
    ids[slot ids.length (i + j)]? = some x ↔ j ≡ ids.idxOf x + (ids.length - i % ids.length) [MOD ids.length] := by
  have hlt := List.idxOf_lt_length_of_mem hx
  have hpos : 0 < ids.length := List.length_pos_of_mem hx
  have hmod : slot ids.length (i + j) < ids.length := slot_lt hpos
  have hself : i + (ids.idxOf x + (ids.length - i % ids.length)) ≡ ids.idxOf x [MOD ids.length] := by
    have hdiv := Nat.div_add_mod i ids.length
    have hi := Nat.mod_lt i hpos
    have hsum : i + (ids.idxOf x + (ids.length - i % ids.length)) =
        ids.idxOf x + ids.length * (i / ids.length + 1) := by
      rw [Nat.mul_add, Nat.mul_one]
      omega
    rw [hsum]
    exact Nat.add_mul_mod_self_left _ _ _
  calc ids[slot ids.length (i + j)]? = some x
    _ ↔ slot ids.length (i + j) = ids.idxOf x := by
      rw [List.getElem?_eq_getElem hmod, Option.some.injEq]
      constructor
      · rintro rfl
        exact (hn.idxOf_getElem _ hmod).symm
      · intro heq
        simp only [heq]
        exact List.getElem_idxOf hlt
    _ ↔ i + j ≡ ids.idxOf x [MOD ids.length] := by
      unfold Nat.ModEq slot
      rw [Nat.mod_eq_of_lt hlt]
    _ ↔ j ≡ ids.idxOf x + (ids.length - i % ids.length) [MOD ids.length] :=
      ⟨fun h => Nat.ModEq.add_left_cancel' i (h.trans hself.symm), fun h => (h.add_left i).trans hself⟩

theorem Reads.count_eq [DecidableEq α] (hn : ids.Nodup) (hx : x ∈ ids) (h : Reads ids i l) :
    l.count x = Nat.count (· ≡ ids.idxOf x + (ids.length - i % ids.length) [MOD ids.length]) l.length := by
  induction l using List.reverseRecOn with
  | nil => rfl
  | append_singleton l y ih =>
    have hy := h l.length y List.getElem?_concat_length
    rw [List.count_append, ih h.init, List.length_append, List.length_singleton, Nat.count_succ]
    congr 1
    by_cases hxy : y = x
    · rw [if_pos ((slot_eq_iff hn hx i l.length).mp (hxy ▸ hy)), hxy, List.count_singleton_self]
    · rw [if_neg fun hmod => hxy (Option.some.inj (hy.symm.trans ((slot_eq_iff hn hx i l.length).mpr hmod)))]
      exact List.count_eq_zero_of_not_mem fun hmem => hxy (List.mem_singleton.mp hmem).symm

theorem Reads.fair [DecidableEq α] (hn : ids.Nodup) (hx : x ∈ ids) (h : Reads ids i l) :
    l.count x = l.length / ids.length ∨ l.count x = (l.length + ids.length - 1) / ids.length := by
  have hpos : 0 < ids.length := List.length_pos_of_mem hx
  rw [h.count_eq hn hx, Nat.count_modEq_card _ hpos]
  have hdiv := Nat.div_add_mod l.length ids.length
  split
  · rename_i hlt
    right
    have hmod := Nat.mod_lt l.length hpos
    have hzero : (l.length % ids.length - 1) / ids.length = 0 := Nat.div_eq_of_lt (by omega)
    have hsum : l.length + ids.length - 1 =
        l.length % ids.length - 1 + ids.length * (l.length / ids.length + 1) := by
      rw [Nat.mul_add, Nat.mul_one]
      omega
    rw [hsum, Nat.add_mul_div_left _ _ hpos, hzero, Nat.zero_add]
  · left
    rfl

end

end VProtocol.Ring
