import Mathlib.Data.List.Basic
import Mathlib.Tactic.TypeStar

/-!
# Trees built level by level

A list is reduced to one element by pairing neighbours, level after level; the last
element of an odd level is paired with itself. What the pairing computes may depend on
the place of the parent in its level. The list that was reduced is a prefix of the
leaves of the tree, and of lists of one length no two give the same tree.
-/

namespace VProtocol

variable {α β γ : Type*}

/-- One level up, the first parent being the `i`-th. -/
def level (f : Nat → α → α → α) : Nat → List α → List α
  | _, [] => []
  | i, [a] => [f i a a]
  | i, a :: b :: l => f i a b :: level f (i + 1) l

/-- Levels until one element is left; `n` only bounds their number. -/
def reduce (f : Nat → α → α → α) : Nat → List α → List α
  | 0, l => l
  | n + 1, l => if 1 < l.length then reduce f n (level f 0 l) else l

def root (f : Nat → α → α → α) (l : List α) : Option α := (reduce f l.length l).head?

def height : Nat → Nat → Nat
  | 0, _ => 0
  | n + 1, len => if 1 < len then height n ((len + 1) / 2) + 1 else 0

section
variable {f : Nat → α → α → α} {h : Nat → β → β → β}

/-! ## One level -/

theorem length_level : ∀ (i : Nat) (l : List α), (level f i l).length = (l.length + 1) / 2
  | _, [] => by simp [level]
  | _, [_] => by simp [level]
  | i, a :: b :: l => by
    simp only [level, List.length_cons, length_level (i + 1) l]
    omega

/-- The parent at `j` has the elements at `2 * j` and `2 * j + 1`, or the first of them twice. -/
theorem getElem?_level : ∀ (i : Nat) (l : List α) (j : Nat),
    (level f i l)[j]? = l[2 * j]?.map fun a => f (i + j) a (l[2 * j + 1]?.getD a)
  | _, [], _ => by simp [level]
  | _, [a], 0 => by simp [level]
  | _, [a], j + 1 => by simp [level]
  | _, a :: b :: l, 0 => by simp [level]
  | i, a :: b :: l, j + 1 => by
    rw [level, List.getElem?_cons_succ, getElem?_level (i + 1) l j]
    rw [show 2 * (j + 1) = 2 * j + 1 + 1 by omega, show i + 1 + j = i + (j + 1) by omega]
    simp only [List.getElem?_cons_succ]

theorem map_level (g : α → β) (hg : ∀ i a b, g (f i a b) = h i (g a) (g b)) :
    ∀ (i : Nat) (l : List α), (level f i l).map g = level h i (l.map g)
  | _, [] => rfl
  | i, [a] => by simp [level, hg]
  | i, a :: b :: l => by
    simp only [level, List.map_cons, hg]
    rw [map_level g hg (i + 1) l]

/-- The pairing decides the pairs, and the length whether the last of them was an element twice. -/
theorem level_inj {f₂ : Nat → α → α → α} (hf : ∀ i a b a' b', f i a b = f₂ i a' b' → a = a' ∧ b = b') :
    ∀ (i : Nat) (l l' : List α), l.length = l'.length → level f i l = level f₂ i l' → l = l'
  | _, [], [], _, _ => rfl
  | i, [a], [a'], _, h => by
    obtain ⟨rfl, -⟩ := hf i a a a' a' (List.singleton_inj.mp h)
    rfl
  | i, a :: b :: l, a' :: b' :: l', hl, h => by
    obtain ⟨hab, hrest⟩ := List.cons.inj h
    obtain ⟨rfl, rfl⟩ := hf i a b a' b' hab
    rw [level_inj hf (i + 1) l l' (by simpa using hl) hrest]
  | _, [], _ :: _, hl, _ => by cases hl
  | _, _ :: _, [], hl, _ => by cases hl
  | _, [_], _ :: _ :: _, hl, _ => by cases hl
  | _, _ :: _ :: _, [_], hl, _ => by cases hl

theorem flatMap_level (g : α → List γ) (hg : ∀ i a b, g (f i a b) = g a ++ g b) :
    ∀ (i : Nat) (l : List α), l.flatMap g <+: (level f i l).flatMap g
  | _, [] => List.prefix_rfl
  | i, [a] => by simp [level, hg]
  | i, a :: b :: l => by
    simp only [level, List.flatMap_cons, hg, ← List.append_assoc]
    exact (List.prefix_append_right_inj _).mpr (flatMap_level g hg (i + 1) l)

theorem level_forall {P Q : α → Prop} (h : ∀ i a b, P a → P b → Q (f i a b)) :
    ∀ (i : Nat) (l : List α), (∀ a ∈ l, P a) → ∀ a ∈ level f i l, Q a
  | _, [], _, _, ha => by cases ha
  | i, [a], hl, x, hx => by
    rw [List.mem_singleton.mp hx]
    exact h i a a (hl a List.mem_cons_self) (hl a List.mem_cons_self)
  | i, a :: b :: l, hl, x, hx => by
    rcases List.mem_cons.mp hx with rfl | hx
    · exact h i a b (hl a (by simp)) (hl b (by simp))
    · exact level_forall h (i + 1) l (fun y hy => hl y (by simp [hy])) x hx

/-! ## All levels -/

theorem length_reduce {n : Nat} {l : List α} (hl : l ≠ []) (hn : l.length ≤ n + 1) : (reduce f n l).length = 1 := by
  induction n generalizing l with
  | zero =>
    have := List.length_pos_of_ne_nil hl
    unfold reduce
    omega
  | succ n ih =>
    have hpos := List.length_pos_of_ne_nil hl
    unfold reduce
    split
    · have hlen := length_level (f := f) 0 l
      apply ih
      · intro hnil
        rw [hnil] at hlen
        simp only [List.length_nil] at hlen
        omega
      · omega
    · omega

theorem root_isSome {l : List α} (hl : l ≠ []) : ∃ a, root f l = some a ∧ reduce f l.length l = [a] := by
  obtain ⟨a, ha⟩ := List.length_eq_one_iff.mp (length_reduce (f := f) hl (Nat.le_succ _))
  exact ⟨a, by rw [root, ha]; rfl, ha⟩

theorem map_reduce (g : α → β) (hg : ∀ i a b, g (f i a b) = h i (g a) (g b)) (n : Nat) (l : List α) :
    (reduce f n l).map g = reduce h n (l.map g) := by
  induction n generalizing l with
  | zero => rfl
  | succ n ih =>
    unfold reduce
    rw [List.length_map]
    split
    · rw [ih, map_level g hg]
    · rfl

theorem root_map (g : α → β) (hg : ∀ i a b, g (f i a b) = h i (g a) (g b)) (l : List α) :
    root h (l.map g) = (root f l).map g := by
  unfold root
  rw [List.length_map, ← map_reduce g hg, List.head?_map]

theorem reduce_inj {f₂ : Nat → α → α → α} (hf : ∀ i a b a' b', f i a b = f₂ i a' b' → a = a' ∧ b = b')
    {n : Nat} {l l' : List α} (hl : l.length = l'.length) (h : reduce f n l = reduce f₂ n l') : l = l' := by
  induction n generalizing l l' with
  | zero => exact h
  | succ n ih =>
    unfold reduce at h
    rw [← hl] at h
    split at h
    · apply level_inj hf 0 l l' hl
      exact ih (by rw [length_level, length_level, hl]) h
    · exact h

theorem reduce_forall {P : Nat → α → Prop} (h : ∀ k i a b, P k a → P k b → P (k + 1) (f i a b)) {k n : Nat}
    {l : List α} (hl : ∀ a ∈ l, P k a) : ∀ a ∈ reduce f n l, P (k + height n l.length) a := by
  induction n generalizing k l with
  | zero => exact hl
  | succ n ih =>
    unfold reduce height
    split
    · have hup := ih (level_forall (h k) 0 l hl)
      rw [length_level] at hup
      rw [Nat.add_comm (height n _) 1, ← Nat.add_assoc]
      exact hup
    · exact hl

theorem flatMap_reduce (g : α → List γ) (hg : ∀ i a b, g (f i a b) = g a ++ g b) (n : Nat) (l : List α) :
    l.flatMap g <+: (reduce f n l).flatMap g := by
  induction n generalizing l with
  | zero => exact List.prefix_rfl
  | succ n ih =>
    unfold reduce
    split
    · exact (flatMap_level g hg 0 l).trans (ih _)
    · exact List.prefix_rfl

/-! ## The places of the parents -/

theorem level_congr {f₂ : Nat → α → α → α} : ∀ (i : Nat) (l : List α), (∀ j, i ≤ j → j < i + l.length → f j = f₂ j) →
    level f i l = level f₂ i l
  | _, [], _ => rfl
  | i, [a], h => by
    unfold level
    rw [h i (Nat.le_refl i) (by simp)]
  | i, a :: b :: l, h => by
    unfold level
    rw [h i (Nat.le_refl i) (by simp), level_congr (i + 1) l fun j hj hlt => h j (by omega) (by simp; omega)]

theorem reduce_congr {f₂ : Nat → α → α → α} {n : Nat} {l : List α} (h : ∀ j < l.length, f j = f₂ j) :
    reduce f n l = reduce f₂ n l := by
  induction n generalizing l with
  | zero => rfl
  | succ n ih =>
    unfold reduce
    split
    · rw [level_congr 0 l fun j _ hlt => h j (by omega)]
      apply ih
      intro j hj
      rw [length_level] at hj
      exact h j (by omega)
    · rfl

end

end VProtocol
