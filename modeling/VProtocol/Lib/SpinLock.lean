import Mathlib.Logic.Function.Basic

/-!
# Spin locks

Any number of threads, each at a place of its own program, and a flag that a thread sets
when it goes inside and clears when it comes out. A step changes the place of one thread.
The flag is set exactly while a thread is inside, and only one is.
-/

namespace VProtocol

open Function (update)

section
variable {ι κ : Type} [DecidableEq ι] {P : κ → Prop} {phase : ι → κ} {i : ι} {x : κ}

/-- At most one thread is at a place of this kind. -/
def Sole (P : κ → Prop) (phase : ι → κ) : Prop := ∀ i j, P (phase i) → P (phase j) → i = j

theorem exists_update : (∃ j, P (update phase i x j)) ↔ P x ∨ ∃ j, j ≠ i ∧ P (phase j) := by
  constructor
  · intro ⟨j, hj⟩
    by_cases hji : j = i
    · rw [hji, Function.update_self] at hj
      exact .inl hj
    · rw [Function.update_of_ne hji] at hj
      exact .inr ⟨j, hji, hj⟩
  · intro h
    rcases h with h | ⟨j, hji, hj⟩
    · exact ⟨i, by rw [Function.update_self]; exact h⟩
    · exact ⟨j, by rw [Function.update_of_ne hji]; exact hj⟩

/-- The first thread there. -/
theorem Sole.enter (h : ∀ j, ¬P (phase j)) (i : ι) (x : κ) : Sole P (update phase i x) := by
  intro j k hj hk
  have hself : ∀ l, P (update phase i x l) → l = i := by
    intro l hl
    by_contra hne
    rw [Function.update_of_ne hne] at hl
    exact h l hl
  rw [hself j hj, hself k hk]

/-- A thread that was there stays or leaves, and another one stays away. -/
theorem Sole.move (h : Sole P phase) (hx : P x → P (phase i)) : Sole P (update phase i x) := by
  have hback : ∀ l, P (update phase i x l) → P (phase l) := by
    intro l hl
    by_cases hli : l = i
    · rw [hli, Function.update_self] at hl
      rw [hli]
      exact hx hl
    · rwa [Function.update_of_ne hli] at hl
  intro j k hj hk
  exact h j k (hback j hj) (hback k hk)

omit [DecidableEq ι] in
theorem Sole.others (h : Sole P phase) (hi : P (phase i)) {j : ι} (hj : j ≠ i) : ¬P (phase j) :=
  fun hpj => hj (h j i hpj hi)

/-- The flag is set exactly while a thread is inside, and only one is. -/
structure Guarded (inside : κ → Prop) (flag : Bool) (phase : ι → κ) : Prop where
  set : flag = true ↔ ∃ i, inside (phase i)
  sole : Sole inside phase

variable {inside : κ → Prop} {flag : Bool}

omit [DecidableEq ι] in
theorem Guarded.free (h : Guarded inside false phase) (j : ι) : ¬inside (phase j) :=
  fun hj => Bool.noConfusion (h.set.mpr ⟨j, hj⟩)

/-- A thread finds the flag clear and sets it. -/
theorem Guarded.acquire (h : Guarded inside false phase) (hx : inside x) : Guarded inside true (update phase i x) where
  set := ⟨fun _ => exists_update.mpr (.inl hx), fun _ => rfl⟩
  sole := Sole.enter h.free i x

/-- A thread that is inside comes out and clears the flag. -/
theorem Guarded.release (h : Guarded inside flag phase) (hi : inside (phase i)) (hx : ¬inside x) :
    Guarded inside false (update phase i x) where
  set := by
    refine ⟨nofun, fun hex => ?_⟩
    rcases exists_update.mp hex with hin | ⟨j, hji, hj⟩
    · exact absurd hin hx
    · exact absurd hj (h.sole.others hi hji)
  sole := h.sole.move fun hin => absurd hin hx

/-- A step that neither goes inside nor comes out. -/
theorem Guarded.move (h : Guarded inside flag phase) (hx : inside x ↔ inside (phase i)) :
    Guarded inside flag (update phase i x) where
  set := by
    rw [h.set, exists_update]
    constructor
    · intro ⟨j, hj⟩
      by_cases hji : j = i
      · exact .inl (hx.mpr (hji ▸ hj))
      · exact .inr ⟨j, hji, hj⟩
    · intro hex
      rcases hex with hin | ⟨j, -, hj⟩
      · exact ⟨i, hx.mp hin⟩
      · exact ⟨j, hj⟩
  sole := h.sole.move hx.mp

end

end VProtocol
