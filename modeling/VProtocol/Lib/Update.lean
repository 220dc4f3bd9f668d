import Mathlib.Logic.Function.Basic

/-!
# Partial functions with one value changed
-/

namespace VProtocol

open Function (update)

section
variable {α β : Type} [DecidableEq α] {f : α → Option β} {a b : α} {x y : β}

theorem update_eq_some : update f a (some x) b = some y ↔ b = a ∧ y = x ∨ b ≠ a ∧ f b = some y := by
  by_cases h : b = a
  · subst h
    simp [eq_comm]
  · simp [h]

theorem update_none_eq_some : update f a none b = some y ↔ b ≠ a ∧ f b = some y := by
  by_cases h : b = a
  · subst h
    simp
  · simp [h]

omit [DecidableEq α] in
theorem ne_of_none (ha : f a = none) (hb : f b = some y) : b ≠ a := by
  rintro rfl
  rw [ha] at hb
  cases hb

theorem update_of_none (ha : f a = none) (hb : f b = some y) (v : Option β) : update f a v b = some y := by
  rw [Function.update_of_ne (ne_of_none ha hb)]
  exact hb

end

section
variable {α β γ : Type} [DecidableEq α] {f : α → β} {g : α → γ} {a : α} {b : β} {c : γ}

theorem forall_update {P : β → Prop} (h : ∀ x, P (f x)) (hb : P b) (x : α) : P (update f a b x) := by
  by_cases hx : x = a
  · subst hx
    rw [Function.update_self]
    exact hb
  · rw [Function.update_of_ne hx]
    exact h x

theorem forall_update₂ {P : β → γ → Prop} (h : ∀ x, P (f x) (g x)) (hbc : P b c) (x : α) :
    P (update f a b x) (update g a c x) := by
  by_cases hx : x = a
  · subst hx
    rw [Function.update_self, Function.update_self]
    exact hbc
  · rw [Function.update_of_ne hx, Function.update_of_ne hx]
    exact h x

end

end VProtocol
