import Mathlib.Data.List.Nodup

/-!
# Updating the first match

A loop that looks for an element, changes it and stops.
-/

namespace VProtocol

section
variable {α β : Type}

/-- `l` with its first element that meets `c` changed by `f`. -/
def updateFirst (c : α → Bool) (f : α → α) : List α → List α
  | [] => []
  | a :: l => if c a then f a :: l else a :: updateFirst c f l

variable {c : α → Bool} {f : α → α} {l : List α}

theorem find?_split {a : α} (h : l.find? c = some a) : ∃ l₁ l₂, l = l₁ ++ a :: l₂ ∧
    updateFirst c f l = l₁ ++ f a :: l₂ := by
  induction l with
  | nil => cases h
  | cons b l ih =>
    unfold updateFirst
    by_cases hb : c b = true
    · rw [List.find?_cons_of_pos hb] at h
      obtain rfl := Option.some.inj h
      exact ⟨[], l, rfl, by rw [if_pos hb]; rfl⟩
    · rw [List.find?_cons_of_neg hb] at h
      obtain ⟨l₁, l₂, rfl, hu⟩ := ih h
      exact ⟨b :: l₁, l₂, rfl, by rw [if_neg hb, hu]; rfl⟩

theorem map_updateFirst (g : α → β) (hg : ∀ a, g (f a) = g a) : (updateFirst c f l).map g = l.map g := by
  induction l with
  | nil => rfl
  | cons b l ih =>
    unfold updateFirst
    split
    · rw [List.map_cons, List.map_cons, hg]
    · rw [List.map_cons, List.map_cons, ih]

theorem find?_key_none [DecidableEq β] {g : α → β} {k : β} (h : l.find? (g · = k) = none) : k ∉ l.map g := by
  intro hk
  obtain ⟨a, ha, rfl⟩ := List.mem_map.mp hk
  simpa using List.find?_eq_none.mp h a ha

theorem find?_key_some [DecidableEq β] {g : α → β} {k : β} {a : α} (h : l.find? (g · = k) = some a) :
    a ∈ l ∧ g a = k := by
  refine ⟨List.mem_of_find?_eq_some h, ?_⟩
  simpa using List.find?_some h

theorem find?_key_of_mem [DecidableEq β] {g : α → β} {k : β} (h : k ∈ l.map g) : ∃ a, l.find? (g · = k) = some a := by
  obtain ⟨a, ha, hk⟩ := List.mem_map.mp h
  exact Option.isSome_iff_exists.mp (List.find?_isSome.mpr ⟨a, ha, decide_eq_true hk⟩)

theorem mem_updateFirst {g : α → β} (hn : (l.map g).Nodup) {a b : α} (h : l.find? c = some a) :
    b ∈ updateFirst c f l ↔ b = f a ∨ b ∈ l ∧ g b ≠ g a := by
  obtain ⟨l₁, l₂, rfl, hu⟩ := find?_split (f := f) h
  rw [hu]
  rw [List.map_append, List.map_cons, List.nodup_append] at hn
  obtain ⟨-, hn₂, hdis⟩ := hn
  have h1 : ∀ x ∈ l₁, g x ≠ g a := fun x hx => hdis _ (List.mem_map_of_mem hx) _ List.mem_cons_self
  have h2 : ∀ x ∈ l₂, g x ≠ g a := by
    intro x hx heq
    exact (List.nodup_cons.mp hn₂).1 (heq ▸ List.mem_map_of_mem hx)
  simp only [List.mem_append, List.mem_cons]
  constructor
  · intro hb
    rcases hb with hb | hb | hb
    · exact .inr ⟨.inl hb, h1 b hb⟩
    · exact .inl hb
    · exact .inr ⟨.inr (.inr hb), h2 b hb⟩
  · intro hb
    rcases hb with hb | ⟨hb | hb | hb, hne⟩
    · exact .inr (.inl hb)
    · exact .inl hb
    · rw [hb] at hne
      exact absurd rfl hne
    · exact .inr (.inr hb)

/-- With different keys, the first match is `a` when nothing before `a` matches. -/
theorem find?_eq_some_iff_takeWhile [DecidableEq β] {g : α → β} {a : α} (ha : a ∈ l) (hn : (l.map g).Nodup) :
    l.find? c = some a ↔ c a = true ∧ ∀ x ∈ l.takeWhile fun x => g x ≠ g a, c x = false := by
  induction l with
  | nil => cases ha
  | cons b l ih =>
    rw [List.map_cons, List.nodup_cons] at hn
    rcases List.mem_cons.mp ha with rfl | hal
    · rw [List.takeWhile_cons_of_neg (by simp)]
      constructor
      · intro h
        exact ⟨List.find?_some h, nofun⟩
      · intro h
        exact List.find?_cons_of_pos h.1
    · have hne : g b ≠ g a := fun h => hn.1 (h ▸ List.mem_map_of_mem hal)
      rw [List.takeWhile_cons_of_pos (by simpa using hne), List.forall_mem_cons]
      cases hb : c b with
      | true =>
        rw [List.find?_cons_of_pos hb]
        constructor
        · intro h
          exact absurd (congrArg g (Option.some.inj h)) hne
        · intro h
          cases h.2.1
      | false =>
        rw [List.find?_cons_of_neg (by simp [hb]), ih hal hn.2]
        simp

theorem updateFirst_eq_map [DecidableEq β] {g : α → β} (hn : (l.map g).Nodup) {a : α} (h : l.find? c = some a) :
    updateFirst c f l = l.map fun x => if g x = g a then f x else x := by
  obtain ⟨l₁, l₂, rfl, hu⟩ := find?_split (f := f) h
  rw [List.map_append, List.map_cons, List.nodup_append] at hn
  obtain ⟨-, hn₂, hdis⟩ := hn
  have h1 : l₁.map (fun x => if g x = g a then f x else x) = l₁ := by
    refine (List.map_congr_left fun x hx => if_neg ?_).trans (List.map_id l₁)
    exact hdis _ (List.mem_map_of_mem hx) _ List.mem_cons_self
  have h2 : l₂.map (fun x => if g x = g a then f x else x) = l₂ := by
    refine (List.map_congr_left fun x hx => if_neg ?_).trans (List.map_id l₂)
    exact fun heq => (List.nodup_cons.mp hn₂).1 (heq ▸ List.mem_map_of_mem hx)
  rw [hu, List.map_append, List.map_cons, h1, h2, if_pos rfl]

end

end VProtocol
