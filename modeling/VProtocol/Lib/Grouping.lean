import Mathlib.Data.List.SplitBy

/-!
# Grouping a list from the left

A loop that goes over a list and either adds an element to the group it has open or opens
another one has the groups of `List.splitBy` at every point.
-/

namespace VProtocol

section
variable {α : Type} {r : α → α → Bool} {l : List α} {x : α}

/-- The element is related to the last one: it goes to the last group. -/
theorem splitBy_concat_same (hl : l ≠ []) (h : r (l.getLast hl) x = true) :
    ∃ gs g, g ≠ [] ∧ l.splitBy r = gs ++ [g] ∧ (l ++ [x]).splitBy r = gs ++ [g ++ [x]] := by
  obtain ⟨gs, g, hsplit⟩ := (List.eq_nil_or_concat (l.splitBy r)).resolve_left (List.splitBy_ne_nil.mpr hl)
  rw [List.concat_eq_append] at hsplit
  obtain ⟨hflat, hnil, hchain, hbetween⟩ := List.splitBy_eq_iff.mp hsplit
  have hg : g ≠ [] := by
    intro heq
    apply hnil
    simp [heq]
  have hlast : ∀ y ∈ g.getLast?, y = l.getLast hl := by
    intro y hy
    obtain ⟨hne, rfl⟩ := List.mem_getLast?_eq_getLast hy
    subst hflat
    simp [List.flatten_append, hne]
  refine ⟨gs, g, hg, hsplit, List.splitBy_eq_iff.mpr ⟨?_, ?_, ?_, ?_⟩⟩
  · conv_lhs => rw [hflat]
    simp
  · intro hmem
    rcases List.mem_append.mp hmem with hmem | hmem
    · exact hnil (List.mem_append_left _ hmem)
    · simp at hmem
  · intro m hm
    rcases List.mem_append.mp hm with hm | hm
    · exact hchain m (List.mem_append_left _ hm)
    · rw [List.mem_singleton.mp hm]
      refine List.isChain_append.mpr ⟨hchain g (by simp), List.isChain_singleton x, ?_⟩
      intro y hy z hz
      rw [hlast y hy, ← Option.some.inj hz]
      exact h
  · rw [List.isChain_append] at hbetween ⊢
    refine ⟨hbetween.1, List.isChain_singleton _, ?_⟩
    intro a ha b hb
    obtain ⟨ha', hb', hr⟩ := hbetween.2.2 a ha g rfl
    obtain rfl := Option.some.inj hb
    refine ⟨ha', by simp, ?_⟩
    rw [List.head_append_of_ne_nil hg]
    exact hr

/-- The element is not related to the last one: it opens a group. -/
theorem splitBy_concat_new (h : ∀ y ∈ l.getLast?, r y x = false) : (l ++ [x]).splitBy r = l.splitBy r ++ [[x]] := by
  rw [List.splitBy_append_cons [] h]
  rfl

end

end VProtocol
