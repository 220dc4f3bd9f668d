import Mathlib.Logic.Function.Basic

/-!
# Runs of a partial step function

A step function reads a state and an event and either fails or gives the next
state and what was sent. A run is a chain of steps that do not fail; it keeps
its history, one entry a step. Conditions on the steps of a run may look at the
history, so "no event of the run is answered twice" is such a condition.
-/

namespace VProtocol

theorem Except.bind_eq_ok {φ α β : Type} {x : Except φ α} {f : α → Except φ β} {b : β} :
    x >>= f = .ok b ↔ ∃ a, x = .ok a ∧ f a = .ok b := by
  cases x with
  | error e => simp [bind, Except.bind]
  | ok a => simp [bind, Except.bind]

theorem Except.bind_eq_error {φ α β : Type} {x : Except φ α} {f : α → Except φ β} {e : φ} :
    x >>= f = .error e ↔ x = .error e ∨ ∃ a, x = .ok a ∧ f a = .error e := by
  cases x with
  | error e' => simp [bind, Except.bind]
  | ok a => simp [bind, Except.bind]

theorem Except.ok_bind {φ α β : Type} (a : α) (f : α → Except φ β) : (.ok a : Except φ α) >>= f = f a := rfl

theorem Except.error_bind {φ α β : Type} (x : φ) (f : α → Except φ β) : (.error x : Except φ α) >>= f = .error x := rfl

theorem Except.ok_triple {φ α β γ : Type} {a a' : α} {b b' : β} {c c' : γ}
    (h : (Except.ok (a, b, c) : Except φ (α × β × γ)) = .ok (a', b', c')) : a = a' ∧ b = b' ∧ c = c' := by
  obtain ⟨ha, h⟩ := Prod.mk.inj (Except.ok.inj h)
  exact ⟨ha, Prod.mk.inj h⟩

/-- One step of a run as its history keeps it. -/
structure Entry (σ ε ω : Type) where
  pre : σ
  ev : ε
  outs : List ω

section
variable {σ ε ω φ : Type} (step : σ → ε → Except φ (σ × List ω)) (init : σ)

/-- `Run step init C tr s`: the history `tr` leads from `init` to `s`, and every
step of it meets `C`, a condition on the history before it, the state and the event. -/
inductive Run (C : List (Entry σ ε ω) → σ → ε → Prop) : List (Entry σ ε ω) → σ → Prop
  | nil : Run C [] init
  | snoc {tr s e s' outs} : Run C tr s → C tr s e → step s e = .ok (s', outs) →
      Run C (tr ++ [⟨s, e, outs⟩]) s'

def anyStep : List (Entry σ ε ω) → σ → ε → Prop := fun _ _ _ => True

variable {step init} {C C' : List (Entry σ ε ω) → σ → ε → Prop}

theorem Run.mono (hC : ∀ tr s e, C tr s e → C' tr s e) {tr s} (h : Run step init C tr s) :
    Run step init C' tr s := by
  induction h with
  | nil => exact .nil
  | snoc _ hc hs ih => exact .snoc ih (hC _ _ _ hc) hs

theorem Run.any {tr s} (h : Run step init C tr s) : Run step init anyStep tr s :=
  h.mono fun _ _ _ _ => trivial

/-- The induction rule: what holds at the start and is kept by every step that
meets the condition holds after every run. -/
theorem Run.invariant (I : List (Entry σ ε ω) → σ → Prop) (h0 : I [] init)
    (hs : ∀ tr s e s' outs, Run step init C tr s → I tr s → C tr s e → step s e = .ok (s', outs) →
      I (tr ++ [⟨s, e, outs⟩]) s') {tr s} (h : Run step init C tr s) : I tr s := by
  induction h with
  | nil => exact h0
  | snoc hr hc hst ih => exact hs _ _ _ _ _ hr ih hc hst

theorem snoc_split {β : Type} {l : List β} {b : β} {R : List β → β → Prop} :
    (∀ l₁ a l₂, l ++ [b] = l₁ ++ a :: l₂ → R l₁ a) ↔ (∀ l₁ a l₂, l = l₁ ++ a :: l₂ → R l₁ a) ∧ R l b := by
  constructor
  · intro h
    refine ⟨fun l₁ a l₂ hl => h l₁ a (l₂ ++ [b]) ?_, h l b [] rfl⟩
    rw [hl, List.append_assoc, List.cons_append]
  · intro ⟨hall, hlast⟩ l₁ a l₂ hl
    rcases List.eq_nil_or_concat l₂ with rfl | ⟨l₃, x, rfl⟩
    · obtain ⟨rfl, hb⟩ := List.append_inj' hl rfl
      obtain rfl := List.singleton_inj.mp hb
      exact hlast
    · rw [List.concat_eq_append, ← List.cons_append, ← List.append_assoc] at hl
      exact hall l₁ a l₃ (List.append_inj' hl rfl).1

theorem Run.entry {tr s} (h : Run step init C tr s) : ∀ {tr₁ en tr₂}, tr = tr₁ ++ en :: tr₂ →
    ∃ s', Run step init C tr₁ en.pre ∧ C tr₁ en.pre en.ev ∧ step en.pre en.ev = .ok (s', en.outs) := by
  induction h with
  | nil => intro tr₁ en tr₂ he; simp at he
  | @snoc tr s e s' outs hr hc hst ih =>
    intro tr₁ en tr₂ he
    refine (snoc_split (R := fun tr₁ (en : Entry σ ε ω) =>
      ∃ s', Run step init C tr₁ en.pre ∧ C tr₁ en.pre en.ev ∧ step en.pre en.ev = .ok (s', en.outs))).mpr ?_ tr₁ en tr₂ he
    exact ⟨fun _ _ _ => ih, s', hr, hc, hst⟩

theorem Run.upTo {tr s} (h : Run step init C tr s) {tr₁ tr₂} (heq : tr = tr₁ ++ tr₂) :
    ∃ s₁, Run step init C tr₁ s₁ := by
  cases tr₂ with
  | nil => exact ⟨s, by simpa [heq] using h⟩
  | cons en tr₂ =>
    obtain ⟨-, hr, -⟩ := h.entry heq
    exact ⟨_, hr⟩

end

/-! ## Properties of every point of a run -/

section
variable {σ ε ω φ : Type} {step : σ → ε → Except φ (σ × List ω)} {init : σ}

/-- `P` holds before each step of the history `tr`, and in the state `s` it ends in. -/
def Always (P : List (Entry σ ε ω) → σ → Prop) (tr : List (Entry σ ε ω)) (s : σ) : Prop :=
  (∀ tr₁ en tr₂, tr = tr₁ ++ en :: tr₂ → P tr₁ en.pre) ∧ P tr s

/-- Every step of the history meets `C`. -/
def Each (C : List (Entry σ ε ω) → σ → ε → Prop) (tr : List (Entry σ ε ω)) : Prop :=
  ∀ tr₁ en tr₂, tr = tr₁ ++ en :: tr₂ → C tr₁ en.pre en.ev

variable {P : List (Entry σ ε ω) → σ → Prop} {C C' : List (Entry σ ε ω) → σ → ε → Prop}
variable {tr : List (Entry σ ε ω)} {en : Entry σ ε ω} {s : σ}

theorem each_append : Each C (tr ++ [en]) ↔ Each C tr ∧ C tr en.pre en.ev := snoc_split

theorem always_append : Always P (tr ++ [en]) s ↔ Always P tr en.pre ∧ P (tr ++ [en]) s := by
  unfold Always
  rw [snoc_split (R := fun tr en => P tr en.pre)]

theorem each_nil : Each C ([] : List (Entry σ ε ω)) := by
  intro tr₁ en tr₂ h
  simp at h

theorem Run.each (h : Run step init C tr s) : Each C tr := by
  induction h with
  | nil => exact each_nil
  | snoc _ hc _ ih => exact each_append.mpr ⟨ih, hc⟩

theorem Run.of_each (h : Run step init C tr s) (he : Each C' tr) :
    Run step init (fun tr s e => C tr s e ∧ C' tr s e) tr s := by
  induction h with
  | nil => exact .nil
  | snoc _ hc hst ih =>
    obtain ⟨he, hlast⟩ := each_append.mp he
    exact .snoc (ih he) ⟨hc, hlast⟩ hst

theorem Run.always (hP : ∀ {tr s}, Run step init C tr s → P tr s) (h : Run step init C tr s) : Always P tr s := by
  refine ⟨fun tr₁ en tr₂ heq => ?_, hP h⟩
  obtain ⟨-, hr, -⟩ := h.entry heq
  exact hP hr

/-- Where a step keeps `P` exactly when it meets `C'`, a run has `P` throughout exactly
when each of its steps meets `C'`. -/
theorem Run.always_iff (h0 : P [] init)
    (hs : ∀ tr s e s' outs, Run step init C tr s → Each C' tr → P tr s → C tr s e → step s e = .ok (s', outs) →
      (P (tr ++ [⟨s, e, outs⟩]) s' ↔ C' tr s e))
    (h : Run step init C tr s) : Always P tr s ↔ Each C' tr := by
  induction h with
  | nil => exact ⟨fun _ => each_nil, fun _ => ⟨fun _ _ _ h => by simp at h, h0⟩⟩
  | snoc hr hc hst ih =>
    rw [always_append, each_append]
    constructor
    · intro ⟨hall, hlast⟩
      exact ⟨ih.mp hall, (hs _ _ _ _ _ hr (ih.mp hall) hall.2 hc hst).mp hlast⟩
    · intro ⟨hall, hlast⟩
      have hP := ih.mpr hall
      exact ⟨hP, (hs _ _ _ _ _ hr hall hP.2 hc hst).mpr hlast⟩

/-- Where the entry of a step is as `R` says exactly when the step meets `C'`, so are all
entries of a run exactly when each of its steps meets `C'`. -/
theorem Run.each_iff {R : List (Entry σ ε ω) → Entry σ ε ω → Prop}
    (hs : ∀ tr s e s' outs, Run step init C tr s → Each C' tr → C tr s e → step s e = .ok (s', outs) →
      (R tr ⟨s, e, outs⟩ ↔ C' tr s e))
    (h : Run step init C tr s) : (∀ tr₁ en tr₂, tr = tr₁ ++ en :: tr₂ → R tr₁ en) ↔ Each C' tr := by
  induction h with
  | nil => exact ⟨fun _ => each_nil, fun _ _ _ _ h => by simp at h⟩
  | snoc hr hc hst ih =>
    rw [snoc_split, each_append, ih]
    constructor
    · intro ⟨he, hR⟩
      exact ⟨he, (hs _ _ _ _ _ hr he hc hst).mp hR⟩
    · intro ⟨he, hc'⟩
      exact ⟨he, (hs _ _ _ _ _ hr he hc hst).mpr hc'⟩

end

/-! ## Running a list of events -/

section
variable {σ ε ω φ : Type} (step : σ → ε → Except φ (σ × List ω))

/-- The history of a list of events, up to the first step that fails. -/
def trace (s : σ) : List ε → List (Entry σ ε ω)
  | [] => []
  | e :: es =>
    match step s e with
    | .ok (s', outs) => ⟨s, e, outs⟩ :: trace s' es
    | .error _ => []

def final (s : σ) : List ε → σ
  | [] => s
  | e :: es =>
    match step s e with
    | .ok (s', _) => final s' es
    | .error _ => s

def meets (C : List (Entry σ ε ω) → σ → ε → Prop) [∀ tr s e, Decidable (C tr s e)] (tr : List (Entry σ ε ω)) (s : σ) :
    List ε → Bool
  | [] => true
  | e :: es =>
    decide (C tr s e) &&
      match step s e with
      | .ok (s', outs) => meets C (tr ++ [⟨s, e, outs⟩]) s' es
      | .error _ => true

variable {step} {init : σ} {C : List (Entry σ ε ω) → σ → ε → Prop}

theorem Run.append_trace [∀ tr s e, Decidable (C tr s e)] : ∀ (es : List ε) {tr : List (Entry σ ε ω)} {s : σ},
    Run step init C tr s → meets step C tr s es = true → Run step init C (tr ++ trace step s es) (final step s es)
  | [], tr, s, h, _ => by simpa [trace, final] using h
  | e :: es, tr, s, h, hC => by
    simp only [meets, Bool.and_eq_true, decide_eq_true_eq] at hC
    simp only [trace, final]
    cases hst : step s e with
    | error x => simpa using h
    | ok r =>
      obtain ⟨s', outs⟩ := r
      simp only [hst] at hC ⊢
      have := Run.append_trace es (.snoc h hC.1 hst) hC.2
      simpa using this

variable (step init C) in
theorem run_of_meets [∀ tr s e, Decidable (C tr s e)] (es : List ε) (h : meets step C [] init es = true) :
    Run step init C (trace step init es) (final step init es) := by
  simpa using Run.append_trace es Run.nil h

instance (tr : List (Entry σ ε ω)) (s : σ) (e : ε) : Decidable (anyStep tr s e) := isTrue trivial

theorem meets_any : ∀ (es : List ε) (tr : List (Entry σ ε ω)) (s : σ), meets step anyStep tr s es = true
  | [], _, _ => rfl
  | e :: es, tr, s => by
    simp only [meets, Bool.and_eq_true]
    refine ⟨rfl, ?_⟩
    cases step s e with
    | error x => rfl
    | ok r => exact meets_any es _ _

theorem split_map {β : Type} (tr : List (Entry σ ε ω)) (i : Nat) (f : Entry σ ε ω → β) (b : β)
    (h : tr[i]?.map f = some b) :
    ∃ en, tr = tr.take i ++ en :: tr.drop (i + 1) ∧ tr.take i ++ [en] ⊆ tr ∧ f en = b := by
  obtain ⟨en, hen, ho⟩ := Option.map_eq_some_iff.mp h
  obtain ⟨hi, rfl⟩ := List.getElem?_eq_some_iff.mp hen
  refine ⟨tr[i], by rw [← List.drop_eq_getElem_cons hi, List.take_append_drop], ?_, ho⟩
  rw [← List.take_succ_eq_append_getElem hi]
  exact List.take_subset _ _

theorem run_trace_any (es : List ε) : Run step init anyStep (trace step init es) (final step init es) :=
  run_of_meets step init anyStep es (meets_any es _ _)

end

end VProtocol
