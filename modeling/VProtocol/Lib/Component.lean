import VProtocol.Lib.Run

/-!
# Systems of independent components

A component takes inputs one at a time, and what it becomes and sends depends on nothing
else. A system is made of such components when each of its steps hands at most one input
to at most one of them and leaves the others alone. After any run each component is then
what it becomes on its own inputs, and what the run sent for it is what it sends on them:
whatever the others were given in between, and in whichever order, shows nowhere.
-/

namespace VProtocol

/-! ## One component on its own -/

/-- What a component becomes and sends when it takes an input. -/
abbrev Machine (κ α ω : Type) := κ → α → κ × List ω

section
variable {κ α ω : Type} (m : Machine κ α ω)

def Machine.run : κ → List α → κ × List ω
  | x, [] => (x, [])
  | x, a :: as => ((Machine.run (m x a).1 as).1, (m x a).2 ++ (Machine.run (m x a).1 as).2)

theorem Machine.run_append (x : κ) (as bs : List α) :
    m.run x (as ++ bs) = ((m.run (m.run x as).1 bs).1, (m.run x as).2 ++ (m.run (m.run x as).1 bs).2) := by
  induction as generalizing x with
  | nil => simp [run]
  | cons a as ih => simp only [List.cons_append, run, ih, List.append_assoc]

theorem Machine.run_snoc (x : κ) (as : List α) (a : α) :
    m.run x (as ++ [a]) = ((m (m.run x as).1 a).1, (m.run x as).2 ++ (m (m.run x as).1 a).2) := by
  rw [Machine.run_append]
  simp [run]

end

/-! ## The components of a system -/

section
variable {σ ε ω φ ι κ α : Type} [DecidableEq ι]

/-- `comp s i` is component `i` of the state, and `input s e` is what the event `e` hands to
which of them. `I` is what the states of the runs are known to satisfy. -/
structure Components (step : σ → ε → Except φ (σ × List ω)) (I : σ → Prop) (comp : σ → ι → κ)
    (input : σ → ε → Option (ι × α)) (m : Machine κ α ω) : Prop where
  takes : ∀ {s e s' outs i a}, I s → step s e = .ok (s', outs) → input s e = some (i, a) →
    m (comp s i) a = (comp s' i, outs)
  frame : ∀ {s e s' outs i}, I s → step s e = .ok (s', outs) → (∀ a, input s e ≠ some (i, a)) →
    comp s' i = comp s i

variable (input : σ → ε → Option (ι × α)) (i : ι)

def Entry.inputTo (en : Entry σ ε ω) : Option α :=
  match input en.pre en.ev with
  | some (j, a) => if j = i then some a else none
  | none => none

/-- The inputs of component `i` in the order it took them. -/
def inputsTo (tr : List (Entry σ ε ω)) : List α := tr.filterMap (Entry.inputTo input i)

/-- What was sent by the steps that component `i` took. -/
def outsOf (tr : List (Entry σ ε ω)) : List ω :=
  tr.flatMap fun en => if (en.inputTo input i).isSome then en.outs else []

variable {input i} {step : σ → ε → Except φ (σ × List ω)} {I : σ → Prop} {comp : σ → ι → κ} {m : Machine κ α ω}
variable {init s : σ} {C : List (Entry σ ε ω) → σ → ε → Prop} {tr : List (Entry σ ε ω)}

theorem inputTo_eq_some {en : Entry σ ε ω} {a : α} :
    en.inputTo input i = some a ↔ input en.pre en.ev = some (i, a) := by
  unfold Entry.inputTo
  cases h : input en.pre en.ev with
  | none => simp
  | some ja =>
    obtain ⟨j, b⟩ := ja
    by_cases hj : j = i
    · simp [hj]
    · simp [hj]

theorem inputsTo_snoc (en : Entry σ ε ω) :
    inputsTo input i (tr ++ [en]) = inputsTo input i tr ++ (en.inputTo input i).toList := by
  unfold inputsTo
  rw [List.filterMap_append]
  cases h : en.inputTo input i with
  | none => simp [h]
  | some a => simp [h]

theorem outsOf_snoc (en : Entry σ ε ω) : outsOf input i (tr ++ [en]) =
    outsOf input i tr ++ if (en.inputTo input i).isSome then en.outs else [] := by
  unfold outsOf
  rw [List.flatMap_append, List.flatMap_singleton]

/-- Each component of a run is the machine after its own inputs, and what was sent for it
is what the machine sends. -/
theorem Components.run (hc : Components step I comp input m) (hI : ∀ {tr s}, Run step init C tr s → I s)
    (h : Run step init C tr s) (i : ι) :
    m.run (comp init i) (inputsTo input i tr) = (comp s i, outsOf input i tr) := by
  induction h with
  | nil => rfl
  | @snoc tr s e s' outs hr _ hst ih =>
    rw [inputsTo_snoc, outsOf_snoc]
    cases ha : Entry.inputTo input i (⟨s, e, outs⟩ : Entry σ ε ω) with
    | none =>
      have hframe : comp s' i = comp s i := by
        apply hc.frame (hI hr) hst
        intro a hin
        cases ha.symm.trans (inputTo_eq_some.mpr hin)
      simp [ih, hframe]
    | some a =>
      have htake := hc.takes (hI hr) hst (inputTo_eq_some.mp ha)
      simp only [Option.toList_some, Machine.run_snoc, ih, htake, Option.isSome_some, if_true]

/-- Two systems made of the same machines: components that start alike and are given the
same inputs end alike and send the same. -/
theorem Components.agree {σ' ε' φ' ι' : Type} [DecidableEq ι'] {step' : σ' → ε' → Except φ' (σ' × List ω)}
    {I' : σ' → Prop} {comp' : σ' → ι' → κ} {input' : σ' → ε' → Option (ι' × α)} {init' s' : σ'}
    {C' : List (Entry σ' ε' ω) → σ' → ε' → Prop} {tr' : List (Entry σ' ε' ω)}
    (hc : Components step I comp input m) (hI : ∀ {tr s}, Run step init C tr s → I s)
    (hc' : Components step' I' comp' input' m) (hI' : ∀ {tr s}, Run step' init' C' tr s → I' s)
    (h : Run step init C tr s) (h' : Run step' init' C' tr' s') {i : ι} {i' : ι'}
    (hinit : comp init i = comp' init' i') (hin : inputsTo input i tr = inputsTo input' i' tr') :
    comp s i = comp' s' i' ∧ outsOf input i tr = outsOf input' i' tr' := by
  have hrun := hc.run hI h i
  rw [hinit, hin, hc'.run hI' h' i'] at hrun
  obtain ⟨hcomp, houts⟩ := Prod.mk.inj hrun
  exact ⟨hcomp.symm, houts.symm⟩

end

/-! ## A part of a system -/

section
variable {σ ε ω φ σ' ε' ω' φ' : Type} (step : σ → ε → Except φ (σ × List ω)) (step' : σ' → ε' → Except φ' (σ' × List ω'))
  (part : σ → σ') (view : σ → ε → Option ε') (out : ω → Option ω')

/-- A step of the system is for `part` a step of its own, with the outputs that `out` knows, or nothing. -/
structure PartOf : Prop where
  steps : ∀ {s e s' outs e'}, step s e = .ok (s', outs) → view s e = some e' →
    step' (part s) e' = .ok (part s', outs.filterMap out)
  rests : ∀ {s e s' outs}, step s e = .ok (s', outs) → view s e = none → part s' = part s

def Entry.ofPart (en : Entry σ ε ω) : Option (Entry σ' ε' ω') :=
  (view en.pre en.ev).map fun e => ⟨part en.pre, e, en.outs.filterMap out⟩

variable {step step' part view out} {init s : σ} {C : List (Entry σ ε ω) → σ → ε → Prop} {tr : List (Entry σ ε ω)}

/-- What a part does in a run of the system is a run of its own. -/
theorem PartOf.run (hp : PartOf step step' part view out) (h : Run step init C tr s) :
    Run step' (part init) anyStep (tr.filterMap (Entry.ofPart part view out)) (part s) := by
  induction h with
  | nil => exact .nil
  | @snoc tr s e s' outs hr _ hst ih =>
    rw [List.filterMap_append]
    cases hv : view s e with
    | none =>
      rw [hp.rests hst hv]
      simpa [Entry.ofPart, hv] using ih
    | some e' =>
      have hnext := Run.snoc ih trivial (hp.steps hst hv)
      simpa [Entry.ofPart, hv] using hnext

end

end VProtocol
