import VProtocol.Lib.Run
import VProtocol.Lib.SpinLock
import VProtocol.Lib.Update

/-!
# Starting an SDK once

`InitBlockChainSdk` and `CIdcClient::Init` are called from any number of threads, in any
order and again. A spin lock guards `m_bInited`; who finds it false starts the thread of
the SDK and waits until that thread has come up or has given up. However the threads
interleave, one start is made and no second one ever follows, whether the first came up or
not. A call that makes no start returns 0.
-/

namespace VProtocol.Sdk

open Function (update)

/-- `CInitThreadParam` as the caller sets it. -/
structure InitThreadParam where
  nAppType : Int16
  nAppID : Int16
  deriving DecidableEq

/-- What the two functions do differently where `spawn` fails, and before they return 0
for a start. -/
structure Starter where
  -- the code that is returned, or `none` where the function goes on as after a start
  spawnFailed : Option Int
  -- `CInitClientSdk` is sent to the service
  sendsInit : Bool

def initBlockChainSdk : Starter := ⟨some (-1), false⟩

def idcClientInit : Starter := ⟨none, true⟩

inductive Phase where
  | outside
  | spinning (param : InitThreadParam)
  /-- Has set the flag. -/
  | testing (param : InitThreadParam)
  /-- Has found `m_bInited` true. -/
  | repeated
  /-- Has found `m_bInited` false. -/
  | setting (param : InitThreadParam)
  /-- Has set `m_bInited`. -/
  | clearing (param : InitThreadParam)
  | starting (param : InitThreadParam)
  /-- Waits for the event; `nAppID` is that of the parameter once the event is signalled. -/
  | waiting (param : InitThreadParam) (nAppID : Option Int16)
  deriving DecidableEq

structure State (ι : Type) where
  lock : Bool := false
  bInited : Bool := false
  phase : ι → Phase := fun _ => .outside

inductive Event (ι : Type) where
  | call (i : ι) (param : InitThreadParam)
  | testAndSet (i : ι)
  | test (i : ι)
  | set (i : ι)
  | clear (i : ι)
  | spawn (i : ι) (spawned : Bool)
  -- the thread of the SDK: whether `WORK_ROOT` is set, and what `Init` of the manager returns
  | threadFunction (i : ι) (workRoot : Bool) (init : Int)
  | wake (i : ι)

inductive Out (ι : Type) where
  | spawn (i : ι) (spawned : Bool)
  /-- The thread of the SDK has come up and enters its loop. -/
  | runLoop (i : ι)
  | initClientSdk (i : ι)
  | ret (i : ι) (code : Int)
  deriving DecidableEq

inductive Stop where
  | outOfTurn
  deriving DecidableEq

section
variable {ι : Type} [DecidableEq ι]

def State.move (s : State ι) (i : ι) (x : Phase) : State ι := { s with phase := update s.phase i x }

/-- What a call that made the start ends with. -/
def Starter.started (sdk : Starter) (i : ι) : List (Out ι) :=
  (if sdk.sendsInit then [.initClientSdk i] else []) ++ [.ret i 0]

def step (sdk : Starter) (s : State ι) : Event ι → Except Stop (State ι × List (Out ι))
  | .call i param =>
    match s.phase i with
    | .outside => .ok (s.move i (.spinning param), [])
    | _ => .error .outOfTurn
  | .testAndSet i =>
    match s.phase i with
    | .spinning param => .ok (if s.lock then s else { s.move i (.testing param) with lock := true }, [])
    | _ => .error .outOfTurn
  | .test i =>
    match s.phase i with
    | .testing param => .ok (s.move i (if s.bInited then .repeated else .setting param), [])
    | _ => .error .outOfTurn
  | .set i =>
    match s.phase i with
    | .setting param => .ok ({ s.move i (.clearing param) with bInited := true }, [])
    | _ => .error .outOfTurn
  | .clear i =>
    match s.phase i with
    | .repeated => .ok ({ s.move i .outside with lock := false }, [.ret i 0])
    | .clearing param => .ok ({ s.move i (.starting param) with lock := false }, [])
    | _ => .error .outOfTurn
  | .spawn i spawned =>
    match s.phase i with
    | .starting param =>
      if spawned then .ok (s.move i (.waiting param none), [.spawn i true])
      else
        .ok (s.move i .outside, .spawn i false ::
          match sdk.spawnFailed with
          | some code => [.ret i code]
          | none => sdk.started i)
    | _ => .error .outOfTurn
  | .threadFunction i workRoot init =>
    match s.phase i with
    | .waiting param none =>
      if workRoot ∧ init = 0 then .ok (s.move i (.waiting param (some param.nAppID)), [.runLoop i])
      else .ok (s.move i (.waiting param (some (-1))), [])
    | _ => .error .outOfTurn
  | .wake i =>
    match s.phase i with
    | .waiting param (some nAppID) =>
      if nAppID = param.nAppID then .ok (s.move i .outside, sdk.started i) else .ok (s.move i .outside, [.ret i (-1)])
    | _ => .error .outOfTurn

/-! ## What a run shows -/

abbrev History (ι : Type) := List (Entry (State ι) (Event ι) (Out ι))

/-- A start, the SDK coming up, and a call that is refused. -/
def Out.mark : Out ι → Bool
  | .spawn _ _ => true
  | .runLoop _ => true
  | .initClientSdk _ => false
  | .ret _ code => code ≠ 0

def marks (tr : History ι) : List (Out ι) := (tr.flatMap (·.outs)).filter Out.mark

/-- What the call whose `spawn` failed is told. -/
def Starter.refusal (sdk : Starter) (i : ι) : List (Out ι) :=
  match sdk.spawnFailed with
  | some code => if code = 0 then [] else [.ret i code]
  | none => []

/-- At most one start; it comes up, or its caller is refused and nothing comes up. -/
inductive Marked (sdk : Starter) : List (Out ι) → Prop
  | nothing : Marked sdk []
  | spawned (i) : Marked sdk [.spawn i true]
  | up (i) : Marked sdk [.spawn i true, .runLoop i]
  | refused (i) : Marked sdk [.spawn i true, .ret i (-1)]
  | failed (i) : Marked sdk (.spawn i false :: sdk.refusal i)

/-! ## Places -/

/-- Between setting the flag and clearing it. -/
def Inside : Phase → Prop
  | .testing _ | .repeated | .setting _ | .clearing _ => True
  | _ => False

/-- Has set `m_bInited` and not returned. -/
def Claimed : Phase → Prop
  | .clearing _ | .starting _ | .waiting _ _ => True
  | _ => False

/-- How far the start is, by the place of the thread that makes it and by what was shown. -/
inductive Stage (sdk : Starter) (tr : History ι) (s : State ι) : Prop
  | before : s.bInited = false → (∀ j, ¬Claimed (s.phase j)) → marks tr = [] → Stage sdk tr s
  | claimed {i param} : s.bInited = true → s.phase i = .clearing param ∨ s.phase i = .starting param →
      (∀ j, j ≠ i → ¬Claimed (s.phase j)) → marks tr = [] → Stage sdk tr s
  | waiting {i param} : s.bInited = true → s.phase i = .waiting param none →
      (∀ j, j ≠ i → ¬Claimed (s.phase j)) → marks tr = [.spawn i true] → Stage sdk tr s
  | signalled {i param nAppID} : s.bInited = true → s.phase i = .waiting param (some nAppID) →
      (∀ j, j ≠ i → ¬Claimed (s.phase j)) →
      marks tr = [.spawn i true, .runLoop i] ∧ nAppID = param.nAppID ∨ marks tr = [.spawn i true] → Stage sdk tr s
  | ended : s.bInited = true → (∀ j, ¬Claimed (s.phase j)) → Marked sdk (marks tr) → Stage sdk tr s

structure InitInv (sdk : Starter) (tr : History ι) (s : State ι) : Prop where
  guarded : Guarded Inside s.lock s.phase
  tested : ∀ i param, s.phase i = .setting param → s.bInited = false
  stage : Stage sdk tr s

variable {sdk : Starter} {tr : History ι} {s s' : State ι} {e : Event ι} {outs : List (Out ι)} {i : ι}
variable {param : InitThreadParam} {x : Phase}

omit [DecidableEq ι] in
theorem marks_snoc (en : Entry (State ι) (Event ι) (Out ι)) :
    marks (tr ++ [en]) = marks tr ++ en.outs.filter Out.mark := by
  unfold marks
  rw [List.flatMap_append, List.flatMap_singleton, List.filter_append]

omit [DecidableEq ι] in
theorem marks_quiet (h : outs.filter Out.mark = []) : marks (tr ++ [⟨s, e, outs⟩]) = marks tr := by
  rw [marks_snoc, h, List.append_nil]

omit [DecidableEq ι] in
theorem started_unmarked (sdk : Starter) (i : ι) : (sdk.started i).filter Out.mark = [] := by
  unfold Starter.started
  cases sdk.sendsInit with
  | true => rfl
  | false => rfl

omit [DecidableEq ι] in
theorem Stage.marked (h : Stage sdk tr s) : Marked sdk (marks tr) := by
  cases h with
  | before _ _ hm => rw [hm]; exact .nothing
  | claimed _ _ _ hm => rw [hm]; exact .nothing
  | waiting _ _ _ hm => rw [hm]; exact .spawned _
  | signalled _ _ _ hm =>
    rcases hm with ⟨hm, -⟩ | hm
    · rw [hm]; exact .up _
    · rw [hm]; exact .spawned _
  | ended _ _ hm => exact hm

theorem others_update {k : ι} (h : ∀ j, j ≠ k → ¬Claimed (s.phase j)) (hx : ¬Claimed x) :
    ∀ j, j ≠ k → ¬Claimed (update s.phase i x j) := by
  intro j hj
  by_cases hji : j = i
  · rw [hji, Function.update_self]
    exact hx
  · rw [Function.update_of_ne hji]
    exact h j hj

/-- A step that shows nothing, of a thread that makes no start. -/
theorem Stage.quiet (h : Stage sdk tr s) (hi : ¬Claimed (s.phase i)) (hx : ¬Claimed x)
    (hp : s'.phase = update s.phase i x) (hb : s'.bInited = s.bInited) (hm : outs.filter Out.mark = []) :
    Stage sdk (tr ++ [⟨s, e, outs⟩]) s' := by
  have hmarks : marks (tr ++ [⟨s, e, outs⟩]) = marks tr := marks_quiet hm
  have hkeep : ∀ k y, s.phase k = y → Claimed y → s'.phase k = y := by
    intro k y hk hy
    have hne : k ≠ i := by
      intro heq
      rw [heq] at hk
      rw [hk] at hi
      exact hi hy
    rw [hp, Function.update_of_ne hne, hk]
  have hnone : (∀ j, ¬Claimed (s.phase j)) → ∀ j, ¬Claimed (s'.phase j) := by
    intro hall
    rw [hp]
    exact forall_update (P := fun y => ¬Claimed y) hall hx
  have hothers : ∀ {k}, (∀ j, j ≠ k → ¬Claimed (s.phase j)) → ∀ j, j ≠ k → ¬Claimed (s'.phase j) := by
    intro k hall
    rw [hp]
    exact others_update hall hx
  cases h with
  | before hinit hall hmk => exact .before (hb.trans hinit) (hnone hall) (hmarks.trans hmk)
  | @claimed k param hinit hk ho hmk =>
    have hk' : s'.phase k = .clearing param ∨ s'.phase k = .starting param :=
      hk.imp (fun hk => hkeep _ _ hk trivial) fun hk => hkeep _ _ hk trivial
    exact .claimed (hb.trans hinit) hk' (hothers ho) (hmarks.trans hmk)
  | waiting hinit hk ho hmk => exact .waiting (hb.trans hinit) (hkeep _ _ hk trivial) (hothers ho) (hmarks.trans hmk)
  | signalled hinit hk ho hmk =>
    refine .signalled (hb.trans hinit) (hkeep _ _ hk trivial) (hothers ho) ?_
    rw [hmarks]
    exact hmk
  | ended hinit hall hmk =>
    refine .ended (hb.trans hinit) (hnone hall) ?_
    rw [hmarks]
    exact hmk

/-- The stages of a thread that makes the start. -/
theorem Stage.of_claimed (h : Stage sdk tr s) (hi : Claimed (s.phase i)) :
    s.bInited = true ∧ (∀ j, j ≠ i → ¬Claimed (s.phase j)) ∧
      ((∃ param, s.phase i = .clearing param ∨ s.phase i = .starting param) ∧ marks tr = [] ∨
        (∃ param, s.phase i = .waiting param none) ∧ marks tr = [.spawn i true] ∨
        ∃ param nAppID, s.phase i = .waiting param (some nAppID) ∧
          (marks tr = [.spawn i true, .runLoop i] ∧ nAppID = param.nAppID ∨ marks tr = [.spawn i true])) := by
  have hself : ∀ {k}, (∀ j, j ≠ k → ¬Claimed (s.phase j)) → k = i := by
    intro k hall
    by_contra hne
    exact hall i (Ne.symm hne) hi
  cases h with
  | before _ hall _ => exact absurd hi (hall i)
  | @claimed k param hinit hk ho hmk =>
    obtain rfl := hself ho
    exact ⟨hinit, ho, .inl ⟨⟨param, hk⟩, hmk⟩⟩
  | @waiting k param hinit hk ho hmk =>
    obtain rfl := hself ho
    exact ⟨hinit, ho, .inr (.inl ⟨⟨param, hk⟩, hmk⟩)⟩
  | @signalled k param nAppID hinit hk ho hmk =>
    obtain rfl := hself ho
    exact ⟨hinit, ho, .inr (.inr ⟨param, nAppID, hk, hmk⟩)⟩
  | ended _ hall _ => exact absurd hi (hall i)

theorem others_self (h : ∀ j, j ≠ i → ¬Claimed (s.phase j)) : ∀ j, j ≠ i → ¬Claimed (update s.phase i x j) := by
  intro j hj
  rw [Function.update_of_ne hj]
  exact h j hj

theorem none_claimed (h : ∀ j, j ≠ i → ¬Claimed (s.phase j)) (hx : ¬Claimed x) (j : ι) :
    ¬Claimed (update s.phase i x j) := by
  by_cases hj : j = i
  · rw [hj, Function.update_self]
    exact hx
  · exact others_self h j hj

/-! ## Every step keeps it -/

theorem InitInv.tested_move (hi : InitInv sdk tr s) (hx : ∀ param, x ≠ .setting param)
    (hp : s'.phase = update s.phase i x)
    (hb : s'.bInited = s.bInited) (j : ι) (param : InitThreadParam) (hj : s'.phase j = .setting param) :
    s'.bInited = false := by
  rw [hp] at hj
  by_cases hji : j = i
  · rw [hji, Function.update_self] at hj
    exact absurd hj (hx param)
  · rw [Function.update_of_ne hji] at hj
    rw [hb]
    exact hi.tested j param hj

theorem InitInv.test (hi : InitInv sdk tr s) (hp : s.phase i = .testing param) :
    InitInv sdk (tr ++ [⟨s, e, []⟩]) (s.move i (if s.bInited then .repeated else .setting param)) := by
  have hout : ¬Claimed (if s.bInited then Phase.repeated else .setting param) := by
    split
    · exact id
    · exact id
  refine ⟨hi.guarded.move ?_, ?_, ?_⟩
  · rw [hp]
    split
    · exact ⟨fun _ => trivial, fun _ => trivial⟩
    · exact ⟨fun _ => trivial, fun _ => trivial⟩
  · intro j param' hj
    by_cases hji : j = i
    · cases hb : s.bInited with
      | false => exact hb
      | true => simp [State.move, hji, hb] at hj
    · simp only [State.move, Function.update_of_ne hji] at hj
      exact hi.tested j param' hj
  · refine hi.stage.quiet (i := i) ?_ hout rfl rfl rfl
    rw [hp]
    exact id

/-- Only one thread writes `m_bInited`, and no other has found it false. -/
theorem InitInv.set (hi : InitInv sdk tr s) (hp : s.phase i = .setting param) :
    InitInv sdk (tr ++ [⟨s, e, []⟩]) { s.move i (.clearing param) with bInited := true } := by
  have hinit := hi.tested i param hp
  refine ⟨hi.guarded.move ?_, ?_, ?_⟩
  · rw [hp]
    exact ⟨fun _ => trivial, fun _ => trivial⟩
  · intro j param' hj
    by_cases hji : j = i
    · simp [State.move, hji] at hj
    · simp only [State.move, Function.update_of_ne hji] at hj
      refine absurd ?_ (hi.guarded.sole.others (i := i) ?_ hji)
      · rw [hj]
        exact trivial
      · rw [hp]
        exact trivial
  · cases hi.stage with
    | before _ hall hmk =>
      refine .claimed rfl (.inl (Function.update_self i _ _)) (others_self fun j _ => hall j) ?_
      rw [marks_quiet rfl]
      exact hmk
    | claimed hb _ _ _ => cases hinit.symm.trans hb
    | waiting hb _ _ _ => cases hinit.symm.trans hb
    | signalled hb _ _ _ => cases hinit.symm.trans hb
    | ended hb _ _ => cases hinit.symm.trans hb

theorem InitInv.clear_repeated (hi : InitInv sdk tr s) (hp : s.phase i = .repeated) :
    InitInv sdk (tr ++ [⟨s, e, [.ret i 0]⟩]) { s.move i .outside with lock := false } := by
  refine ⟨hi.guarded.release (i := i) ?_ id, hi.tested_move (x := .outside) (fun _ => nofun) rfl rfl,
    hi.stage.quiet (i := i) ?_ id rfl rfl rfl⟩
  · rw [hp]
    exact trivial
  · rw [hp]
    exact id

theorem InitInv.clear_claimed (hi : InitInv sdk tr s) (hp : s.phase i = .clearing param) :
    InitInv sdk (tr ++ [⟨s, e, []⟩]) { s.move i (.starting param) with lock := false } := by
  refine ⟨hi.guarded.release (i := i) ?_ id, hi.tested_move (x := .starting param) (fun _ => nofun) rfl rfl, ?_⟩
  · rw [hp]
    exact trivial
  · obtain ⟨hinit, ho, hcase⟩ := hi.stage.of_claimed (i := i) (by rw [hp]; exact trivial)
    rw [hp] at hcase
    rcases hcase with ⟨-, hmk⟩ | ⟨⟨param', hbad⟩, -⟩ | ⟨param', nAppID, hbad, -⟩
    · refine .claimed hinit (.inr (Function.update_self i _ _)) (others_self ho) ?_
      rw [marks_quiet rfl]
      exact hmk
    · cases hbad
    · cases hbad

/-- A step of the thread that makes the start, outside the lock. -/
theorem InitInv.of_stage (hi : InitInv sdk tr s) (hin : ¬Inside (s.phase i)) (hx : ¬Inside x)
    (hset : ∀ param, x ≠ .setting param) (hst : Stage sdk (tr ++ [⟨s, e, outs⟩]) (s.move i x)) :
    InitInv sdk (tr ++ [⟨s, e, outs⟩]) (s.move i x) :=
  ⟨hi.guarded.move ⟨fun h => absurd h hx, fun h => absurd h hin⟩, hi.tested_move hset rfl rfl, hst⟩

theorem InitInv.spawn (hi : InitInv sdk tr s) (hp : s.phase i = .starting param) :
    InitInv sdk (tr ++ [⟨s, e, [.spawn i true]⟩]) (s.move i (.waiting param none)) := by
  refine hi.of_stage (by rw [hp]; exact id) id (fun _ => nofun) ?_
  obtain ⟨hinit, ho, hcase⟩ := hi.stage.of_claimed (i := i) (by rw [hp]; exact trivial)
  rw [hp] at hcase
  rcases hcase with ⟨-, hmk⟩ | ⟨⟨param', hbad⟩, -⟩ | ⟨param', nAppID, hbad, -⟩
  · refine .waiting hinit (Function.update_self i _ _) (others_self ho) ?_
    rw [marks_snoc, hmk]
    rfl
  · cases hbad
  · cases hbad

omit [DecidableEq ι] in
theorem refusal_eq (sdk : Starter) (i : ι) : (Out.spawn i false :: (match sdk.spawnFailed with
      | some code => [.ret i code]
      | none => sdk.started i)).filter Out.mark = .spawn i false :: sdk.refusal i := by
  rw [List.filter_cons_of_pos rfl]
  unfold Starter.refusal
  cases sdk.spawnFailed with
  | none => rw [started_unmarked]
  | some code =>
    by_cases hc : code = 0
    · simp [hc, Out.mark]
    · simp [hc, Out.mark]

theorem InitInv.spawn_failed (hi : InitInv sdk tr s) (hp : s.phase i = .starting param)
    (hm : outs.filter Out.mark = .spawn i false :: sdk.refusal i) :
    InitInv sdk (tr ++ [⟨s, e, outs⟩]) (s.move i .outside) := by
  refine hi.of_stage (by rw [hp]; exact id) id (fun _ => nofun) ?_
  obtain ⟨hinit, ho, hcase⟩ := hi.stage.of_claimed (i := i) (by rw [hp]; exact trivial)
  rw [hp] at hcase
  rcases hcase with ⟨-, hmk⟩ | ⟨⟨param', hbad⟩, -⟩ | ⟨param', nAppID, hbad, -⟩
  · refine .ended hinit (none_claimed ho id) ?_
    rw [marks_snoc, hmk, hm]
    exact .failed i
  · cases hbad
  · cases hbad

theorem InitInv.signal (hi : InitInv sdk tr s) (hp : s.phase i = .waiting param none) {nAppID : Int16}
    (hm : outs = [.runLoop i] ∧ nAppID = param.nAppID ∨ outs = []) :
    InitInv sdk (tr ++ [⟨s, e, outs⟩]) (s.move i (.waiting param (some nAppID))) := by
  refine hi.of_stage (by rw [hp]; exact id) id (fun _ => nofun) ?_
  obtain ⟨hinit, ho, hcase⟩ := hi.stage.of_claimed (i := i) (by rw [hp]; exact trivial)
  rw [hp] at hcase
  rcases hcase with ⟨⟨param', hbad⟩, -⟩ | ⟨-, hmk⟩ | ⟨param', nAppID', hbad, -⟩
  · rcases hbad with hbad | hbad
    · cases hbad
    · cases hbad
  · refine .signalled hinit (Function.update_self i _ _) (others_self ho) ?_
    rw [marks_snoc, hmk]
    rcases hm with ⟨rfl, hid⟩ | rfl
    · exact .inl ⟨rfl, hid⟩
    · exact .inr rfl
  · cases hbad

/-- The caller that was waiting returns. It is refused only where nothing came up. -/
theorem InitInv.wake (hi : InitInv sdk tr s) {nAppID : Int16} (hp : s.phase i = .waiting param (some nAppID))
    (hm : outs.filter Out.mark = [] ∨ nAppID ≠ param.nAppID ∧ outs = [.ret i (-1)]) :
    InitInv sdk (tr ++ [⟨s, e, outs⟩]) (s.move i .outside) := by
  refine hi.of_stage (by rw [hp]; exact id) id (fun _ => nofun) ?_
  obtain ⟨hinit, ho, hcase⟩ := hi.stage.of_claimed (i := i) (by rw [hp]; exact trivial)
  have hmarked := hi.stage.marked
  rw [hp] at hcase
  refine .ended hinit (none_claimed ho id) ?_
  rw [marks_snoc]
  rcases hm with hm | ⟨hne, rfl⟩
  · rw [hm, List.append_nil]
    exact hmarked
  · rcases hcase with ⟨⟨param', hbad⟩, -⟩ | ⟨⟨param', hbad⟩, -⟩ | ⟨param', nAppID', heq, hmk⟩
    · rcases hbad with hbad | hbad
      · cases hbad
      · cases hbad
    · cases hbad
    · obtain ⟨rfl, hid⟩ := Phase.waiting.inj heq
      obtain rfl := Option.some.inj hid
      rcases hmk with ⟨-, hid⟩ | hmk
      · exact absurd hid hne
      · rw [hmk]
        exact .refused i

theorem InitInv.step (hi : InitInv sdk tr s) (hst : Sdk.step sdk s e = .ok (s', outs)) :
    InitInv sdk (tr ++ [⟨s, e, outs⟩]) s' := by
  cases e with
  | call i param =>
    simp only [Sdk.step] at hst
    split at hst
    · rename_i hp
      obtain ⟨rfl, rfl⟩ := Prod.mk.inj (Except.ok.inj hst)
      refine hi.of_stage (by rw [hp]; exact id) id (fun _ => nofun) (hi.stage.quiet (i := i) ?_ id rfl rfl rfl)
      rw [hp]
      exact id
    · cases hst
  | testAndSet i =>
    simp only [Sdk.step] at hst
    split at hst
    · rename_i param hp
      obtain ⟨rfl, rfl⟩ := Prod.mk.inj (Except.ok.inj hst)
      have hnot : ¬Claimed (s.phase i) := by
        rw [hp]
        exact id
      cases hl : s.lock with
      | true =>
        have hself : s.phase = update s.phase i (s.phase i) := (Function.update_eq_self i s.phase).symm
        rw [if_pos rfl]
        exact ⟨hi.guarded, hi.tested, hi.stage.quiet hnot hnot hself rfl rfl⟩
      | false =>
        have hg := hi.guarded
        rw [hl] at hg
        rw [if_neg Bool.false_ne_true]
        exact ⟨hg.acquire trivial, hi.tested_move (x := .testing param) (fun _ => nofun) rfl rfl,
          hi.stage.quiet hnot id rfl rfl rfl⟩
    · cases hst
  | test i =>
    simp only [Sdk.step] at hst
    split at hst
    · obtain ⟨rfl, rfl⟩ := Prod.mk.inj (Except.ok.inj hst)
      exact hi.test ‹_›
    · cases hst
  | set i =>
    simp only [Sdk.step] at hst
    split at hst
    · obtain ⟨rfl, rfl⟩ := Prod.mk.inj (Except.ok.inj hst)
      exact hi.set ‹_›
    · cases hst
  | clear i =>
    simp only [Sdk.step] at hst
    split at hst
    · obtain ⟨rfl, rfl⟩ := Prod.mk.inj (Except.ok.inj hst)
      exact hi.clear_repeated ‹_›
    · obtain ⟨rfl, rfl⟩ := Prod.mk.inj (Except.ok.inj hst)
      exact hi.clear_claimed ‹_›
    · cases hst
  | spawn i spawned =>
    simp only [Sdk.step] at hst
    split at hst
    · rename_i param hp
      cases spawned with
      | true =>
        obtain ⟨rfl, rfl⟩ := Prod.mk.inj (Except.ok.inj hst)
        exact hi.spawn hp
      | false =>
        obtain ⟨rfl, rfl⟩ := Prod.mk.inj (Except.ok.inj hst)
        exact hi.spawn_failed hp (refusal_eq sdk i)
    · cases hst
  | threadFunction i workRoot init =>
    simp only [Sdk.step] at hst
    split at hst
    · rename_i param hp
      split at hst
      · obtain ⟨rfl, rfl⟩ := Prod.mk.inj (Except.ok.inj hst)
        exact hi.signal hp (.inl ⟨rfl, rfl⟩)
      · obtain ⟨rfl, rfl⟩ := Prod.mk.inj (Except.ok.inj hst)
        exact hi.signal hp (.inr rfl)
    · cases hst
  | wake i =>
    simp only [Sdk.step] at hst
    split at hst
    · rename_i param nAppID hp
      split at hst
      · obtain ⟨rfl, rfl⟩ := Prod.mk.inj (Except.ok.inj hst)
        exact hi.wake hp (.inl (started_unmarked sdk i))
      · obtain ⟨rfl, rfl⟩ := Prod.mk.inj (Except.ok.inj hst)
        exact hi.wake hp (.inr ⟨‹_›, rfl⟩)
    · cases hst

omit [DecidableEq ι] in
theorem initInv_start (sdk : Starter) : InitInv sdk [] ({} : State ι) := by
  refine ⟨⟨⟨nofun, ?_⟩, ?_⟩, ?_, .before rfl ?_ rfl⟩
  · intro ⟨j, hj⟩
    exact absurd hj id
  · intro j k hj
    exact absurd hj id
  · intro j param hj
    cases hj
  · intro j
    exact id

theorem run_initInv {C} (h : Run (Sdk.step sdk) {} C tr s) : InitInv sdk tr s := by
  apply h.invariant (InitInv sdk) (initInv_start sdk)
  intro tr s e s' outs _ hi _ hst
  exact hi.step hst

/-! ## The lock is always given back -/

def Event.thread : Event ι → ι
  | .call i _ | .testAndSet i | .test i | .set i | .clear i | .spawn i _ | .threadFunction i _ _ | .wake i => i

/-- Thread `i` clears the flag by at most three steps of its own. -/
def ClearsFlag (sdk : Starter) (s : State ι) (i : ι) : Prop :=
  ∃ evs : List (Event ι), evs.length ≤ 3 ∧ (∀ e ∈ evs, e.thread = i) ∧
    (trace (Sdk.step sdk) s evs).map (·.ev) = evs ∧ (final (Sdk.step sdk) s evs).lock = false

theorem clears_setting (hp : s.phase i = .setting param) : ClearsFlag sdk s i := by
  refine ⟨[.set i, .clear i], by simp, by simp [Event.thread], ?_, ?_⟩
  · simp [trace, Sdk.step, State.move, hp]
  · simp [final, Sdk.step, State.move, hp]

theorem clears_inside (hin : Inside (s.phase i)) : ClearsFlag sdk s i := by
  cases hp : s.phase i with
  | testing param =>
    cases hb : s.bInited with
    | true =>
      refine ⟨[.test i, .clear i], by simp, by simp [Event.thread], ?_, ?_⟩
      · simp [trace, Sdk.step, State.move, hp, hb]
      · simp [final, Sdk.step, State.move, hp, hb]
    | false =>
      refine ⟨[.test i, .set i, .clear i], by simp, by simp [Event.thread], ?_, ?_⟩
      · simp [trace, Sdk.step, State.move, hp, hb]
      · simp [final, Sdk.step, State.move, hp, hb]
  | setting param => exact clears_setting hp
  | repeated =>
    refine ⟨[.clear i], by simp, by simp [Event.thread], ?_, ?_⟩
    · simp [trace, Sdk.step, State.move, hp]
    · simp [final, Sdk.step, State.move, hp]
  | clearing param =>
    refine ⟨[.clear i], by simp, by simp [Event.thread], ?_, ?_⟩
    · simp [trace, Sdk.step, State.move, hp]
    · simp [final, Sdk.step, State.move, hp]
  | outside => rw [hp] at hin; exact absurd hin id
  | spinning param => rw [hp] at hin; exact absurd hin id
  | starting param => rw [hp] at hin; exact absurd hin id
  | waiting param x => rw [hp] at hin; exact absurd hin id

/-- One start at most, one thread in the section, and a thread that spins waits for one that
can come out on its own. -/
structure StartsOnce (sdk : Starter) (tr : History ι) (s : State ι) : Prop where
  marked : Marked sdk (marks tr)
  sole : Sole Inside s.phase
  free : s.lock = true → ∃ i, ClearsFlag sdk s i

/-- Whatever threads call, and however their steps interleave: the SDK is started at most
once, a call is refused only where it made the start and nothing came up, and nothing comes
up after that. -/
theorem sdk_starts_once {C} (h : Run (Sdk.step sdk) {} C tr s) : StartsOnce sdk tr s := by
  have hi := run_initInv h
  refine ⟨hi.stage.marked, hi.guarded.sole, fun hl => ?_⟩
  obtain ⟨i, hin⟩ := hi.guarded.set.mp hl
  exact ⟨i, clears_inside hin⟩

end

/-- Two threads call at once. One makes the start, which does not come up; the other returns 0. -/
def twoCallers : List (Event Bool) :=
  [.call true ⟨1, 7⟩, .testAndSet true, .call false ⟨1, 8⟩, .testAndSet false, .test true, .set true, .clear true,
    .testAndSet false, .test false, .spawn true true, .clear false, .threadFunction true false 0, .wake true]

theorem sdk_starts_once_two : ∃ tr s, Run (step initBlockChainSdk) {} anyStep tr s ∧
    StartsOnce initBlockChainSdk tr s ∧ marks tr = [.spawn true true, .ret true (-1)] ∧
    Out.ret false 0 ∈ tr.flatMap (·.outs) := by
  have hr : Run (step initBlockChainSdk) {} anyStep (trace (step initBlockChainSdk) {} twoCallers) _ :=
    run_trace_any twoCallers
  exact ⟨_, _, hr, sdk_starts_once hr, by decide, by decide⟩

end VProtocol.Sdk
