import Mathlib.Data.List.Nodup
import VProtocol.Lib.Run
import VProtocol.Lib.Update
import VProtocol.Lib.UpdateFirst

/-!
# The watchdog

`CWatchdogHandler` reads which programs to run from a configuration, starts them one after
the other, and starts a program again when its process exits. What `spawn` returns is an
input: the id of a new process, or -1. A process whose program is to be started again is
found by its id, so no two entries may have the same one while a process has it; and an
entry whose `spawn` failed has no process whose exit could start it again.
-/

namespace VProtocol.Tools

open Function (update)

/-! ## Configuration -/

structure CAppParam where
  appName : String
  appParam : String
  pidApp : Int := 0
  deriving DecidableEq

/-- The string items of a section of the configuration. -/
abbrev Section := String → Option String

def optionMessage : String := "Please check the setting of 'WORK_ROOT' or '-h\x7bhomepath\x7d' !\n"

/-- The options as `ACE_Get_Opt` returns them: the home directory, and what is printed. -/
def parseArgs (workRoot : Option String) : String → List (Char × Option String) → String × List String
  | home, [] => (home, [])
  | home, (c, arg) :: opts =>
    if c = 'h' ∨ c = 'H' then
      match arg with
      | some parg => parseArgs workRoot parg opts
      | none =>
        match workRoot with
        | some pszHomePath => parseArgs workRoot pszHomePath opts
        | none => (home, [optionMessage])
    else ((parseArgs workRoot home opts).1, optionMessage :: (parseArgs workRoot home opts).2)

def getStringValue (config : Section) (name : String) : Except (List String) String :=
  match config name with
  | some value => .ok value
  | none => .error ["failed to open item, key:" ++ name ++ ".\n", "failed to read " ++ name ++ " item.\n"]

def getAppParam (home : String) : List Section → Except (List String) (List CAppParam)
  | [] => .ok []
  | config :: configs => do
    let strTemp ← getStringValue config "app_name"
    let appParam ← getStringValue config "app_param"
    let lstAppParam ← getAppParam home configs
    .ok ({ appName := home ++ "/" ++ "bin" ++ "/" ++ strTemp, appParam } :: lstAppParam)

def configureFile (home : String) : String := home ++ "/" ++ "conf" ++ "/" ++ "watchdog.ini"

/-- `heap` is whether the configuration can be opened, `importConfig` the sections of a file. -/
def readConfigureInfo (heap : Bool) (importConfig : String → Option (List Section)) (home : String) :
    Except (List String) (List CAppParam) :=
  if heap then
    match importConfig (configureFile home) with
    | none => .error ["failed to open configure file:" ++ configureFile home ++ ".\n"]
    | some configs => getAppParam home configs
  else .error ["failed to init configure.\n"]

/-! ## Processes -/

/-- `started` is how many entries the loop of `StartProc` has passed, and `running` has the
command line of each process that was started and whose exit was not reported. -/
structure State where
  lstAppParam : List CAppParam
  started : Nat := 0
  running : Int → Option String := fun _ => none

/-- `Init` up to the loop that starts the programs; what is printed when it fails. -/
def init (workRoot : Option String) (opts : List (Char × Option String)) (heap : Bool)
    (importConfig : String → Option (List Section)) : Except (List String) State :=
  -- what `ParseArgs` returns is not looked at
  (readConfigureInfo heap importConfig (parseArgs workRoot "" opts).1).map fun lstAppParam => { lstAppParam }

inductive Event where
  -- the loop of `Init` takes the next entry
  | start (spawned : Int)
  -- a process exits; `spawned` is what `spawn` returns if it is called
  | exit (pid spawned : Int)

inductive Out where
  | spawn (commandLine : String) (pid : Int)
  deriving DecidableEq

inductive Stop where
  -- the loop of `Init` has ended, or has not yet; or there is no such process
  | outOfTurn
  deriving DecidableEq

def CAppParam.commandLine (a : CAppParam) : String := a.appName ++ " " ++ a.appParam

def CAppParam.startProc (spawned : Int) (a : CAppParam) : CAppParam := { a with pidApp := spawned }

/-- What runs once a process with this command line was asked for. -/
def spawn (running : Int → Option String) (commandLine : String) (spawned : Int) : Int → Option String :=
  if spawned = -1 then running else update running spawned (some commandLine)

def start (s : State) (spawned : Int) : Except Stop (State × List Out) :=
  match s.lstAppParam[s.started]? with
  | none => .error .outOfTurn
  | some a =>
    .ok ({ lstAppParam := s.lstAppParam.set s.started (a.startProc spawned)
           started := s.started + 1
           running := spawn s.running a.commandLine spawned },
      [.spawn a.commandLine spawned])

def handleExit (s : State) (pid spawned : Int) : State × List Out :=
  let running := update s.running pid none
  match s.lstAppParam.find? (·.pidApp = pid) with
  | none => ({ s with running }, [])
  | some a =>
    ({ s with
        lstAppParam := updateFirst (·.pidApp = pid) (CAppParam.startProc spawned) s.lstAppParam
        running := spawn running a.commandLine spawned },
      [.spawn a.commandLine spawned])

def step (s : State) : Event → Except Stop (State × List Out)
  | .start spawned => start s spawned
  | .exit pid spawned =>
    if s.started < s.lstAppParam.length ∨ s.running pid = none then .error .outOfTurn else .ok (handleExit s pid spawned)

abbrev History := List (Entry State Event Out)

/-- `spawn` returns -1 or the id of a process that was not there. -/
def Fresh (_ : History) (s : State) : Event → Prop
  | .start spawned => spawned = -1 ∨ 0 < spawned ∧ s.running spawned = none
  | .exit pid spawned => spawned = -1 ∨ 0 < spawned ∧ update s.running pid none spawned = none

instance (tr : History) (s : State) (e : Event) : Decidable (Fresh tr s e) := by
  cases e <;> exact inferInstanceAs (Decidable (_ ∨ _ ∧ _))

@[simp] theorem startProc_pidApp (spawned : Int) (a : CAppParam) : (a.startProc spawned).pidApp = spawned := rfl

@[simp] theorem startProc_commandLine (spawned : Int) (a : CAppParam) :
    (a.startProc spawned).commandLine = a.commandLine := rfl

/-! ## What a step does -/

inductive Turn (s : State) : Event → State → List Out → Prop
  | started {l₁ a l₂ spawned} : s.lstAppParam = l₁ ++ a :: l₂ → l₁.length = s.started →
      Turn s (.start spawned)
        ⟨l₁ ++ a.startProc spawned :: l₂, s.started + 1, spawn s.running a.commandLine spawned⟩
        [.spawn a.commandLine spawned]
  | restarted {l₁ a l₂ pid spawned} : s.lstAppParam.length ≤ s.started → s.running pid ≠ none →
      s.lstAppParam = l₁ ++ a :: l₂ → a.pidApp = pid →
      Turn s (.exit pid spawned)
        ⟨l₁ ++ a.startProc spawned :: l₂, s.started, spawn (update s.running pid none) a.commandLine spawned⟩
        [.spawn a.commandLine spawned]
  | unknown {pid spawned} : s.running pid ≠ none → (∀ a ∈ s.lstAppParam, a.pidApp ≠ pid) →
      Turn s (.exit pid spawned) { s with running := update s.running pid none } []

section
variable {s s' : State} {e : Event} {outs : List Out} {tr : History} {pid spawned : Int} {cmd : String}

theorem step_turn (h : step s e = .ok (s', outs)) : Turn s e s' outs := by
  cases e with
  | start spawned =>
    simp only [step, start] at h
    split at h
    · cases h
    · rename_i a ha
      obtain ⟨rfl, rfl⟩ := Prod.mk.inj (Except.ok.inj h)
      obtain ⟨hlt, rfl⟩ := List.getElem?_eq_some_iff.mp ha
      have hsplit : s.lstAppParam = s.lstAppParam.take s.started ++ s.lstAppParam[s.started] ::
          s.lstAppParam.drop (s.started + 1) := by
        rw [← List.drop_eq_getElem_cons hlt, List.take_append_drop]
      rw [List.set_eq_take_append_cons_drop, if_pos hlt]
      exact .started hsplit (List.length_take_of_le (Nat.le_of_lt hlt))
  | exit pid spawned =>
    simp only [step] at h
    split at h
    · cases h
    · rename_i hturn
      obtain ⟨hlen, hrun⟩ := not_or.mp hturn
      obtain ⟨rfl, rfl⟩ := Prod.mk.inj (Except.ok.inj h)
      cases hfind : s.lstAppParam.find? (·.pidApp = pid) with
      | none =>
        refine .unknown hrun fun a ha => ?_
        simpa using List.find?_eq_none.mp hfind a ha
      | some a =>
        obtain ⟨l₁, l₂, hsplit, hup⟩ := find?_split (f := CAppParam.startProc spawned) hfind
        simp only [hup]
        exact .restarted (Nat.not_lt.mp hlen) hrun hsplit (find?_key_some hfind).2

/-! ## Entries and processes -/

/-- The processes of the entries. -/
def pids (l : List CAppParam) : List Int := (l.map (·.pidApp)).filter (0 < ·)

def failures (tr : History) (cmd : String) : Nat := (tr.flatMap (·.outs)).count (.spawn cmd (-1))

def CAppParam.Failed (cmd : String) (a : CAppParam) : Bool := a.commandLine = cmd ∧ a.pidApp = -1

/-- `running` is the processes of the entries `l`, each with one entry. -/
structure Owns (l : List CAppParam) (running : Int → Option String) : Prop where
  distinct : (pids l).Nodup
  running : ∀ pid cmd, running pid = some cmd ↔ 0 < pid ∧ ∃ a ∈ l, a.pidApp = pid ∧ a.commandLine = cmd

theorem mem_pids {l : List CAppParam} : pid ∈ pids l ↔ 0 < pid ∧ ∃ a ∈ l, a.pidApp = pid := by
  unfold pids
  rw [List.mem_filter, List.mem_map, decide_eq_true_eq, and_comm]

theorem pids_cons (a : CAppParam) (l : List CAppParam) :
    pids (a :: l) = if 0 < a.pidApp then a.pidApp :: pids l else pids l := by
  unfold pids
  rw [List.map_cons, List.filter_cons]
  simp only [decide_eq_true_eq]

theorem pids_perm {l l' : List CAppParam} (h : l.Perm l') : (pids l).Perm (pids l') := (h.map _).filter _

variable {l l' : List CAppParam} {a : CAppParam} {running : Int → Option String}

theorem Owns.perm (h : Owns l running) (hp : l.Perm l') : Owns l' running where
  distinct := (pids_perm hp).nodup_iff.mp h.distinct
  running pid cmd := by
    rw [h.running]
    simp only [hp.mem_iff]

/-- What is left when an entry and its process go. -/
theorem Owns.drop (h : Owns (a :: l) running) (ha : 0 < a.pidApp) : Owns l (update running a.pidApp none) := by
  have hnd := h.distinct
  rw [pids_cons, if_pos ha, List.nodup_cons] at hnd
  refine ⟨hnd.2, fun pid cmd => ?_⟩
  rw [update_none_eq_some, h.running]
  constructor
  · intro ⟨hne, hpos, b, hb, hpid, hcmd⟩
    rcases List.mem_cons.mp hb with rfl | hb
    · exact absurd hpid.symm hne
    · exact ⟨hpos, b, hb, hpid, hcmd⟩
  · intro ⟨hpos, b, hb, hpid, hcmd⟩
    refine ⟨?_, hpos, b, List.mem_cons_of_mem _ hb, hpid, hcmd⟩
    intro heq
    exact hnd.1 (mem_pids.mpr ⟨ha, b, hb, hpid.trans heq⟩)

/-- An entry without a process goes. -/
theorem Owns.drop_idle (h : Owns (a :: l) running) (ha : ¬0 < a.pidApp) : Owns l running := by
  have hnd := h.distinct
  rw [pids_cons, if_neg ha] at hnd
  refine ⟨hnd, fun pid cmd => ?_⟩
  rw [h.running]
  constructor
  · intro ⟨hpos, b, hb, hpid, hcmd⟩
    rcases List.mem_cons.mp hb with rfl | hb
    · exact absurd (hpid ▸ hpos) ha
    · exact ⟨hpos, b, hb, hpid, hcmd⟩
  · intro ⟨hpos, b, hb, hrest⟩
    exact ⟨hpos, b, List.mem_cons_of_mem _ hb, hrest⟩

/-- An entry comes with the process that `spawn` returned, if it returned one. -/
theorem Owns.spawn (h : Owns l running) (a : CAppParam)
    (hf : spawned = -1 ∨ 0 < spawned ∧ running spawned = none) :
    Owns (a.startProc spawned :: l) (Tools.spawn running a.commandLine spawned) := by
  rcases hf with rfl | ⟨hpos, hnone⟩
  · constructor
    · rw [pids_cons, startProc_pidApp, if_neg (by decide)]
      exact h.distinct
    · intro pid cmd
      rw [Tools.spawn, if_pos rfl, h.running]
      constructor
      · intro ⟨hpos, b, hb, hrest⟩
        exact ⟨hpos, b, List.mem_cons_of_mem _ hb, hrest⟩
      · intro ⟨hpos, b, hb, hpid, hcmd⟩
        rcases List.mem_cons.mp hb with rfl | hb
        · rw [← hpid, startProc_pidApp] at hpos
          exact absurd hpos (by decide)
        · exact ⟨hpos, b, hb, hpid, hcmd⟩
  · have hne : spawned ≠ -1 := by omega
    constructor
    · rw [pids_cons, startProc_pidApp, if_pos hpos, List.nodup_cons]
      refine ⟨fun hmem => ?_, h.distinct⟩
      obtain ⟨-, b, hb, hpid⟩ := mem_pids.mp hmem
      cases hnone.symm.trans ((h.running spawned b.commandLine).mpr ⟨hpos, b, hb, hpid, rfl⟩)
    · intro pid cmd
      rw [Tools.spawn, if_neg hne, update_eq_some, h.running]
      constructor
      · intro hcase
        rcases hcase with ⟨rfl, rfl⟩ | ⟨-, hpid, b, hb, hrest⟩
        · exact ⟨hpos, _, List.mem_cons_self, rfl, rfl⟩
        · exact ⟨hpid, b, List.mem_cons_of_mem _ hb, hrest⟩
      · intro ⟨hpid, b, hb, hb', hcmd⟩
        rcases List.mem_cons.mp hb with rfl | hl
        · exact .inl ⟨hb'.symm, hcmd.symm⟩
        · refine .inr ⟨?_, hpid, b, hl, hb', hcmd⟩
          intro heq
          rw [heq] at hpid hb'
          cases hnone.symm.trans ((h.running spawned cmd).mpr ⟨hpid, b, hl, hb', hcmd⟩)

/-! ## The invariant -/

structure Inv (apps : List CAppParam) (tr : History) (s : State) : Prop where
  programs : s.lstAppParam.map (·.commandLine) = apps.map (·.commandLine)
  waiting : ∀ a ∈ s.lstAppParam.drop s.started, a.pidApp = 0
  passed : ∀ a ∈ s.lstAppParam.take s.started, a.pidApp = -1 ∨ 0 < a.pidApp
  owns : Owns s.lstAppParam s.running
  failed : ∀ cmd, failures tr cmd = s.lstAppParam.countP (CAppParam.Failed cmd)

theorem failures_snoc {en : Entry State Event Out} :
    failures (tr ++ [en]) cmd = failures tr cmd + en.outs.count (.spawn cmd (-1)) := by
  unfold failures
  rw [List.flatMap_append, List.flatMap_singleton, List.count_append]

theorem countP_middle (p : CAppParam → Bool) (l₁ l₂ : List CAppParam) (a : CAppParam) :
    (l₁ ++ a :: l₂).countP p = (l₁ ++ l₂).countP p + if p a then 1 else 0 := by
  rw [List.perm_middle.countP_eq, List.countP_cons]

/-- The `spawn` for an entry that has not failed counts as a failure where the entry has failed after it. -/
theorem failed_spawn {l₁ l₂ : List CAppParam} (ha : a.pidApp ≠ -1)
    (hf : failures tr cmd = (l₁ ++ a :: l₂).countP (CAppParam.Failed cmd)) :
    failures (tr ++ [⟨s, e, [.spawn a.commandLine spawned]⟩]) cmd =
      (l₁ ++ a.startProc spawned :: l₂).countP (CAppParam.Failed cmd) := by
  rw [failures_snoc, hf, countP_middle, countP_middle]
  have hnot : a.Failed cmd = false := by
    simp [CAppParam.Failed, ha]
  rw [hnot]
  by_cases hs : a.commandLine = cmd ∧ spawned = -1
  · obtain ⟨rfl, rfl⟩ := hs
    simp [CAppParam.Failed]
  · have hcount : [Out.spawn a.commandLine spawned].count (.spawn cmd (-1)) = 0 := by
      apply List.count_eq_zero.mpr
      intro hmem
      obtain ⟨hcmd, hpid⟩ := Out.spawn.inj (List.mem_singleton.mp hmem)
      exact hs ⟨hcmd.symm, hpid.symm⟩
    simp [CAppParam.Failed, hs, hcount]

theorem Owns.replace {l₁ l₂ : List CAppParam} (h : Owns (l₁ ++ l₂) running) (a : CAppParam)
    (hf : spawned = -1 ∨ 0 < spawned ∧ running spawned = none) :
    Owns (l₁ ++ a.startProc spawned :: l₂) (Tools.spawn running a.commandLine spawned) :=
  (h.spawn a hf).perm List.perm_middle.symm

theorem Inv.step {apps : List CAppParam} (hi : Inv apps tr s) (hf : Fresh tr s e) (ht : Turn s e s' outs) :
    Inv apps (tr ++ [⟨s, e, outs⟩]) s' := by
  cases ht with
  | @started l₁ a l₂ spawned hsplit hlen =>
    have hdrop : s.lstAppParam.drop s.started = a :: l₂ := by
      rw [hsplit, ← hlen, List.drop_left]
    have htake : s.lstAppParam.take s.started = l₁ := by
      rw [hsplit, ← hlen, List.take_left]
    have hwait := hi.waiting
    rw [hdrop] at hwait
    have hidle : a.pidApp = 0 := hwait a List.mem_cons_self
    have howns := hi.owns
    rw [hsplit] at howns
    have hsnoc : l₁ ++ a.startProc spawned :: l₂ = (l₁ ++ [a.startProc spawned]) ++ l₂ := by
      rw [List.append_assoc, List.singleton_append]
    have hlen' : s.started + 1 = (l₁ ++ [a.startProc spawned]).length := by
      rw [List.length_append, hlen, List.length_singleton]
    refine ⟨?_, ?_, ?_, ?_, fun cmd => ?_⟩
    · rw [← hi.programs, hsplit]
      simp
    · intro b hb
      simp only [hsnoc, hlen', List.drop_left] at hb
      exact hwait b (List.mem_cons_of_mem _ hb)
    · intro b hb
      simp only [hsnoc, hlen', List.take_left, List.mem_append, List.mem_singleton] at hb
      rcases hb with hb | rfl
      · exact hi.passed b (by rw [htake]; exact hb)
      · rw [startProc_pidApp]
        exact hf.imp_right And.left
    · refine Owns.replace ?_ a hf
      exact (howns.perm List.perm_middle).drop_idle (by rw [hidle]; decide)
    · refine failed_spawn (by rw [hidle]; decide) ?_
      rw [← hsplit]
      exact hi.failed cmd
  | @restarted l₁ a l₂ pid spawned hlen hrun hsplit hpid =>
    obtain ⟨cmd, hcmd⟩ := Option.ne_none_iff_exists'.mp hrun
    have hpos : 0 < pid := ((hi.owns.running pid cmd).mp hcmd).1
    have howns := hi.owns
    rw [hsplit] at howns
    have hlen' : ∀ b : CAppParam, (l₁ ++ b :: l₂).length ≤ s.started := by
      intro b
      rw [hsplit] at hlen
      simpa using hlen
    have hpassed := hi.passed
    rw [List.take_of_length_le hlen, hsplit] at hpassed
    refine ⟨?_, ?_, ?_, ?_, fun cmd => ?_⟩
    · rw [← hi.programs, hsplit]
      simp
    · intro b hb
      rw [List.drop_eq_nil_of_le (hlen' _)] at hb
      cases hb
    · intro b hb
      rw [List.take_of_length_le (hlen' _), List.mem_append, List.mem_cons] at hb
      rcases hb with hb | rfl | hb
      · exact hpassed b (List.mem_append_left _ hb)
      · rw [startProc_pidApp]
        exact hf.imp_right And.left
      · exact hpassed b (List.mem_append_right _ (List.mem_cons_of_mem _ hb))
    · refine Owns.replace ?_ a hf
      rw [← hpid]
      exact (howns.perm List.perm_middle).drop (by rw [hpid]; exact hpos)
    · refine failed_spawn (by omega) ?_
      rw [← hsplit]
      exact hi.failed cmd
  | @unknown pid spawned hrun hnone =>
    obtain ⟨cmd, hcmd⟩ := Option.ne_none_iff_exists'.mp hrun
    obtain ⟨-, a, ha, hpid, -⟩ := (hi.owns.running pid cmd).mp hcmd
    exact absurd hpid (hnone a ha)

theorem inv_init {apps : List CAppParam} (h0 : ∀ a ∈ apps, a.pidApp = 0) : Inv apps [] { lstAppParam := apps } := by
  refine ⟨rfl, h0, nofun, ⟨?_, fun pid cmd => ⟨nofun, ?_⟩⟩, fun cmd => ?_⟩
  · have hnil : pids apps = [] := by
      apply List.eq_nil_iff_forall_not_mem.mpr
      intro pid hmem
      obtain ⟨hpos, a, ha, rfl⟩ := mem_pids.mp hmem
      rw [h0 a ha] at hpos
      exact absurd hpos (by decide)
    rw [hnil]
    exact List.nodup_nil
  · intro ⟨hpos, a, ha, hpid, _⟩
    rw [← hpid, h0 a ha] at hpos
    exact absurd hpos (by decide)
  · apply Eq.symm
    apply List.countP_eq_zero.mpr
    intro a ha
    simp [CAppParam.Failed, h0 a ha]

theorem run_inv {apps : List CAppParam} (h0 : ∀ a ∈ apps, a.pidApp = 0)
    (h : Run step { lstAppParam := apps } Fresh tr s) : Inv apps tr s := by
  apply h.invariant (Inv apps) (inv_init h0)
  intro tr s e s' outs _ hi hf hst
  exact hi.step hf (step_turn hst)

end

/-! ## From the configuration to the processes -/

/-- The entry that a section with both items makes. -/
def Section.app (home : String) (config : Section) : Option CAppParam :=
  match config "app_name", config "app_param" with
  | some strTemp, some appParam => some { appName := home ++ "/" ++ "bin" ++ "/" ++ strTemp, appParam }
  | _, _ => none

def Section.commandLine (home : String) (config : Section) : Option String :=
  (config.app home).map (·.commandLine)

section
variable {workRoot : Option String} {opts : List (Char × Option String)} {heap : Bool} {home : String}
variable {importConfig : String → Option (List Section)} {configs : List Section} {apps : List CAppParam}

theorem getStringValue_eq_ok {config : Section} {name value : String} :
    getStringValue config name = .ok value ↔ config name = some value := by
  unfold getStringValue
  cases config name with
  | none => exact ⟨nofun, nofun⟩
  | some value' => simp

/-- The entries are read when every section has both items. -/
theorem getAppParam_eq_ok : getAppParam home configs = .ok apps ↔ configs.map (Section.app home) = apps.map some := by
  induction configs generalizing apps with
  | nil =>
    cases apps with
    | nil => simp [getAppParam]
    | cons a apps => simp [getAppParam]
  | cons config configs ih =>
    simp only [getAppParam, Except.bind_eq_ok, getStringValue_eq_ok, List.map_cons]
    constructor
    · intro ⟨strTemp, hname, appParam, hparam, rest, hrest, heq⟩
      rw [← Except.ok.inj heq, List.map_cons, ih.mp hrest]
      simp only [Section.app, hname, hparam]
    · intro h
      cases apps with
      | nil => cases h
      | cons a apps =>
        obtain ⟨ha, hrest⟩ := List.cons.inj h
        unfold Section.app at ha
        split at ha
        · rename_i strTemp appParam hname hparam
          obtain rfl := Option.some.inj ha
          exact ⟨strTemp, hname, appParam, hparam, apps, ih.mpr hrest, rfl⟩
        · cases ha

theorem init_eq_ok {s₀ : State} (h : init workRoot opts heap importConfig = .ok s₀) :
    ∃ configs apps, importConfig (configureFile (parseArgs workRoot "" opts).1) = some configs ∧
      configs.map (Section.app (parseArgs workRoot "" opts).1) = apps.map some ∧ s₀ = { lstAppParam := apps } := by
  unfold init readConfigureInfo at h
  split at h
  · split at h
    · cases h
    · rename_i configs hconf
      cases happs : getAppParam (parseArgs workRoot "" opts).1 configs with
      | error msgs =>
        rw [happs] at h
        cases h
      | ok apps =>
        rw [happs] at h
        exact ⟨configs, apps, hconf, getAppParam_eq_ok.mp happs, (Except.ok.inj h).symm⟩
  · cases h

theorem app_idle (h : configs.map (Section.app home) = apps.map some) : ∀ a ∈ apps, a.pidApp = 0 := by
  intro a ha
  have hmem : some a ∈ configs.map (Section.app home) := by
    rw [h]
    exact List.mem_map_of_mem ha
  obtain ⟨config, -, hconfig⟩ := List.mem_map.mp hmem
  unfold Section.app at hconfig
  split at hconfig
  · rw [← Option.some.inj hconfig]
  · cases hconfig

theorem countP_commandLine {l : List CAppParam} (h : configs.map (Section.app home) = apps.map some)
    (hl : l.map (·.commandLine) = apps.map (·.commandLine)) (cmd : String) :
    l.countP (·.commandLine = cmd) = configs.countP (·.commandLine home = some cmd) := by
  have hlines : configs.map (Section.commandLine home) = l.map (some ·.commandLine) := by
    have hmap := congrArg (List.map (Option.map CAppParam.commandLine)) h
    rw [List.map_map, List.map_map] at hmap
    have hsome := congrArg (List.map some) hl
    rw [List.map_map, List.map_map] at hsome
    exact hmap.trans hsome.symm
  have hcount := congrArg (List.countP fun line => line = some cmd) hlines
  rw [List.countP_map, List.countP_map] at hcount
  simpa [Function.comp_def] using hcount.symm

/-- The processes that run a command line are as many as the sections that ask for it, less the
failures of `spawn`; and an exit is answered by one `spawn` of what the process ran. -/
structure Watched (home : String) (configs : List Section) (tr : History) (s : State) : Prop where
  kept : s.lstAppParam.length ≤ s.started → ∀ cmd, ∃ ps : List Int, ps.Nodup ∧
    (∀ pid, s.running pid = some cmd ↔ pid ∈ ps) ∧
    ps.length + failures tr cmd = configs.countP (·.commandLine home = some cmd)
  again : ∀ tr₁ en tr₂, tr = tr₁ ++ en :: tr₂ → ∀ pid spawned, en.ev = .exit pid spawned →
    ∃ cmd, en.pre.running pid = some cmd ∧ en.outs = [.spawn cmd spawned]

variable {s : State} {tr : History}

theorem Inv.kept (hi : Inv apps tr s) (h : configs.map (Section.app home) = apps.map some)
    (hall : s.lstAppParam.length ≤ s.started) (cmd : String) : ∃ ps : List Int, ps.Nodup ∧
      (∀ pid, s.running pid = some cmd ↔ pid ∈ ps) ∧
      ps.length + failures tr cmd = configs.countP (·.commandLine home = some cmd) := by
  refine ⟨pids (s.lstAppParam.filter (·.commandLine = cmd)), ?_, fun pid => ?_, ?_⟩
  · have hsub : (pids (s.lstAppParam.filter (·.commandLine = cmd))).Sublist (pids s.lstAppParam) :=
      (List.filter_sublist.map _).filter _
    exact hi.owns.distinct.sublist hsub
  · rw [hi.owns.running, mem_pids]
    simp only [List.mem_filter, decide_eq_true_eq]
    refine and_congr_right fun _ => exists_congr fun a => ?_
    rw [and_assoc, and_comm (a := a.pidApp = pid)]
  · have hpassed := hi.passed
    rw [List.take_of_length_le hall] at hpassed
    have hcount := List.countP_eq_countP_filter_add s.lstAppParam (·.commandLine = cmd) (0 < ·.pidApp)
    rw [List.countP_filter, List.countP_filter] at hcount
    rw [← countP_commandLine h hi.programs, hi.failed, hcount, pids, ← List.countP_eq_length_filter, List.countP_map,
      List.countP_filter]
    congr 1
    · apply List.countP_congr
      intro a ha
      simp [and_comm]
    · apply List.countP_congr
      intro a ha
      rcases hpassed a ha with hpid | hpid
      · simp [CAppParam.Failed, hpid]
      · have hne : a.pidApp ≠ -1 := by omega
        simp [CAppParam.Failed, hpid, hne]

/-- Once `Init` has gone through its programs, and whatever exits after that: the processes
of each program are those the configuration asks for, except for one less after each failure
to start it, which nothing makes up for. -/
theorem programs_watched {s₀ : State} (hi : init workRoot opts heap importConfig = .ok s₀) (h : Run step s₀ Fresh tr s) :
    ∃ configs, importConfig (configureFile (parseArgs workRoot "" opts).1) = some configs ∧
      Watched (parseArgs workRoot "" opts).1 configs tr s := by
  obtain ⟨configs, apps, hconf, happs, rfl⟩ := init_eq_ok hi
  refine ⟨configs, hconf, ?_, ?_⟩
  · intro hall cmd
    exact (run_inv (app_idle happs) h).kept happs hall cmd
  · intro tr₁ en tr₂ heq pid spawned hev
    obtain ⟨s', hr, -, hst⟩ := h.entry heq
    have hinv := run_inv (app_idle happs) hr
    have hturn := step_turn hst
    rw [hev] at hturn
    generalize en.outs = outs at hturn ⊢
    cases hturn with
    | @restarted l₁ a l₂ _ _ _ hrun hsplit hpid =>
      have hmem : a ∈ en.pre.lstAppParam := by
        rw [hsplit]
        exact List.mem_append_right _ List.mem_cons_self
      obtain ⟨cmd, hcmd⟩ := Option.ne_none_iff_exists'.mp hrun
      have hpos := ((hinv.owns.running pid cmd).mp hcmd).1
      exact ⟨a.commandLine, (hinv.owns.running pid _).mpr ⟨hpos, a, hmem, hpid, rfl⟩, rfl⟩
    | unknown hrun hnone =>
      obtain ⟨cmd, hcmd⟩ := Option.ne_none_iff_exists'.mp hrun
      obtain ⟨-, a, ha, hpid, -⟩ := (hinv.owns.running pid cmd).mp hcmd
      exact absurd hpid (hnone a ha)

end

def twoPrograms : String → Option (List Section)
  | "/vbh/conf/watchdog.ini" => some
    [fun | "app_name" => some "xcs" | "app_param" => some "-n 1" | _ => none,
      fun | "app_name" => some "cc" | "app_param" => some "-n 2" | _ => none]
  | _ => none

/-- The first program is started again with an id that the second had; the second fails to start again. -/
theorem programs_watched_two : ∃ s₀ tr s, init none [('h', some "/vbh")] true twoPrograms = .ok s₀ ∧
    Run step s₀ Fresh tr s ∧ s.running 12 = some "/vbh/bin/xcs -n 1" ∧ failures tr "/vbh/bin/cc -n 2" = 1 ∧
    ∃ configs, twoPrograms "/vbh/conf/watchdog.ini" = some configs ∧ Watched "/vbh" configs tr s := by
  let apps : List CAppParam := [⟨"/vbh/bin/xcs", "-n 1", 0⟩, ⟨"/vbh/bin/cc", "-n 2", 0⟩]
  let evs : List Event := [.start 11, .start 12, .exit 12 (-1), .exit 11 12]
  have hi : init none [('h', some "/vbh")] true twoPrograms = .ok { lstAppParam := apps } := rfl
  have hr := run_of_meets step { lstAppParam := apps } Fresh evs (by decide)
  exact ⟨_, _, _, hi, hr, by decide, by decide, programs_watched hi hr⟩

end VProtocol.Tools
