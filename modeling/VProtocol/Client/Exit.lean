import VProtocol.Client.Query

/-!
# The end of the client service

`OnExit` deallocates the handle sessions, and the sessions of three of its maps after it has
cancelled their timers. The maps of the sessions that wait for a notification and that of the
queries for a transaction it does not look at: their timers stay set, and one that fires would
look for its handle session.
-/

namespace VProtocol.Client

open Function (update)

/-! ## The loops of `OnExit` -/

def deallocateHandles : List HPtr → Links → Res Links
  | [], l => .ok l
  | hp :: hps, l =>
    match l.handles hp with
    | none => .error .dangling
    | some _ => deallocateHandles hps { l with handles := update l.handles hp none }

def deallocateSessions : List Ptr → Core → Res Core
  | [], c => .ok c
  | p :: ps, c =>
    match c.heap p with
    | none => .error .dangling
    | some _ => deallocateSessions ps ((c.cancelDscTimer p).free p)

/-- The keys of the maps in the order in which they are iterated. -/
structure ExitOrder where
  handleIDs : List UInt32
  registUserIDs : List UInt32
  queryUserIDs : List UInt32
  proposeIDs : List UInt32

/-- `m_mapUnRegistUserSession` is always empty. -/
def onExit (s : State) (o : ExitOrder) : Res State := do
  let links ← deallocateHandles (o.handleIDs.filterMap s.links.mapHandle) s.links
  let core ← deallocateSessions (o.registUserIDs.filterMap (s.core.mapEndorse .regist)) s.core
  let core ← deallocateSessions (o.queryUserIDs.filterMap (s.core.mapSingle .queryUser)) core
  let core ← deallocateSessions (o.proposeIDs.filterMap (s.core.mapEndorse .propose)) core
  .ok { s with core, links }

/-- Each key of a map once. -/
def Iterates {α : Type} (m : UInt32 → Option α) (ids : List UInt32) : Prop :=
  ids.Nodup ∧ ∀ id, m id ≠ none → id ∈ ids

structure ExitOrder.Iterates (o : ExitOrder) (s : State) : Prop where
  handle : Client.Iterates s.links.mapHandle o.handleIDs
  registUser : Client.Iterates (s.core.mapEndorse .regist) o.registUserIDs
  queryUser : Client.Iterates (s.core.mapSingle .queryUser) o.queryUserIDs
  propose : Client.Iterates (s.core.mapEndorse .propose) o.proposeIDs

/-- The session is in one of the maps that `OnExit` goes through. -/
def Core.Visited (c : Core) (p : Ptr) : Prop :=
  (∃ k id, c.mapEndorse k id = some p) ∨ ∃ id, c.mapSingle .queryUser id = some p

structure Exited (cfg : Config) (s s' : State) : Prop where
  handles : ∀ hp, s'.links.handles hp = none
  freed : ∀ p, s.core.Visited p → s'.core.heap p = none ∧ s'.core.armed p = false
  left : ∀ p, ¬s.core.Visited p → s'.core.heap p = s.core.heap p ∧ s'.core.armed p = s.core.armed p
  /-- A timer that is still set would read a handle session, unless it is for a notification. -/
  late : ∀ p x, s'.core.heap p = some x → s'.core.armed p = true → x.handleList ≠ [] →
    (∀ S k, x = .single S → S.kind ≠ .waitNotify k) → step cfg s' (.timer p) = .error .dangling

section
variable {cfg : Config} {C : History → State → Event → Prop} {tr : History} {s s' : State} {e : Event} {outs : List Out}
  {c : Core} {l l' : Links} {o : ExitOrder} {p : Ptr}

/-! ## Every handle session is in the map -/

def Links.Filed (l : Links) : Prop := ∀ hp H, l.handles hp = some H → l.mapHandle H.mcpHandler.handleID = some hp

namespace Links

theorem Same.filed (h : Same l l') (hf : l.Filed) : l'.Filed := by
  intro hp H' hH'
  obtain ⟨H, hH, heq⟩ := h.symm_some hH'
  rw [h.map, ← heq]
  exact hf hp H hH

theorem handleSession_filed (hf : l.Filed) (h : McpHandler) : (l.handleSession h).1.Filed := by
  unfold handleSession
  cases hm : l.mapHandle h.handleID with
  | some hp => exact hf
  | none =>
    intro hp H hH
    by_cases hnew : hp = l.next
    · subst hnew
      simp only [Function.update_self, Option.some.injEq] at hH
      subst hH
      exact Function.update_self ..
    · simp only [Function.update_of_ne hnew] at hH
      have hold := hf hp H hH
      have hne : H.mcpHandler.handleID ≠ h.handleID := by
        intro heq
        rw [heq, hm] at hold
        cases hold
      exact (Function.update_of_ne hne _ _).trans hold

theorem link_filed {p : Ptr} :
    ∀ {hs l l' hps}, LinksInv l → l.Filed → Links.link p hs l = .ok (l', hps) → l'.Filed := by
  intro hs
  induction hs with
  | nil =>
    intro l l' hps _ hf h
    obtain ⟨rfl, -⟩ := Prod.mk.inj (Except.ok.inj h)
    exact hf
  | cons h₀ hs ih =>
    intro l l' hps hi hf h
    obtain ⟨l₁, hins, h⟩ := Except.bind_eq_ok.mp h
    obtain ⟨⟨l₂, hps₂⟩, hl, h⟩ := Except.bind_eq_ok.mp h
    obtain ⟨rfl, -⟩ := Prod.mk.inj (Except.ok.inj h)
    have hsame := insert_same hins
    exact ih (hsame.inv (handleSession_spec hi h₀).1) (hsame.filed (handleSession_filed hf h₀)) hl

end Links

theorem Move.filed (h : Move cfg s e s' outs) (hi : LinksInv s.links) (hf : s.links.Filed) : s'.links.Filed := by
  cases h with
  | aside _ _ _ h =>
    cases h with
    | quiet => exact hf
    | refused => exact hf
    | queried _ _ hl => exact Links.link_filed hi hf hl
    | fired => exact hf
    | ended hend => exact hend.same.filed hf
  | refused => exact hf
  | aborted _ _ _ _ _ _ _ _ hl hend =>
    have hsame := hend.same
    exact hsame.filed (Links.link_filed hi hf hl)
  | opened _ _ _ _ _ _ _ _ _ _ hl => exact Links.link_filed hi hf hl
  | kept => exact hf
  | failed _ _ _ _ _ hend => exact hend.same.filed hf
  | orphaned => exact hf
  | submitted _ _ _ hw hend => exact (hw.same.trans hend.same).filed hf
  | timedOut _ _ hend => exact hend.same.filed hf
  | @lost h₀ hp H _ s₂ _ hm hH hl =>
    have hs := hl.same
    intro hq H' hq'
    have hne : hq ≠ hp := by
      rintro rfl
      simp at hq'
    simp only [Function.update_of_ne hne] at hq'
    obtain ⟨H₁, hH₁, heq⟩ := hs.symm_some hq'
    have hold : s.links.mapHandle H₁.mcpHandler.handleID = some hq := hf hq H₁ hH₁
    have hid : H'.mcpHandler.handleID ≠ h₀.handleID := by
      intro hid
      rw [heq, hid, hm] at hold
      exact hne (Option.some.inj hold).symm
    have hmap : s₂.links.mapHandle = update s.links.mapHandle h₀.handleID none := hs.map
    show s₂.links.mapHandle _ = _
    rw [hmap, Function.update_of_ne hid, ← heq]
    exact hold

theorem run_filed (h : Run (step cfg) {} C tr s) : s.links.Filed :=
  h.invariant (fun _ s => s.links.Filed) (fun _ _ h => by cases h)
    fun _ _ _ _ _ hr hf _ hst => (run_move hr hst).filed (run_linksInv hr) hf

/-! ## The loops -/

theorem deallocateHandles_ok {hps : List HPtr} : ∀ {l : Links}, hps.Nodup → (∀ hp ∈ hps, l.handles hp ≠ none) →
    ∃ l', deallocateHandles hps l = .ok l' ∧ ∀ hp, l'.handles hp = if hp ∈ hps then none else l.handles hp := by
  induction hps with
  | nil => exact fun _ _ => ⟨_, rfl, fun hp => by simp⟩
  | cons hp hps ih =>
    intro l hn hlive
    obtain ⟨hnot, hn⟩ := List.nodup_cons.mp hn
    obtain ⟨l', hl', hhandles⟩ := ih (l := { l with handles := update l.handles hp none }) hn (by
      intro hq hmem
      have hne : hq ≠ hp := fun heq => hnot (heq ▸ hmem)
      simpa [hne] using hlive hq (List.mem_cons_of_mem _ hmem))
    refine ⟨l', ?_, fun hq => ?_⟩
    · unfold deallocateHandles
      cases hH : l.handles hp with
      | none => exact absurd hH (hlive hp List.mem_cons_self)
      | some H => exact hl'
    · rw [hhandles]
      by_cases heq : hq = hp
      · simp [heq]
      · simp [heq]

/-- What a loop has freed is gone, with its timer; the rest is as it was. -/
structure Deallocated (ps : List Ptr) (c c' : Core) : Prop where
  heap : ∀ p, c'.heap p = if p ∈ ps then none else c.heap p
  armed : ∀ p, c'.armed p = if p ∈ ps then false else c.armed p

theorem deallocateSessions_ok {ps : List Ptr} : ∀ {c : Core}, ps.Nodup → (∀ p ∈ ps, c.heap p ≠ none) →
    ∃ c', deallocateSessions ps c = .ok c' ∧ Deallocated ps c c' := by
  induction ps with
  | nil => exact fun _ _ => ⟨_, rfl, fun p => by simp, fun p => by simp⟩
  | cons p ps ih =>
    intro c hn hlive
    obtain ⟨hnot, hn⟩ := List.nodup_cons.mp hn
    obtain ⟨c', hc', hd⟩ := ih (c := (c.cancelDscTimer p).free p) hn (by
      intro q hmem
      have hne : q ≠ p := fun heq => hnot (heq ▸ hmem)
      simpa [hne] using hlive q (List.mem_cons_of_mem _ hmem))
    refine ⟨c', ?_, fun q => ?_, fun q => ?_⟩
    · unfold deallocateSessions
      cases hx : c.heap p with
      | none => exact absurd hx (hlive p List.mem_cons_self)
      | some x => exact hc'
    · rw [hd.heap]
      by_cases heq : q = p
      · simp [heq]
      · simp [heq]
    · rw [hd.armed]
      by_cases heq : q = p
      · simp [heq]
      · simp [heq]

/-! ## The end of a run -/

/-- The objects of a map, each once. -/
theorem Iterates.objects {α : Type} {m : UInt32 → Option α} {ids : List UInt32} (h : Iterates m ids)
    (hinj : ∀ id id' x, m id = some x → m id' = some x → id = id') :
    (ids.filterMap m).Nodup ∧ ∀ x, x ∈ ids.filterMap m ↔ ∃ id, m id = some x := by
  refine ⟨h.1.filterMap fun id id' x hx hx' => hinj id id' x hx hx', fun x => ?_⟩
  rw [List.mem_filterMap]
  constructor
  · intro hx
    obtain ⟨id, -, hid⟩ := hx
    exact ⟨id, hid⟩
  · intro ⟨id, hid⟩
    exact ⟨id, h.2 id (by simp [hid]), hid⟩

theorem late_endorse {S : EndorseSession} (hS : s.core.heap p = some (.endorse S)) (harmed : s.core.armed p = true)
    (hhandles : ∀ hp, s.links.handles hp = none) (hne : S.arrHandleSession ≠ []) :
    step cfg s (.timer p) = .error .dangling := by
  have hunlink : ∀ live, Links.unlink live p S.arrHandleSession s.links = .error .dangling := by
    intro live
    obtain ⟨hp, hps, heq⟩ := List.exists_cons_of_ne_nil hne
    rw [heq]
    unfold Links.unlink Links.erase
    rw [hhandles]
    rfl
  simp [step, harmed, onTimer, onTimeOutEndorse, State.endorse, hS, onReleaseMultiHandleSession, hunlink, Except.ok_bind,
    Except.error_bind]

theorem late_single {S : SingleSession} (hS : s.core.heap p = some (.single S)) (harmed : s.core.armed p = true)
    (hhandles : ∀ hp, s.links.handles hp = none) (hkind : ∀ k, S.kind ≠ .waitNotify k) :
    step cfg s (.timer p) = .error .dangling := by
  have herase : ∀ live, s.links.erase live S.handleSession p = .error .dangling := by
    intro live
    unfold Links.erase
    rw [hhandles]
  cases hk : S.kind with
  | waitNotify k => exact absurd hk (hkind k)
  | queryUser =>
    simp [step, harmed, onTimer, hk, onTimeOutSingle, State.single, hS, onReleaseSingleHanleSession, herase,
      Except.ok_bind, Except.error_bind]
  | queryTrans =>
    simp [step, harmed, onTimer, hk, onTimeOutSingle, State.single, hS, onReleaseSingleHanleSession, herase,
      Except.ok_bind, Except.error_bind]

theorem CoreInv.endorse_inj (hi : CoreInv c) {k k' : Kind} {id id' : UInt32} (h : c.mapEndorse k id = some p)
    (h' : c.mapEndorse k' id' = some p) : k = k' ∧ id = id' := by
  obtain ⟨S, hS, rfl, rfl⟩ := hi.endorse _ _ _ h
  obtain ⟨S', hS', rfl, rfl⟩ := hi.endorse _ _ _ h'
  rw [hS] at hS'
  obtain rfl := Session.endorse.inj (Option.some.inj hS')
  exact ⟨rfl, rfl⟩

theorem CoreInv.single_inj (hi : CoreInv c) {k k' : SingleKind} {id id' : UInt32} (h : c.mapSingle k id = some p)
    (h' : c.mapSingle k' id' = some p) : k = k' ∧ id = id' := by
  obtain ⟨S, hS, rfl, rfl⟩ := hi.single _ _ _ h
  obtain ⟨S', hS', rfl, rfl⟩ := hi.single _ _ _ h'
  rw [hS] at hS'
  obtain rfl := Session.single.inj (Option.some.inj hS')
  exact ⟨rfl, rfl⟩

theorem CoreInv.endorse_single (hi : CoreInv c) {k : Kind} {k' : SingleKind} {id id' : UInt32}
    (h : c.mapEndorse k id = some p) (h' : c.mapSingle k' id' = some p) : False := by
  obtain ⟨S, hS, -, -⟩ := hi.endorse _ _ _ h
  obtain ⟨S', hS', -, -⟩ := hi.single _ _ _ h'
  rw [hS] at hS'
  cases hS'

theorem Deallocated.append {ps qs : List Ptr} {c₀ c₁ c₂ : Core} (h : Deallocated ps c₀ c₁) (h' : Deallocated qs c₁ c₂) :
    Deallocated (ps ++ qs) c₀ c₂ where
  heap p := by
    rw [h'.heap, h.heap]
    by_cases hp : p ∈ ps <;> by_cases hq : p ∈ qs <;> simp [hp, hq]
  armed p := by
    rw [h'.armed, h.armed]
    by_cases hp : p ∈ ps <;> by_cases hq : p ∈ qs <;> simp [hp, hq]

/-- The next loop, over objects that those before it have not freed. -/
theorem Deallocated.next {ps qs : List Ptr} {c₀ : Core} (h : Deallocated ps c₀ c) (hn : qs.Nodup)
    (hlive : ∀ p ∈ qs, c₀.heap p ≠ none) (hnew : ∀ p ∈ qs, p ∉ ps) :
    ∃ c', deallocateSessions qs c = .ok c' ∧ Deallocated (ps ++ qs) c₀ c' := by
  obtain ⟨c', hc', hd⟩ := deallocateSessions_ok (c := c) hn (by
    intro p hp
    rw [h.heap, if_neg (hnew p hp)]
    exact hlive p hp)
  exact ⟨c', hc', h.append hd⟩

theorem deallocateSessions_visited (hi : CoreInv s.core) (ho : o.Iterates s) :
    ∃ c₁ c₂ c₃, deallocateSessions (o.registUserIDs.filterMap (s.core.mapEndorse .regist)) s.core = .ok c₁ ∧
      deallocateSessions (o.queryUserIDs.filterMap (s.core.mapSingle .queryUser)) c₁ = .ok c₂ ∧
      deallocateSessions (o.proposeIDs.filterMap (s.core.mapEndorse .propose)) c₂ = .ok c₃ ∧
      ∃ ps, Deallocated ps s.core c₃ ∧ ∀ p, p ∈ ps ↔ s.core.Visited p := by
  obtain ⟨hrn, hr⟩ := ho.registUser.objects fun _ _ _ h h' => (hi.endorse_inj h h').2
  obtain ⟨hqn, hq⟩ := ho.queryUser.objects fun _ _ _ h h' => (hi.single_inj h h').2
  obtain ⟨hpn, hp⟩ := ho.propose.objects fun _ _ _ h h' => (hi.endorse_inj h h').2
  have hlive : ∀ {k id p}, s.core.mapEndorse k id = some p → s.core.heap p ≠ none := by
    intro k id p h
    obtain ⟨S, hS, -⟩ := hi.endorse _ _ _ h
    simp [hS]
  obtain ⟨c₁, h₁, hd₁⟩ := deallocateSessions_ok (c := s.core) hrn (by
    intro p hmem
    obtain ⟨id, hid⟩ := (hr p).mp hmem
    exact hlive hid)
  obtain ⟨c₂, h₂, hd₂⟩ := hd₁.next hqn (by
    intro p hmem
    obtain ⟨id, hid⟩ := (hq p).mp hmem
    obtain ⟨S, hS, -⟩ := hi.single _ _ _ hid
    simp [hS]) (by
    intro p hmem hmem'
    obtain ⟨id, hid⟩ := (hq p).mp hmem
    obtain ⟨id', hid'⟩ := (hr p).mp hmem'
    exact hi.endorse_single hid' hid)
  obtain ⟨c₃, h₃, hd₃⟩ := hd₂.next hpn (by
    intro p hmem
    obtain ⟨id, hid⟩ := (hp p).mp hmem
    exact hlive hid) (by
    intro p hmem hmem'
    obtain ⟨id, hid⟩ := (hp p).mp hmem
    cases List.mem_append.mp hmem' with
    | inl hmem' =>
      obtain ⟨id', hid'⟩ := (hr p).mp hmem'
      cases (hi.endorse_inj hid hid').1
    | inr hmem' =>
      obtain ⟨id', hid'⟩ := (hq p).mp hmem'
      exact hi.endorse_single hid hid')
  refine ⟨c₁, c₂, c₃, h₁, h₂, h₃, _, hd₃, fun p => ?_⟩
  rw [List.mem_append, List.mem_append, hr, hq, hp]
  constructor
  · rintro ((⟨id, h⟩ | h) | ⟨id, h⟩)
    · exact .inl ⟨_, id, h⟩
    · exact .inr h
    · exact .inl ⟨_, id, h⟩
  · rintro (⟨k, id, h⟩ | h)
    · cases k with
      | regist => exact .inl (.inl ⟨id, h⟩)
      | propose => exact .inr ⟨id, h⟩
    · exact .inl (.inr h)

theorem deallocateHandles_all (hi : LinksInv l) (hf : l.Filed) {ids : List UInt32} (ho : Iterates l.mapHandle ids) :
    ∃ l', deallocateHandles (ids.filterMap l.mapHandle) l = .ok l' ∧ ∀ hp, l'.handles hp = none := by
  obtain ⟨hn, hmem⟩ := ho.objects (by
    intro id id' hp h h'
    obtain ⟨H, hH, rfl⟩ := hi.map _ _ h
    obtain ⟨H', hH', rfl⟩ := hi.map _ _ h'
    rw [hH] at hH'
    rw [Option.some.inj hH'])
  obtain ⟨l', hl', hhandles⟩ := deallocateHandles_ok (l := l) hn (by
    intro hp h
    obtain ⟨id, hid⟩ := (hmem hp).mp h
    obtain ⟨H, hH, -⟩ := hi.map _ _ hid
    simp [hH])
  refine ⟨l', hl', fun hp => ?_⟩
  rw [hhandles]
  by_cases h : hp ∈ ids.filterMap l.mapHandle
  · rw [if_pos h]
  · rw [if_neg h]
    cases hH : l.handles hp with
    | none => rfl
    | some H => exact absurd ((hmem hp).mpr ⟨_, hf hp H hH⟩) h

theorem late_dangling {x : Session} (hhandles : ∀ hp, s.links.handles hp = none) (hx : s.core.heap p = some x)
    (harmed : s.core.armed p = true) (hne : x.handleList ≠ [])
    (hkind : ∀ S k, x = .single S → S.kind ≠ .waitNotify k) : step cfg s (.timer p) = .error .dangling := by
  cases x with
  | endorse S => exact late_endorse hx harmed hhandles hne
  | single S => exact late_single hx harmed hhandles fun k => hkind S k rfl

/-- After any run the exit reads no freed object, whatever the order of the maps, and leaves no handle session. -/
theorem exit_leaves (cfg : Config) (C : History → State → Event → Prop) (tr : History) (s : State) (o : ExitOrder)
    (h : Run (step cfg) {} C tr s) (ho : o.Iterates s) : ∃ s', onExit s o = .ok s' ∧ Exited cfg s s' := by
  obtain ⟨links, hl, hhandles⟩ := deallocateHandles_all (run_linksInv h) (run_filed h) ho.handle
  obtain ⟨c₁, c₂, c₃, h₁, h₂, h₃, ps, hd, hps⟩ := deallocateSessions_visited (run_coreInv h) ho
  refine ⟨{ s with core := c₃, links }, ?_, hhandles, fun p hp => ?_, fun p hp => ?_, ?_⟩
  · unfold onExit
    rw [hl, Except.ok_bind, h₁, Except.ok_bind, h₂, Except.ok_bind, h₃, Except.ok_bind]
  · have hmem := (hps p).mpr hp
    exact ⟨by rw [hd.heap, if_pos hmem], by rw [hd.armed, if_pos hmem]⟩
  · have hmem := mt (hps p).mp hp
    exact ⟨by rw [hd.heap, if_neg hmem], by rw [hd.armed, if_neg hmem]⟩
  · intro p x hx harmed hne hkind
    exact late_dangling hhandles hx harmed hne hkind

end

theorem exit_leaves_two : ∃ tr s o s', Run (step queryPeers) {} anyStep tr s ∧ onExit s o = .ok s' ∧
    Exited queryPeers s s' ∧ s'.core.armed 0 = false ∧ step queryPeers s' (.timer 1) = .error .dangling := by
  let evs : List Event := connectBoth ++ [registReq 1 {}, .queryTransReq ⟨2, [1], [2]⟩ 6 false]
  let s : State := final (step queryPeers) {} evs
  let o : ExitOrder := { handleIDs := [20, 10], registUserIDs := [0], queryUserIDs := [], proposeIDs := [] }
  have hr : Run (step queryPeers) {} anyStep (trace (step queryPeers) {} evs) s := run_trace_any evs
  have ho : o.Iterates s := by
    refine ⟨⟨by decide, fun id h => ?_⟩, ⟨by decide, fun id h => ?_⟩, ⟨by decide, fun id h => ?_⟩,
      ⟨by decide, fun id h => ?_⟩⟩
    · have hmap : s.links.mapHandle = update (update (fun _ => none) 10 (some 0)) 20 (some 1) := rfl
      simp only [hmap, Function.update_apply] at h
      grind
    · have hmap : s.core.mapEndorse .regist = update (fun _ => none) 0 (some 0) := rfl
      simp only [hmap, Function.update_apply] at h
      grind
    · exact absurd rfl h
    · exact absurd rfl h
  obtain ⟨s', hs', hexit⟩ := exit_leaves queryPeers anyStep _ s o hr ho
  have htrans : s.core.heap 1 = some (.single ⟨.queryTrans, 6, 2, 1, 0⟩) := rfl
  have hvisited : ¬s.core.Visited 1 := by
    rintro (⟨k, id, h⟩ | ⟨id, h⟩)
    · obtain ⟨S, hS, -⟩ := (run_coreInv hr).endorse _ _ _ h
      rw [htrans] at hS
      cases hS
    · obtain ⟨S, hS, hk, -⟩ := (run_coreInv hr).single _ _ _ h
      rw [htrans] at hS
      cases hS
      cases hk
  obtain ⟨hheap, harmed⟩ := hexit.left 1 hvisited
  have hlate := hexit.late 1 _ (hheap.trans htrans) (harmed.trans rfl) (by simp [Session.handleList]) (by
    intro S k hS
    cases hS
    simp)
  exact ⟨_, s, o, s', hr, hs', hexit, (hexit.freed 0 (.inl ⟨.regist, 0, rfl⟩)).2, hlate⟩

end VProtocol.Client
