import VProtocol.Cc.Moves

/-!
# The life of a chaincode session

What a step does to the sessions as the two maps, the timers and the answers see them:
it leaves all of them alone, opens one or ends one. `step_dangling` says when a step
reads a session that was freed. Nothing after this module unfolds a handler for it.
-/

namespace VProtocol.Cc

open Function (update)

/-! ## Sessions of either kind -/

inductive Kind where
  | registUser
  | processProposal
  deriving DecidableEq

def Kind.type : Kind → UInt32
  | .registUser => registUserSessionType
  | .processProposal => processProposalSessionType

abbrev Tag := Kind × MsgAddr × UInt32

structure Card where
  kind : Kind
  ccSessionID : UInt32
  esSessionID : UInt32
  esAddr : MsgAddr
  deriving DecidableEq

def Card.tag (c : Card) : Tag := (c.kind, c.esAddr, c.esSessionID)

def Session.card : Session → Card
  | .registUser S => ⟨.registUser, S.ccSessionID, S.esSessionID, S.esAddr⟩
  | .processProposal S => ⟨.processProposal, S.ccSessionID, S.esSessionID, S.esAddr⟩

def Event.opens : Event → Option Tag
  | .registUserReq req src => some (.registUser, src, req.esSessionID)
  | .submitProposalReq req src => some (.processProposal, src, req.esSessionID)
  | _ => none

def Out.answer : Out → Option Tag
  | .es addr (.registUserRsp _ _ id _) => some (.registUser, addr, id)
  | .es addr (.submitProposalRsp _ id _) => some (.processProposal, addr, id)
  | _ => none

/-- The handle that `RegistUserProc` and `ProposalProc` are called with. -/
def Out.handle : Out → Option (Kind × UInt64)
  | .up (.registUserProc h _ _ _) => some (.registUser, h)
  | .up (.proposalProc h _ _ _) => some (.processProposal, h)
  | _ => none

namespace State
variable (s : State)

def card (p : Ptr) : Option Card := (s.heap p).map Session.card

def map : Kind → UInt32 → Option Ptr
  | .registUser => s.mapRegistUser
  | .processProposal => s.mapProcessProposal

/-- The session of a kind that a handle names. -/
def named (k : Kind) (ccSessionID : UInt64) : Option Ptr :=
  if (splitUserCCSessionID ccSessionID).2 = k.type then s.map k (splitUserCCSessionID ccSessionID).1 else none

/-- The session that an event frees. -/
def ends : Event → Option Ptr
  | .procReturn ret => if ret = 0 then none else s.proc.map (·.p)
  | .call (.registUserRsp _ h _ _) => s.named .registUser h
  | .call (.porposalRsp _ h _ _) => s.named .processProposal h
  | .timer p => if s.armed p then some p else none
  | _ => none

theorem find_eq (h : UInt64) : s.find h = s.named .processProposal h := rfl

end State

def Card.handle (c : Card) : UInt64 :=
  match c.kind with
  | .registUser => combineUserCCSessionID c.ccSessionID registUserSessionType
  -- the bare id
  | .processProposal => c.ccSessionID.toUInt64

def Card.proc (c : Card) (p : Ptr) : Proc := ⟨c.kind.type, p, c.esSessionID, c.esAddr⟩

/-! ## The moves -/

structure Kept (s s' : State) (outs : List Out) : Prop where
  card : s'.card = s.card
  map : s'.map = s.map
  armed : s'.armed = s.armed
  next : s'.next = s.next
  sessionID : s'.sessionID = s.sessionID
  proc : s'.proc = s.proc
  answers : outs.filterMap Out.answer = []
  handles : outs.filterMap Out.handle = []

structure Opened (s : State) (c : Card) (s' : State) (outs : List Out) : Prop where
  turn : s.proc = none
  id : c.ccSessionID = s.sessionID
  card : s'.card = update s.card s.next (some c)
  map : s'.map = update s.map c.kind (update (s.map c.kind) s.sessionID (some s.next))
  armed : s'.armed = update s.armed s.next true
  next : s'.next = s.next + 1
  sessionID : s'.sessionID = s.sessionID + 1
  proc : s'.proc = some (c.proc s.next)
  answers : outs.filterMap Out.answer = []
  handles : outs.filterMap Out.handle = [(c.kind, c.handle)]

/-- A nonzero return erases the id of the session from the map of the proposal sessions,
whatever the kind of the session; every other end erases the session from its own map. -/
structure Ended (s : State) (e : Event) (p : Ptr) (c : Card) (s' : State) (outs : List Out) : Prop where
  was : s.card p = some c
  card : s'.card = update s.card p none
  returned : ∀ ret, e = .procReturn ret →
    s'.map = update s.map .processProposal (update (s.map .processProposal) c.ccSessionID none) ∧ s'.proc = none
  erased : (∀ ret, e ≠ .procReturn ret) →
    (∀ k id, s'.map k id = if s.map k id = some p then none else s.map k id) ∧ s'.proc = s.proc
  armed : s'.armed = update s.armed p false
  next : s'.next = s.next
  sessionID : s'.sessionID = s.sessionID
  answers : outs.filterMap Out.answer = [c.tag]
  handles : outs.filterMap Out.handle = []

inductive Life (s : State) (e : Event) : State → List Out → Prop
  | kept {s' outs} (ho : e.opens = none) (he : s.ends e = none) (h : Kept s s' outs) : Life s e s' outs
  | returned (he : e = .procReturn 0) : Life s e { s with proc := none } []
  | opened {c s' outs} (ho : e.opens = some c.tag) (he : s.ends e = none) (h : Opened s c s' outs) : Life s e s' outs
  | ended {p c s' outs} (ho : e.opens = none) (he : s.ends e = some p) (h : Ended s e p c s' outs) : Life s e s' outs

/-! ## The maps and the heap -/

structure MapInv (s : State) : Prop where
  fresh : ∀ p, s.next ≤ p → s.card p = none
  bound : ∀ k id p, s.map k id = some p → p < s.next
  key : ∀ k id p c, s.map k id = some p → s.card p = some c → c.kind = k ∧ c.ccSessionID = id
  one : ∀ k k' id id' p, s.map k id = some p → s.map k' id' = some p → k = k' ∧ id = id'
  -- an entry of the other map may be of a session that was freed
  proposal : ∀ id p, s.map .processProposal id = some p → s.card p ≠ none
  armed : ∀ p, s.armed p = true → s.card p ≠ none
  proc : ∀ pr ∈ s.proc, pr.p < s.next ∧ ∃ k : Kind, pr.type = k.type ∧
    ∀ c, s.card pr.p = some c → c.kind = k ∧ pr = c.proc pr.p

section
variable {cfg : Config} {s s' : State} {e : Event} {outs : List Out} {p q : Ptr} {c : Card}

theorem card_eq_none : s.card p = none ↔ s.heap p = none := Option.map_eq_none_iff

theorem card_update {x : Option Session} (h : s'.heap = update s.heap p x) :
    s'.card = update s.card p (x.map Session.card) := by
  funext q
  rw [State.card, h]
  by_cases hq : q = p
  · subst hq; rw [Function.update_self, Function.update_self]
  · rw [Function.update_of_ne hq, Function.update_of_ne hq, State.card]

theorem session_card {S} (h : s.session p = some S) : s.card p = some (Session.processProposal S).card := by
  unfold State.session at h
  split at h
  · rename_i S' hS
    obtain rfl := Option.some.inj h
    rw [State.card, hS]; rfl
  · cases h

theorem map_update_id (id : UInt32) : update s.map .processProposal (update (s.map .processProposal) id none) =
    (s.eraseProcessProposalKey id).map := by
  funext k
  cases k with
  | registUser => rfl
  | processProposal => rw [Function.update_self]; rfl

theorem Kept.refl (ho : outs.filterMap Out.answer = []) (hh : outs.filterMap Out.handle = []) : Kept s s outs :=
  ⟨rfl, rfl, rfl, rfl, rfl, rfl, ho, hh⟩

theorem Kept.put {S S' : ProcessProposalSession} (h : s.session p = some S)
    (hc : (Session.processProposal S').card = (Session.processProposal S).card)
    (ho : outs.filterMap Out.answer = []) (hh : outs.filterMap Out.handle = []) :
    Kept s (s.put p (.processProposal S')) outs := by
  refine ⟨?_, by funext k; cases k <;> rfl, rfl, rfl, rfl, rfl, ho, hh⟩
  rw [card_update (x := some (.processProposal S')) rfl, Option.map_some, hc, ← session_card h, Function.update_eq_self]

theorem card_setLst (S : ProcessProposalSession) (path : Path) (l : List Item) :
    (Session.processProposal (S.setLst path l)).card = (Session.processProposal S).card := by
  cases path <;> rfl

/-! ## Every step is a move -/

theorem getVbh_kept {path noSession h key sendRet} (hst : getVbh cfg s path noSession h key sendRet = .ok (s', outs)) :
    Kept s s' outs := by
  unfold getVbh at hst
  split at hst
  · obtain ⟨rfl, rfl⟩ := Prod.mk.inj (Except.ok.inj hst)
    exact .refl rfl rfl
  obtain ⟨S, hS, hst⟩ := Except.bind_eq_ok.mp hst
  rw [processProposal_eq_ok] at hS
  split at hst
  · obtain ⟨rfl, rfl⟩ := Prod.mk.inj (Except.ok.inj hst)
    exact .refl rfl rfl
  split at hst
  · obtain ⟨rfl, rfl⟩ := Prod.mk.inj (Except.ok.inj hst)
    exact .refl rfl rfl
  split at hst
  · obtain ⟨rfl, rfl⟩ := Prod.mk.inj (Except.ok.inj hst)
    exact .refl rfl rfl
  · obtain ⟨rfl, rfl⟩ := Prod.mk.inj (Except.ok.inj hst)
    by_cases hret : sendRet = 0
    · rw [if_pos hret]; exact .put hS (card_setLst _ _ _) rfl rfl
    · rw [if_neg hret]; exact .put hS (card_setLst _ _ _) rfl rfl

theorem setVbh_kept {path noSession h key value} (hst : setVbh s path noSession h key value = .ok (s', outs)) :
    Kept s s' outs := by
  unfold setVbh at hst
  split at hst
  · obtain ⟨rfl, rfl⟩ := Prod.mk.inj (Except.ok.inj hst)
    exact .refl rfl rfl
  obtain ⟨S, hS, hst⟩ := Except.bind_eq_ok.mp hst
  rw [processProposal_eq_ok] at hS
  split at hst
  · obtain ⟨rfl, rfl⟩ := Prod.mk.inj (Except.ok.inj hst)
    exact .refl rfl rfl
  · obtain ⟨rfl, rfl⟩ := Prod.mk.inj (Except.ok.inj hst)
    exact .put hS (card_setLst _ _ _) rfl rfl

theorem createVbhInformation_kept {h key value} (hst : createVbhInformation s h key value = .ok (s', outs)) :
    Kept s s' outs := by
  unfold createVbhInformation at hst
  split at hst
  · obtain ⟨rfl, rfl⟩ := Prod.mk.inj (Except.ok.inj hst)
    exact .refl rfl rfl
  obtain ⟨S, hS, hst⟩ := Except.bind_eq_ok.mp hst
  rw [processProposal_eq_ok] at hS
  split at hst
  · obtain ⟨rfl, rfl⟩ := Prod.mk.inj (Except.ok.inj hst)
    exact .refl rfl rfl
  · obtain ⟨rfl, rfl⟩ := Prod.mk.inj (Except.ok.inj hst)
    exact .put hS rfl rfl rfl

theorem onQueryRsp_kept {r} (hst : onQueryRsp s r = .ok (s', outs)) : Kept s s' outs := by
  unfold onQueryRsp at hst
  split at hst
  · obtain ⟨rfl, rfl⟩ := Prod.mk.inj (Except.ok.inj hst)
    exact .refl rfl rfl
  obtain ⟨S, hS, hst⟩ := Except.bind_eq_ok.mp hst
  rw [processProposal_eq_ok] at hS
  split at hst
  · split at hst
    · obtain ⟨rfl, rfl⟩ := Prod.mk.inj (Except.ok.inj hst)
      exact .refl rfl rfl
    · obtain ⟨rfl, rfl⟩ := Prod.mk.inj (Except.ok.inj hst)
      exact .put hS (card_setLst _ _ _) rfl rfl
  · obtain ⟨rfl, rfl⟩ := Prod.mk.inj (Except.ok.inj hst)
    exact .refl rfl rfl

theorem registUser_eq_ok {S} : s.registUser p = .ok S ↔ s.heap p = some (.registUser S) := by
  unfold State.registUser
  cases s.heap p with
  | none => exact ⟨nofun, nofun⟩
  | some x =>
    cases x with
    | registUser S' =>
      constructor
      · intro h; rw [Except.ok.inj h]
      · intro h; injection Option.some.inj h with h; rw [h]
    | processProposal => exact ⟨nofun, nofun⟩

theorem registered {req src} (ht : s.proc = none) : Opened s ⟨.registUser, s.sessionID, req.esSessionID, src⟩
    (onDscMsgRegistUserEsCcReq s req src).1 (onDscMsgRegistUserEsCcReq s req src).2 := by
  refine ⟨ht, rfl, ?_, ?_, rfl, rfl, rfl, rfl, rfl, rfl⟩
  · have hheap : (onDscMsgRegistUserEsCcReq s req src).1.heap = update s.heap s.next (some (.registUser
        ⟨s.sessionID, req.esSessionID, req.channelID, src, req.userKey, req.userInfo⟩)) := rfl
    rw [card_update hheap]; rfl
  · funext k
    cases k with
    | registUser => rw [Function.update_self]; rfl
    | processProposal => rfl

theorem proposed {req src} (ht : s.proc = none) : Opened s ⟨.processProposal, s.sessionID, req.esSessionID, src⟩
    (onDscMsgSubmitProposalEsCcReq s req src).1 (onDscMsgSubmitProposalEsCcReq s req src).2 := by
  refine ⟨ht, rfl, ?_, ?_, rfl, rfl, rfl, rfl, rfl, rfl⟩
  · have hheap : (onDscMsgSubmitProposalEsCcReq s req src).1.heap = update s.heap s.next (some (.processProposal
        ⟨s.sessionID, req.esSessionID, req.channelID, src, req.proposal, [], [], []⟩)) := rfl
    rw [card_update hheap]; rfl
  · funext k
    cases k with
    | registUser => rfl
    | processProposal => rw [Function.update_self]; rfl

/-- Erasing the key of an entry is erasing its session, which is in no other entry. -/
theorem MapInv.eraseKey (hi : MapInv s) {k id} (h : s.map k id = some p) (k' : Kind) (id' : UInt32) :
    update s.map k (update (s.map k) id none) k' id' = if s.map k' id' = some p then none else s.map k' id' := by
  by_cases hk : k' = k
  · subst hk
    rw [Function.update_self]
    by_cases hid : id' = id
    · subst hid
      rw [Function.update_self, if_pos h]
    · rw [Function.update_of_ne hid, if_neg]
      exact fun h' => hid (hi.one _ _ _ _ _ h' h).2
  · rw [Function.update_of_ne hk, if_neg]
    exact fun h' => hk (hi.one _ _ _ _ _ h' h).1

theorem MapInv.erase (hi : MapInv s) {k} (hc : s.card p = some c) (hk : c.kind ≠ k) (id : UInt32) :
    s.map k id = if s.map k id = some p then none else s.map k id := by
  rw [if_neg]
  exact fun h => hk (hi.key _ _ _ _ h hc).1

theorem named_eq {k h} (ht : (splitUserCCSessionID h).2 = k.type) : s.named k h = s.map k (splitUserCCSessionID h).1 :=
  if_pos ht

theorem named_eq_none {k h} (ht : (splitUserCCSessionID h).2 ≠ k.type) : s.named k h = none := if_neg ht

theorem named_eq_some {k h} (hn : s.named k h = some p) :
    (splitUserCCSessionID h).2 = k.type ∧ s.map k (splitUserCCSessionID h).1 = some p := by
  unfold State.named at hn
  split at hn
  · exact ⟨‹_›, hn⟩
  · cases hn

theorem registUserRsp_life (hi : MapInv s) {code h allow info}
    (hst : registUserRsp s code h allow info = .ok (s', outs)) :
    Life s (.call (.registUserRsp code h allow info)) s' outs := by
  unfold registUserRsp at hst
  simp only at hst
  split at hst
  · rename_i ht
    split at hst
    · rename_i hm
      obtain ⟨rfl, rfl⟩ := Prod.mk.inj (Except.ok.inj hst)
      exact .kept rfl ((named_eq (k := .registUser) ht).trans hm) (.refl rfl rfl)
    · rename_i p hm
      obtain ⟨S, hS, hst⟩ := Except.bind_eq_ok.mp hst
      rw [registUser_eq_ok] at hS
      obtain ⟨rfl, rfl⟩ := Prod.mk.inj (Except.ok.inj hst)
      have hc : s.card p = some (Session.registUser S).card := by rw [State.card, hS]; rfl
      have hm' : s.map .registUser (splitUserCCSessionID h).1 = some p := hm
      refine .ended (p := p) (c := (Session.registUser S).card) rfl ((named_eq (k := .registUser) ht).trans hm')
        ⟨hc, card_update (x := none) rfl, nofun, fun _ => ⟨?_, rfl⟩, rfl, rfl, rfl, ?_, ?_⟩
      · intro k id
        rw [← hi.eraseKey hm']
        cases k with
        | registUser => rw [Function.update_self]; rfl
        | processProposal => rfl
      · by_cases hok : code = okType
        · rw [if_pos hok]; rfl
        · rw [if_neg hok]; rfl
      · rfl
  · rename_i ht
    obtain ⟨rfl, rfl⟩ := Prod.mk.inj (Except.ok.inj hst)
    exact .kept rfl (named_eq_none (k := .registUser) ht) (.refl rfl rfl)

theorem porposalRsp_life (hi : MapInv s) {code h result encodes}
    (hst : porposalRsp s code h result encodes = .ok (s', outs)) :
    Life s (.call (.porposalRsp code h result encodes)) s' outs := by
  unfold porposalRsp at hst
  split at hst
  · rename_i hm
    obtain ⟨rfl, rfl⟩ := Prod.mk.inj (Except.ok.inj hst)
    exact .kept rfl hm (.refl rfl rfl)
  · rename_i p hm
    obtain ⟨S, hS, hst⟩ := Except.bind_eq_ok.mp hst
    rw [processProposal_eq_ok] at hS
    obtain ⟨rfl, rfl⟩ := Prod.mk.inj (Except.ok.inj hst)
    obtain ⟨-, hm'⟩ := named_eq_some (s.find_eq h ▸ hm)
    refine .ended (p := p) (c := (Session.processProposal S).card) rfl hm
      ⟨session_card hS, card_update (x := none) rfl, nofun, fun _ => ⟨?_, rfl⟩, rfl, rfl, rfl, ?_, ?_⟩
    · intro k id
      rw [← hi.eraseKey hm', map_update_id]
      cases k <;> rfl
    · by_cases hok : code = okType
      · rw [if_pos hok]
        cases encodes <;> rfl
      · rw [if_neg hok]; rfl
    · rfl

theorem onCall_life (hi : MapInv s) {c} (hst : onCall cfg s c = .ok (s', outs)) : Life s (.call c) s' outs := by
  cases c with
  | getVbhUser h key sendRet => exact .kept rfl rfl (getVbh_kept hst)
  | getVbhInformation h key sendRet => exact .kept rfl rfl (getVbh_kept hst)
  | setVbhUser h key value => exact .kept rfl rfl (setVbh_kept hst)
  | setVbhInformation h key value => exact .kept rfl rfl (setVbh_kept hst)
  | createVbhInformation h key value => exact .kept rfl rfl (createVbhInformation_kept hst)
  | registUserRsp code h allow info => exact registUserRsp_life hi hst
  | porposalRsp code h result encodes => exact porposalRsp_life hi hst

theorem onProcReturn_life (hi : MapInv s) {pr ret} (hpr : s.proc = some pr)
    (hst : onProcReturn s pr ret = .ok (s', outs)) : Life s (.procReturn ret) s' outs := by
  obtain ⟨-, k, ht, hk⟩ := hi.proc pr hpr
  unfold onProcReturn at hst
  simp only at hst
  split at hst
  · rename_i h0
    obtain ⟨rfl, rfl⟩ := Prod.mk.inj (Except.ok.inj hst)
    exact .returned (by rw [h0])
  · rename_i h0
    have hends : s.ends (.procReturn ret) = some pr.p := by
      simp only [State.ends, if_neg h0, hpr, Option.map_some]
    split at hst
    · obtain ⟨S, hS, hst⟩ := Except.bind_eq_ok.mp hst
      rw [registUser_eq_ok] at hS
      obtain ⟨rfl, rfl⟩ := Prod.mk.inj (Except.ok.inj hst)
      have hc : s.card pr.p = some (Session.registUser S).card := by
        rw [State.card, show s.heap pr.p = _ from hS]; rfl
      obtain ⟨-, hproc⟩ := hk _ hc
      refine .ended rfl hends ⟨hc, card_update (x := none) rfl, fun _ _ => ⟨?_, rfl⟩, fun h => absurd rfl (h ret), rfl,
        rfl, rfl, ?_, rfl⟩
      · rw [map_update_id]
        funext k
        cases k <;> rfl
      · rw [hproc]; rfl
    · obtain ⟨S, hS, hst⟩ := Except.bind_eq_ok.mp hst
      rw [processProposal_eq_ok] at hS
      obtain ⟨rfl, rfl⟩ := Prod.mk.inj (Except.ok.inj hst)
      have hc : s.card pr.p = some (Session.processProposal S).card := session_card (s := { s with proc := none }) hS
      obtain ⟨-, hproc⟩ := hk _ hc
      refine .ended rfl hends ⟨hc, card_update (x := none) rfl, fun _ _ => ⟨?_, rfl⟩, fun h => absurd rfl (h ret), rfl,
        rfl, rfl, ?_, rfl⟩
      · rw [map_update_id]
        funext k
        cases k <;> rfl
      · rw [hproc]; rfl

theorem onTimer_life (hi : MapInv s) (hst : onTimer s p = .ok (s', outs)) : Life s (.timer p) s' outs := by
  unfold onTimer at hst
  split at hst
  · rename_i ha
    have hends : s.ends (.timer p) = some p := by simp only [State.ends, if_pos ha]
    split at hst
    · cases hst
    · rename_i S hS
      obtain ⟨rfl, rfl⟩ := Prod.mk.inj (Except.ok.inj hst)
      have hc : s.card p = some (Session.registUser S).card := by rw [State.card, hS]; rfl
      refine .ended rfl hends ⟨hc, card_update (x := none) rfl, nofun, fun _ => ⟨?_, rfl⟩, rfl, rfl, rfl, rfl, rfl⟩
      intro k id
      cases k with
      | registUser => rfl
      | processProposal => exact hi.erase (k := .processProposal) hc nofun id
    · rename_i S hS
      obtain ⟨rfl, rfl⟩ := Prod.mk.inj (Except.ok.inj hst)
      have hc : s.card p = some (Session.processProposal S).card := by rw [State.card, hS]; rfl
      refine .ended rfl hends ⟨hc, card_update (x := none) rfl, nofun, fun _ => ⟨?_, rfl⟩, rfl, rfl, rfl, rfl, rfl⟩
      intro k id
      cases k with
      | registUser => exact hi.erase (k := .registUser) hc nofun id
      | processProposal => rfl
  · rename_i ha
    obtain ⟨rfl, rfl⟩ := Prod.mk.inj (Except.ok.inj hst)
    exact .kept rfl (by simp only [State.ends, if_neg ha]) (.refl rfl rfl)

theorem step_life (hi : MapInv s) (h : step cfg s e = .ok (s', outs)) : Life s e s' outs := by
  unfold step at h
  split at h
  · exact onCall_life hi h
  · rename_i hpr
    exact onProcReturn_life hi hpr h
  · cases h
  · cases h
  · rename_i hpr
    obtain ⟨rfl, rfl⟩ := Prod.mk.inj (Except.ok.inj h)
    exact .opened rfl rfl (registered hpr)
  · rename_i hpr
    obtain ⟨rfl, rfl⟩ := Prod.mk.inj (Except.ok.inj h)
    exact .opened rfl rfl (proposed hpr)
  · exact .kept rfl rfl (onQueryRsp_kept h)
  · exact .kept rfl rfl (onQueryRsp_kept h)
  · exact onTimer_life hi h

/-! ## The invariant over a run -/

theorem mapInv_init : MapInv {} :=
  ⟨fun _ _ => rfl, by intro k; cases k <;> nofun, by intro k; cases k <;> nofun, by intro k; cases k <;> nofun, nofun,
    nofun, nofun⟩

theorem Kept.mapInv (hi : MapInv s) (h : Kept s s' outs) : MapInv s' where
  fresh := by rw [h.card, h.next]; exact hi.fresh
  bound := by rw [h.map, h.next]; exact hi.bound
  key := by rw [h.map, h.card]; exact hi.key
  one := by rw [h.map]; exact hi.one
  proposal := by rw [h.map, h.card]; exact hi.proposal
  armed := by rw [h.armed, h.card]; exact hi.armed
  proc := by rw [h.proc, h.next, h.card]; exact hi.proc

theorem Opened.map_cases (h : Opened s c s' outs) {k id} (hm : s'.map k id = some q) :
    k = c.kind ∧ id = c.ccSessionID ∧ q = s.next ∨ s.map k id = some q := by
  rw [h.map] at hm
  by_cases hk : k = c.kind
  · subst hk
    rw [Function.update_self] at hm
    by_cases hid : id = s.sessionID
    · subst hid
      rw [Function.update_self] at hm
      exact .inl ⟨rfl, h.id.symm, (Option.some.inj hm).symm⟩
    · rw [Function.update_of_ne hid] at hm
      exact .inr hm
  · rw [Function.update_of_ne hk] at hm
    exact .inr hm

theorem Opened.card_of_ne (h : Opened s c s' outs) (hq : q ≠ s.next) : s'.card q = s.card q := by
  rw [h.card, Function.update_of_ne hq]

theorem Opened.mapInv (hi : MapInv s) (h : Opened s c s' outs) : MapInv s' := by
  have hself : s'.card s.next = some c := by rw [h.card, Function.update_self]
  constructor
  · intro p hp
    rw [h.next] at hp
    rw [h.card_of_ne (Nat.ne_of_gt hp)]
    exact hi.fresh p (Nat.le_of_succ_le hp)
  · intro k id p hm
    rw [h.next]
    rcases h.map_cases hm with ⟨-, -, rfl⟩ | hm
    · exact Nat.lt_succ_self _
    · exact Nat.lt_succ_of_lt (hi.bound _ _ _ hm)
  · intro k id p d hm hd
    rcases h.map_cases hm with ⟨rfl, rfl, rfl⟩ | hm
    · rw [hself] at hd
      obtain rfl := Option.some.inj hd
      exact ⟨rfl, rfl⟩
    · rw [h.card_of_ne (Nat.ne_of_lt (hi.bound _ _ _ hm))] at hd
      exact hi.key _ _ _ _ hm hd
  · intro k k' id id' p hm hm'
    rcases h.map_cases hm with ⟨rfl, rfl, rfl⟩ | hm
    · rcases h.map_cases hm' with ⟨rfl, rfl, -⟩ | hm'
      · exact ⟨rfl, rfl⟩
      · exact absurd (hi.bound _ _ _ hm') (Nat.lt_irrefl _)
    · rcases h.map_cases hm' with ⟨-, -, rfl⟩ | hm'
      · exact absurd (hi.bound _ _ _ hm) (Nat.lt_irrefl _)
      · exact hi.one _ _ _ _ _ hm hm'
  · intro id p hm
    rcases h.map_cases hm with ⟨-, -, rfl⟩ | hm
    · rw [hself]; nofun
    · rw [h.card_of_ne (Nat.ne_of_lt (hi.bound _ _ _ hm))]
      exact hi.proposal _ _ hm
  · intro p ha
    by_cases hp : p = s.next
    · rw [hp, hself]; nofun
    · rw [h.armed, Function.update_of_ne hp] at ha
      rw [h.card_of_ne hp]
      exact hi.armed _ ha
  · intro pr hpr
    rw [h.proc] at hpr
    obtain rfl := Option.some.inj hpr
    refine ⟨by rw [h.next]; exact Nat.lt_succ_self _, c.kind, rfl, fun d hd => ?_⟩
    have hd : s'.card s.next = some d := hd
    rw [hself] at hd
    obtain rfl := Option.some.inj hd
    exact ⟨rfl, rfl⟩

theorem Ended.map_cases (hi : MapInv s) (h : Ended s e p c s' outs) {k id} (hm : s'.map k id = some q) :
    s.map k id = some q ∧ (q = p → k = .registUser) := by
  by_cases hr : ∃ ret, e = .procReturn ret
  · obtain ⟨ret, he⟩ := hr
    rw [(h.returned ret he).1] at hm
    cases k with
    | registUser => exact ⟨hm, fun _ => rfl⟩
    | processProposal =>
      rw [Function.update_self] at hm
      by_cases hid : id = c.ccSessionID
      · subst hid
        rw [Function.update_self] at hm
        cases hm
      · rw [Function.update_of_ne hid] at hm
        refine ⟨hm, ?_⟩
        rintro rfl
        exact absurd (hi.key _ _ _ _ hm h.was).2.symm hid
  · rw [(h.erased fun ret he => hr ⟨ret, he⟩).1] at hm
    split at hm
    · cases hm
    · rename_i hne
      refine ⟨hm, ?_⟩
      rintro rfl
      exact absurd hm hne

theorem Ended.card_of_ne (h : Ended s e p c s' outs) (hq : q ≠ p) : s'.card q = s.card q := by
  rw [h.card, Function.update_of_ne hq]

theorem Ended.card_some (h : Ended s e p c s' outs) {d} (hd : s'.card q = some d) : s.card q = some d := by
  by_cases hq : q = p
  · rw [hq, h.card, Function.update_self] at hd
    cases hd
  · rwa [h.card_of_ne hq] at hd

theorem Ended.mapInv (hi : MapInv s) (h : Ended s e p c s' outs) : MapInv s' := by
  constructor
  · intro q hq
    rw [h.next] at hq
    by_cases hqp : q = p
    · rw [hqp, h.card, Function.update_self]
    · rw [h.card_of_ne hqp]
      exact hi.fresh q hq
  · intro k id q hm
    rw [h.next]
    exact hi.bound _ _ _ (h.map_cases hi hm).1
  · intro k id q d hm hd
    exact hi.key _ _ _ _ (h.map_cases hi hm).1 (h.card_some hd)
  · intro k k' id id' q hm hm'
    exact hi.one _ _ _ _ _ (h.map_cases hi hm).1 (h.map_cases hi hm').1
  · intro id q hm
    obtain ⟨hm, hq⟩ := h.map_cases hi hm
    have hqp : q ≠ p := fun heq => Kind.noConfusion (hq heq)
    rw [h.card_of_ne hqp]
    exact hi.proposal _ _ hm
  · intro q ha
    rw [h.armed] at ha
    have hqp : q ≠ p := by
      intro heq
      rw [heq, Function.update_self] at ha
      cases ha
    rw [Function.update_of_ne hqp] at ha
    rw [h.card_of_ne hqp]
    exact hi.armed _ ha
  · intro pr hpr
    have hpr' : pr ∈ s.proc := by
      by_cases hr : ∃ ret, e = .procReturn ret
      · obtain ⟨ret, he⟩ := hr
        rw [(h.returned ret he).2] at hpr
        cases hpr
      · rwa [(h.erased fun ret he => hr ⟨ret, he⟩).2] at hpr
    obtain ⟨hlt, k, ht, hk⟩ := hi.proc pr hpr'
    exact ⟨by rw [h.next]; exact hlt, k, ht, fun d hd => hk d (h.card_some hd)⟩

theorem Life.mapInv (hi : MapInv s) (h : Life s e s' outs) : MapInv s' := by
  cases h with
  | kept _ _ h => exact h.mapInv hi
  | returned _ => exact ⟨hi.fresh, hi.bound, hi.key, hi.one, hi.proposal, hi.armed, nofun⟩
  | opened _ _ h => exact h.mapInv hi
  | ended _ _ h => exact h.mapInv hi

theorem run_mapInv {C} {tr : List (Entry State Event Out)} (h : Run (step cfg) {} C tr s) : MapInv s := by
  refine h.invariant (fun _ s => MapInv s) mapInv_init ?_
  intro tr s e s' outs _ hi _ hst
  exact (step_life hi hst).mapInv hi

/-! ## Freed sessions -/

theorem registUser_error (hk : ∀ c, s.card p = some c → c.kind = .registUser) :
    s.registUser p = .error .dangling ∧ s.card p = none ∨ (∃ S, s.registUser p = .ok S) ∧ s.card p ≠ none := by
  unfold State.registUser State.card at *
  cases hx : s.heap p with
  | none => exact .inl ⟨rfl, rfl⟩
  | some x =>
    cases x with
    | registUser S => exact .inr ⟨⟨S, rfl⟩, nofun⟩
    | processProposal S => cases hk (Session.processProposal S).card (by rw [hx]; rfl)

theorem processProposal_error (hk : ∀ c, s.card p = some c → c.kind = .processProposal) :
    s.processProposal p = .error .dangling ∧ s.card p = none ∨ (∃ S, s.processProposal p = .ok S) ∧ s.card p ≠ none := by
  unfold State.processProposal State.card at *
  cases hx : s.heap p with
  | none => exact .inl ⟨rfl, rfl⟩
  | some x =>
    cases x with
    | registUser S => cases hk (Session.registUser S).card (by rw [hx]; rfl)
    | processProposal S => exact .inr ⟨⟨S, rfl⟩, nofun⟩

theorem MapInv.find (hi : MapInv s) {h} (hp : s.find h = some p) : ∃ S, s.processProposal p = .ok S := by
  obtain ⟨-, hm⟩ := named_eq_some (s.find_eq h ▸ hp)
  rcases processProposal_error fun c hc => (hi.key _ _ _ _ hm hc).1 with ⟨-, hnone⟩ | ⟨hS, -⟩
  · exact absurd hnone (hi.proposal _ _ hm)
  · exact hS

theorem getVbh_ok (hi : MapInv s) (path noSession h key sendRet) :
    ∃ r, getVbh cfg s path noSession h key sendRet = .ok r := by
  unfold getVbh
  split
  · exact ⟨_, rfl⟩
  rename_i p hp
  obtain ⟨S, hS⟩ := hi.find hp
  rw [hS, Except.ok_bind]
  split
  · exact ⟨_, rfl⟩
  split
  · exact ⟨_, rfl⟩
  split
  · exact ⟨_, rfl⟩
  · exact ⟨_, rfl⟩

theorem setVbh_ok (hi : MapInv s) (path noSession h key value) : ∃ r, setVbh s path noSession h key value = .ok r := by
  unfold setVbh
  split
  · exact ⟨_, rfl⟩
  rename_i p hp
  obtain ⟨S, hS⟩ := hi.find hp
  rw [hS, Except.ok_bind]
  split
  · exact ⟨_, rfl⟩
  · exact ⟨_, rfl⟩

theorem createVbhInformation_ok (hi : MapInv s) (h key value) : ∃ r, createVbhInformation s h key value = .ok r := by
  unfold createVbhInformation
  split
  · exact ⟨_, rfl⟩
  rename_i p hp
  obtain ⟨S, hS⟩ := hi.find hp
  rw [hS, Except.ok_bind]
  split
  · exact ⟨_, rfl⟩
  · exact ⟨_, rfl⟩

theorem onQueryRsp_ok (hi : MapInv s) (r : Reply) : ∃ x, onQueryRsp s r = .ok x := by
  unfold onQueryRsp
  split
  · exact ⟨_, rfl⟩
  rename_i p hp
  obtain ⟨S, hS⟩ := hi.find hp
  rw [hS, Except.ok_bind]
  split
  · split
    · exact ⟨_, rfl⟩
    · exact ⟨_, rfl⟩
  · exact ⟨_, rfl⟩

theorem porposalRsp_ok (hi : MapInv s) (code h result encodes) : ∃ r, porposalRsp s code h result encodes = .ok r := by
  unfold porposalRsp
  split
  · exact ⟨_, rfl⟩
  rename_i p hp
  obtain ⟨S, hS⟩ := hi.find hp
  rw [hS, Except.ok_bind]
  exact ⟨_, rfl⟩

theorem registUserRsp_dangling (hi : MapInv s) {code h allow info} :
    registUserRsp s code h allow info = .error .dangling ↔ ∃ p, s.named .registUser h = some p ∧ s.card p = none := by
  unfold registUserRsp
  by_cases ht : (splitUserCCSessionID h).2 = registUserSessionType
  · simp only [if_pos ht, named_eq (k := .registUser) ht]
    cases hm : s.map .registUser (splitUserCCSessionID h).1 with
    | none =>
      rw [show s.mapRegistUser (splitUserCCSessionID h).1 = none from hm]
      exact ⟨nofun, nofun⟩
    | some p =>
      rw [show s.mapRegistUser (splitUserCCSessionID h).1 = some p from hm]
      rcases registUser_error fun c hc => (hi.key _ _ _ _ hm hc).1 with ⟨herr, hnone⟩ | ⟨⟨S, hS⟩, hsome⟩
      · simp only [herr, Except.error_bind, true_iff]
        exact ⟨p, rfl, hnone⟩
      · simp only [hS, Except.ok_bind]
        refine ⟨nofun, ?_⟩
        intro ⟨q, hq, hnone⟩
        obtain rfl := Option.some.inj hq
        exact absurd hnone hsome
  · simp only [if_neg ht, named_eq_none (k := .registUser) ht]
    exact ⟨nofun, nofun⟩

theorem onProcReturn_dangling (hi : MapInv s) {pr ret} (hpr : s.proc = some pr) :
    onProcReturn s pr ret = .error .dangling ↔ ret ≠ 0 ∧ s.card pr.p = none := by
  obtain ⟨-, k, ht, hk⟩ := hi.proc pr hpr
  unfold onProcReturn
  simp only
  split
  · exact ⟨nofun, fun h => absurd ‹_› h.1⟩
  · rename_i h0
    simp only [ne_eq, h0, not_false_eq_true, true_and]
    cases k with
    | registUser =>
      rw [if_pos (show pr.type = registUserSessionType from ht)]
      rcases registUser_error (s := { s with proc := none }) fun c hc => (hk c hc).1 with
        ⟨herr, hnone⟩ | ⟨⟨S, hS⟩, hsome⟩
      · rw [herr, Except.error_bind]
        exact ⟨fun _ => hnone, fun _ => rfl⟩
      · rw [hS, Except.ok_bind]
        exact ⟨nofun, fun h => absurd h hsome⟩
    | processProposal =>
      rw [if_neg (show pr.type ≠ registUserSessionType by rw [ht]; decide)]
      rcases processProposal_error (s := { s with proc := none }) fun c hc => (hk c hc).1 with
        ⟨herr, hnone⟩ | ⟨⟨S, hS⟩, hsome⟩
      · rw [herr, Except.error_bind]
        exact ⟨fun _ => hnone, fun _ => rfl⟩
      · rw [hS, Except.ok_bind]
        exact ⟨nofun, fun h => absurd h hsome⟩

theorem onTimer_ok (hi : MapInv s) (p) : ∃ r, onTimer s p = .ok r := by
  unfold onTimer
  split
  · rename_i ha
    split
    · exact absurd (card_eq_none.mpr ‹_›) (hi.armed p ha)
    · exact ⟨_, rfl⟩
    · exact ⟨_, rfl⟩
  · exact ⟨_, rfl⟩

theorem ends_live (hi : MapInv s) (he : s.ends e = some p) (hc : s.card p = none) :
    (∃ code h allow info, e = .call (.registUserRsp code h allow info)) ∨ ∃ ret, e = .procReturn ret := by
  cases e with
  | procReturn ret => exact .inr ⟨ret, rfl⟩
  | timer q =>
    simp only [State.ends] at he
    split at he
    · obtain rfl := Option.some.inj he
      exact absurd hc (hi.armed _ ‹_›)
    · cases he
  | call c =>
    cases c with
    | registUserRsp code h allow info => exact .inl ⟨code, h, allow, info, rfl⟩
    | porposalRsp code h result encodes => exact absurd hc (hi.proposal _ _ (named_eq_some he).2)
    | _ => cases he
  | _ => cases he

/-- A step reads a session that was freed when it should end one that was. -/
theorem step_dangling (hi : MapInv s) :
    step cfg s e = .error .dangling ↔ ∃ p, s.ends e = some p ∧ s.card p = none := by
  have hlive : ∀ {r : Res (State × List Out)}, (∃ x, r = .ok x) ∨ r = .error .outOfTurn →
      (∀ code h allow info, e ≠ .call (.registUserRsp code h allow info)) → (∀ ret, e ≠ .procReturn ret) →
      (r = .error .dangling ↔ ∃ p, s.ends e = some p ∧ s.card p = none) := by
    intro r hr hreg hret
    constructor
    · intro h
      rcases hr with ⟨x, rfl⟩ | rfl
      · cases h
      · cases h
    · intro ⟨p, he, hc⟩
      rcases ends_live hi he hc with ⟨code, h, allow, info, rfl⟩ | ⟨ret, rfl⟩
      · exact absurd rfl (hreg code h allow info)
      · exact absurd rfl (hret ret)
  cases e with
  | call c =>
    cases c with
    | registUserRsp code h allow info => exact registUserRsp_dangling hi
    | getVbhUser h key sendRet => exact hlive (.inl (getVbh_ok hi _ _ _ _ _)) nofun nofun
    | getVbhInformation h key sendRet => exact hlive (.inl (getVbh_ok hi _ _ _ _ _)) nofun nofun
    | setVbhUser h key value => exact hlive (.inl (setVbh_ok hi _ _ _ _ _)) nofun nofun
    | setVbhInformation h key value => exact hlive (.inl (setVbh_ok hi _ _ _ _ _)) nofun nofun
    | createVbhInformation h key value => exact hlive (.inl (createVbhInformation_ok hi _ _ _)) nofun nofun
    | porposalRsp code h result encodes => exact hlive (.inl (porposalRsp_ok hi _ _ _ _)) nofun nofun
  | procReturn ret =>
    cases hpr : s.proc with
    | none => simp [step, State.ends, hpr]
    | some pr =>
      have hst : step cfg s (.procReturn ret) = onProcReturn s pr ret := by
        unfold step
        rw [hpr]
      rw [hst, onProcReturn_dangling hi hpr]
      simp [State.ends, hpr]
  | registUserReq req src =>
    unfold step
    cases s.proc with
    | none => exact hlive (.inl ⟨_, rfl⟩) nofun nofun
    | some _ => exact hlive (.inr rfl) nofun nofun
  | submitProposalReq req src =>
    unfold step
    cases s.proc with
    | none => exact hlive (.inl ⟨_, rfl⟩) nofun nofun
    | some _ => exact hlive (.inr rfl) nofun nofun
  | queryUserInfoRsp rsp =>
    unfold step
    cases s.proc with
    | none => exact hlive (.inl (onQueryRsp_ok hi _)) nofun nofun
    | some _ => exact hlive (.inr rfl) nofun nofun
  | queryInformationRsp rsp =>
    unfold step
    cases s.proc with
    | none => exact hlive (.inl (onQueryRsp_ok hi _)) nofun nofun
    | some _ => exact hlive (.inr rfl) nofun nofun
  | timer p =>
    unfold step
    cases s.proc with
    | none => exact hlive (.inl (onTimer_ok hi _)) nofun nofun
    | some _ => exact hlive (.inr rfl) nofun nofun

end

end VProtocol.Cc
