import VProtocol.Client.Symmetry

/-!
# Query traffic

User and transaction queries, their answers and timers, connects and losses, and
nothing else. A query waits from the step that sends it until an answer under its id
or its timer; the service keeps a session for exactly the queries that wait.
-/

namespace VProtocol.Client

inductive QueryKind where
  | user
  | trans
  deriving DecidableEq

def QueryKind.single : QueryKind → SingleKind
  | .user => .queryUser
  | .trans => .queryTrans

/-- A query as it arrives: its kind and where its response belongs. -/
structure Asked where
  kind : QueryKind
  src : MsgAddr
  srcSessionID : UInt32
  deriving DecidableEq

def Event.asksQuery : Event → Option Asked
  | .queryUserReq req src _ => some ⟨.user, src, req.srcSessionID⟩
  | .queryTransReq req src _ => some ⟨.trans, src, req.srcSessionID⟩
  | _ => none

def Asked.response (a : Asked) (code : Int) (payload : Blob) : Out :=
  .upper a.src
    (match a.kind with
    | .user => .queryUserRsp code a.srcSessionID payload
    | .trans => .queryTransRsp code a.srcSessionID payload)

def EsMsg.query : QueryKind → EsMsg → Option UInt32
  | .user, .queryUserReq id _ _ => some id
  | .trans, .queryTransReq id _ _ => some id
  | _, _ => none

/-- A query that was sent to an endorser, under an id, and the session it waits in. -/
structure Query extends Asked where
  cltSessionID : UInt32
  handler : McpHandler
  ptr : Ptr
  deriving DecidableEq

/-- The query a step sent: the step's only message is the query's. -/
def sentQuery (en : Entry State Event Out) : Option Query :=
  match en.ev.asksQuery, en.outs with
  | some a, [.es h p m] => (m.query a.kind).map fun id => { a with cltSessionID := id, handler := h, ptr := p }
  | _, _ => none

structure QueryAnswer where
  kind : QueryKind
  cltSessionID : UInt32
  code : Int
  payload : Blob

def Event.queryAnswer : Event → Option QueryAnswer
  | .queryUserRsp rsp _ => some ⟨.user, rsp.sessionID, rsp.returnCode, rsp.userInfo⟩
  | .queryTransRsp rsp _ => some ⟨.trans, rsp.cltSessionID, rsp.returnCode, rsp.transInfo⟩
  | _ => none

/-- The event is an answer to the query or its timer. -/
def settles (q : Query) (e : Event) : Bool :=
  match e.queryAnswer with
  | some a => a.kind = q.kind && a.cltSessionID = q.cltSessionID
  | none => e.timedOut = some q.ptr

/-- What the requester of the query gets for the event that settles it. The payload of
an answer is handed on when its code is OK. -/
def Query.reply (q : Query) (e : Event) : Out :=
  match e.queryAnswer with
  | some a => q.response a.code (if a.code = okType then a.payload else [])
  | none => q.response timeoutErrorType []

def localErrors : List Int := [networkErrorType, decryptErrorType, decodeErrorType, timeoutErrorType]

def sentQueries (tr : History) : List Query := tr.filterMap sentQuery

def waitStep (waiting : List Query) (en : Entry State Event Out) : List Query :=
  waiting.filter (fun q => !settles q en.ev) ++ (sentQuery en).toList

/-- The queries that were sent and not settled since. -/
def waitingQueries (tr : History) : List Query := tr.foldl waitStep []

/-- What query traffic consists of. A query arrives while a peer is connected, and no
connection is lost on which a query waits. -/
def QueryTraffic (cfg : Config) (tr : History) (s : State) : Event → Prop
  | .queryUserReq _ _ _ => (getMcpHandler s.conn).1 ≠ none
  | .queryTransReq _ _ _ => (getMcpHandler s.conn).1 ≠ none
  | .queryUserRsp _ _ => True
  | .queryTransRsp _ _ => True
  | .timer _ => True
  | .connected h _ _ _ => getPeerID cfg.peers h.handleID ≠ -1
  | .networkError h => getPeerID cfg.peers h.handleID ≠ -1 ∧
      ∀ q ∈ waitingQueries tr, q.handler.handleID ≠ h.handleID
  | _ => False

instance (cfg : Config) (tr : History) (s : State) : ∀ e, Decidable (QueryTraffic cfg tr s e)
  | .queryUserReq _ _ _ => inferInstanceAs (Decidable ((getMcpHandler s.conn).1 ≠ none))
  | .queryTransReq _ _ _ => inferInstanceAs (Decidable ((getMcpHandler s.conn).1 ≠ none))
  | .queryUserRsp _ _ => isTrue trivial
  | .queryTransRsp _ _ => isTrue trivial
  | .timer _ => isTrue trivial
  | .connected h _ _ _ => inferInstanceAs (Decidable (getPeerID cfg.peers h.handleID ≠ -1))
  | .networkError h => inferInstanceAs (Decidable (getPeerID cfg.peers h.handleID ≠ -1 ∧
      ∀ q ∈ waitingQueries tr, q.handler.handleID ≠ h.handleID))
  | .registUserReq _ _ _ => isFalse id
  | .proposeReq _ _ _ => isFalse id
  | .registUserRsp _ _ _ => isFalse id
  | .submitProposalRsp _ _ _ => isFalse id
  | .submitRegistRsp _ _ => isFalse id
  | .submitProposalTransRsp _ _ => isFalse id
  | .transNotify _ _ _ => isFalse id

/-- Every query fails at once with a response of its own, or is sent under an id and into
a session that no other query has. The first event that settles it gives its response;
the later ones give none and change nothing. There is no other response, and no event
makes the service fail. -/
structure QueriesAnswered (cfg : Config) (tr : History) (s : State) : Prop where
  asked : ∀ tr₁ en tr₂, tr = tr₁ ++ en :: tr₂ → ∀ a, en.ev.asksQuery = some a →
    (∃ code ∈ localErrors, en.outs = [a.response code []]) ∨ ∃ q, sentQuery en = some q
  ids : ((sentQueries tr).map (·.cltSessionID)).Nodup
  ptrs : ((sentQueries tr).map (·.ptr)).Nodup
  first : ∀ tr₁ en tr₂, tr = tr₁ ++ en :: tr₂ → ∀ q ∈ waitingQueries tr₁, settles q en.ev = true →
    en.outs = [q.reply en.ev]
  later : ∀ tr₁ en tr₂, tr = tr₁ ++ en :: tr₂ → ∀ q ∈ sentQueries tr₁, q ∉ waitingQueries tr₁ →
    settles q en.ev = true → en.outs = [] ∧ step cfg en.pre en.ev = .ok (en.pre, [])
  source : ∀ tr₁ en tr₂, tr = tr₁ ++ en :: tr₂ → ∀ o ∈ en.outs, o.isUpper = true →
    (∃ a, en.ev.asksQuery = some a) ∨ ∃ q ∈ waitingQueries tr₁, settles q en.ev = true
  safe : ∀ e, QueryTraffic cfg tr s e → ∃ r, step cfg s e = .ok r

/-! ## The steps -/

section
variable {cfg : Config} {s s' : State} {e : Event} {outs : List Out} {tr : History}

theorem handleSession_handle {l : Links} (hi : LinksInv l) (h : McpHandler) :
    ∃ H, (l.handleSession h).1.handles (l.handleSession h).2 = some H ∧ H.mcpHandler.handleID = h.handleID := by
  unfold Links.handleSession
  split
  · rename_i hp hm
    exact hi.map _ _ hm
  · exact ⟨⟨h, []⟩, by simp, rfl⟩

theorem insert_ok {l : Links} {hp : HPtr} {H : HandleSession} (hH : l.handles hp = some H) (p : Ptr) :
    ∃ l', l.insert hp p = .ok l' := by
  rw [Links.insert, hH]
  exact ⟨_, rfl⟩

/-- Links, and the handle session of a query that was just sent. -/
def LinkedTo (l : Links) (h : McpHandler) (p : Ptr) (l' : Links) (hp : HPtr) : Prop :=
  l.link p [h] = .ok (l', [hp]) ∧ ∃ H, l'.handles hp = some H ∧ H.mcpHandler.handleID = h.handleID

theorem linkedTo_exists {l : Links} (hi : LinksInv l) (h : McpHandler) (p : Ptr) :
    ∃ l', (l.handleSession h).1.insert (l.handleSession h).2 p = .ok l' ∧ LinkedTo l h p l' (l.handleSession h).2 := by
  obtain ⟨H, hH, hid⟩ := handleSession_handle hi h
  obtain ⟨l', hl'⟩ := insert_ok hH p
  obtain ⟨H', hH', heq⟩ := (Links.insert_same hl').some hH
  exact ⟨l', hl', link_one hl', H', hH', by rw [heq, hid]⟩

/-- A query event fails with a local error, with the cursors turned at most. -/
def FailsLocally (cfg : Config) (s : State) (e : Event) (a : Asked) : Prop :=
  ∃ code ∈ localErrors, ∃ conn, step cfg s e = .ok ({ s with conn }, [a.response code []])

/-- A query event opens a session and sends a message. -/
def OpensQuery (cfg : Config) (s : State) (e : Event) (a : Asked) : Prop :=
  ∃ h m conn links hp, EsMsg.query a.kind m = some s.core.sessionID ∧ LinkedTo s.links h s.core.next links hp ∧
    step cfg s e = .ok ({
      core := { s.core.openSingle ⟨a.kind.single, a.src, a.srcSessionID, s.core.sessionID, hp⟩ with
        sessionID := s.core.sessionID + 1 }
      links, conn }, [.es h s.core.next m])

theorem sendQuery_cases {a : Asked} (sendErr : Bool) (msg : UInt32 → EsMsg) (hl : LinksInv s.links)
    (hpeer : (getMcpHandler s.conn).1 ≠ none) (hm : ∀ id, (msg id).query a.kind = some id)
    (hst : step cfg s e =
      sendQuery s a.kind.single a.src a.srcSessionID sendErr msg fun code => a.response code []) :
    FailsLocally cfg s e a ∨ OpensQuery cfg s e a := by
  rw [sendQuery_eq] at hst
  cases hg : getMcpHandler s.conn with
  | mk o conn =>
    simp only [hg] at hst hpeer
    cases sendErr with
    | true => exact .inl ⟨networkErrorType, by decide, conn, hst⟩
    | false =>
      cases o with
      | none => exact absurd rfl hpeer
      | some h =>
        obtain ⟨links, hins, hlink⟩ := linkedTo_exists hl h s.core.next
        refine .inr ⟨h, msg s.core.sessionID, conn, links, _, hm _, hlink, hst.trans ?_⟩
        rw [if_neg (by simp)]
        exact Except.bind_eq_ok.mpr ⟨links, hins, rfl⟩

theorem step_asksQuery {a : Asked} (ha : e.asksQuery = some a) (hl : LinksInv s.links)
    (hpeer : (getMcpHandler s.conn).1 ≠ none) : FailsLocally cfg s e a ∨ OpensQuery cfg s e a := by
  cases e with
  | queryUserReq req src sendErr =>
    obtain rfl := Option.some.inj ha
    cases hd : cfg.codec.decodeChannelKey req.cryptUserKey with
    | none =>
      refine .inl ⟨decryptErrorType, by decide, s.conn, ?_⟩
      simp only [step, onDscMsgQueryUserInfoCltCltReq, hd]
      rfl
    | some key =>
      refine sendQuery_cases sendErr (fun id => .queryUserReq id key.1 key.2) hl hpeer (fun _ => rfl) ?_
      simp only [step, onDscMsgQueryUserInfoCltCltReq, hd]
      rfl
  | queryTransReq req src sendErr =>
    obtain rfl := Option.some.inj ha
    cases hd : cfg.codec.decodeChannel req.cryptUserKey with
    | none =>
      refine .inl ⟨decryptErrorType, by decide, s.conn, ?_⟩
      simp only [step, onDscMsgQueryTransInfoCltCltReq, hd]
      rfl
    | some channelID =>
      cases hk : cfg.codec.decodeTransKey req.transKey with
      | none =>
        refine .inl ⟨decodeErrorType, by decide, s.conn, ?_⟩
        simp only [step, onDscMsgQueryTransInfoCltCltReq, hd, hk]
        rfl
      | some key =>
        refine sendQuery_cases sendErr (fun id => .queryTransReq id channelID key) hl hpeer (fun _ => rfl) ?_
        simp only [step, onDscMsgQueryTransInfoCltCltReq, hd, hk]
        rfl
  | _ => cases ha

theorem step_queryAnswer {a : QueryAnswer} (ha : e.queryAnswer = some a) : step cfg s e =
    onHtsMsgSingle s a.kind.single a.cltSessionID (onResponseSingle · a.code false a.payload) := by
  cases e with
  | queryUserRsp rsp h =>
    obtain rfl := Option.some.inj ha
    rfl
  | queryTransRsp rsp h =>
    obtain rfl := Option.some.inj ha
    rfl
  | _ => cases ha

theorem onHtsMsgSingle_found {k : SingleKind} {id : UInt32} {p : Ptr} {W : SingleSession} (hc : CoreInv s.core)
    (hi : SymInv s) (hm : s.core.mapSingle k id = some p) (hW : s.core.heap p = some (.single W))
    (answer : SingleSession → Out) :
    ∃ s', SingleEnded s p W s' ∧ onHtsMsgSingle s k id answer = .ok (s', [answer W]) := by
  obtain ⟨l', he, -⟩ := hi.releaseSingle hW
  refine ⟨_, .mk hW he, ?_⟩
  rw [onHtsMsgSingle, hm]
  simp only [hc.eraseSingleKey_eq hm]
  refine Except.bind_eq_ok.mpr ⟨W, single_eq_ok.mpr hW, Except.bind_eq_ok.mpr ⟨_, ?_, rfl⟩⟩
  exact (releaseSingle_eq_ok (S := W) (by exact hW)).mpr ⟨l', he, rfl⟩

theorem step_timer_found {p : Ptr} {W : SingleSession} (hi : SymInv s) (hW : s.core.heap p = some (.single W))
    (hk : (Session.single W).isWaitNotify = false) (ha : s.core.armed p = true) :
    ∃ s', SingleEnded s p W s' ∧ step cfg s (.timer p) = .ok (s', [onResponseSingle W timeoutErrorType false []]) := by
  obtain ⟨l', he, -⟩ := hi.releaseSingle hW
  refine ⟨_, .mk hW he, ?_⟩
  have hheap : (s.core.cancelDscTimer p).heap p = some (.single W) := hW
  have htimer : onTimer { s with core := s.core.cancelDscTimer p } p =
      onTimeOutSingle { s with core := s.core.cancelDscTimer p } p := by
    simp only [onTimer, hheap]
    split
    · rename_i k hk'
      simp [Session.isWaitNotify, hk'] at hk
    · rfl
  have hcancel : (s.core.cancelDscTimer p).cancelDscTimer p = s.core.cancelDscTimer p := by
    simp [Core.cancelDscTimer]
  simp only [step, if_pos ha, htimer]
  refine Except.bind_eq_ok.mpr ⟨W, single_eq_ok.mpr hW, Except.bind_eq_ok.mpr ⟨_, ?_, rfl⟩⟩
  simp only [hcancel]
  exact (releaseSingle_eq_ok (S := W) (by exact hW)).mpr ⟨l', he, rfl⟩

/-! ## What waits and what the service holds -/

def Query.session (q : Query) (hp : HPtr) : SingleSession :=
  ⟨q.kind.single, q.src, q.srcSessionID, q.cltSessionID, hp⟩

theorem session_response (q : Query) (hp : HPtr) (code : Int) (success : Bool) (payload : Blob) :
    onResponseSingle (q.session hp) code success payload =
      q.response code (if code = okType then payload else []) := by
  unfold onResponseSingle Query.session Asked.response
  cases q.kind <;> rfl

theorem session_isWaitNotify (q : Query) (hp : HPtr) : (Session.single (q.session hp)).isWaitNotify = false := by
  unfold Query.session Session.isWaitNotify
  cases q.kind <;> rfl

theorem single_inj {k k' : QueryKind} (h : k.single = k'.single) : k = k' := by
  cases k <;> cases k' <;> first | rfl | cases h

/-- Every waiting query has its session, its map entry and its timer, and there is no other session. -/
structure QueryInv (s : State) (waiting : List Query) : Prop where
  heap : ∀ q ∈ waiting, ∃ hp H, s.core.heap q.ptr = some (.single (q.session hp)) ∧
    s.links.handles hp = some H ∧ H.mcpHandler.handleID = q.handler.handleID
  armed : ∀ q ∈ waiting, s.core.armed q.ptr = true
  map : ∀ q ∈ waiting, s.core.mapSingle q.kind.single q.cltSessionID = some q.ptr
  only : ∀ p x, s.core.heap p = some x → ∃ q ∈ waiting, q.ptr = p

namespace QueryInv
variable {waiting : List Query} {q : Query}

theorem settles_answer (hi : QueryInv s waiting) (hc : CoreInv s.core) (hq : q ∈ waiting) {a : QueryAnswer}
    (ha : e.queryAnswer = some a) :
    settles q e = true ↔ s.core.mapSingle a.kind.single a.cltSessionID = some q.ptr := by
  simp only [settles, ha, Bool.and_eq_true, decide_eq_true_eq]
  constructor
  · rintro ⟨hk, hid⟩
    rw [hk, hid]
    exact hi.map q hq
  · intro hm
    obtain ⟨W, hW, hk, hid⟩ := hc.single _ _ _ hm
    obtain ⟨hp, H, hheap, -⟩ := hi.heap q hq
    obtain rfl := Session.single.inj (Option.some.inj (hW.symm.trans hheap))
    exact ⟨(single_inj hk).symm, hid.symm⟩

theorem settles_timer (p : Ptr) : settles q (.timer p) = true ↔ q.ptr = p := by
  simp only [settles, Event.queryAnswer, Event.timedOut, decide_eq_true_eq, Option.some.injEq]
  exact eq_comm

theorem settles_iff (hi : QueryInv s waiting) (hc : CoreInv s.core) (hq : q ∈ waiting) (hs : settles q e = true)
    {r : Query} (hr : r ∈ waiting) : settles r e = true ↔ r.ptr = q.ptr := by
  cases ha : e.queryAnswer with
  | some a =>
    have hm := (hi.settles_answer hc hq ha).mp hs
    rw [hi.settles_answer hc hr ha, hm, Option.some.injEq]
    exact eq_comm
  | none =>
    have ht : e.timedOut = some q.ptr := by simpa [settles, ha] using hs
    simp only [settles, ha, ht, decide_eq_true_eq, Option.some.injEq]
    exact eq_comm

theorem conn (hi : QueryInv s waiting) (conn : PeerConnSummary) : QueryInv { s with conn } waiting :=
  ⟨hi.heap, hi.armed, hi.map, hi.only⟩

end QueryInv

/-- The step of query traffic on a state in which `waiting` wait. -/
inductive QueryStep (cfg : Config) (s : State) (waiting : List Query) (e : Event) : State → List Out → Prop
  | failed {a code conn} : e.asksQuery = some a → code ∈ localErrors →
      QueryStep cfg s waiting e { s with conn } [a.response code []]
  | opened {a h m conn links hp} : e.asksQuery = some a → EsMsg.query a.kind m = some s.core.sessionID →
      LinkedTo s.links h s.core.next links hp → QueryStep cfg s waiting e {
        core := { s.core.openSingle ⟨a.kind.single, a.src, a.srcSessionID, s.core.sessionID, hp⟩ with
          sessionID := s.core.sessionID + 1 }
        links, conn } [.es h s.core.next m]
  | settled {q hp s'} : q ∈ waiting → settles q e = true → SingleEnded s q.ptr (q.session hp) s' →
      QueryStep cfg s waiting e s' [q.reply e]
  | idle : (∀ q ∈ waiting, settles q e = false) → e.asksQuery = none → QueryStep cfg s waiting e s []
  | table {conn} : e.queryAnswer = none → e.timedOut = none → e.asksQuery = none →
      QueryStep cfg s waiting e { s with conn } []
  | lost {h hp} : e = .networkError h → (∀ p, hp ∉ s.core.own p) →
      QueryStep cfg s waiting e ((s.disconnected cfg h).forget hp) []

theorem QueryInv.unused {waiting : List Query} (hi : QueryInv s waiting) (hl : LinksInv s.links) {h : McpHandler}
    (hno : ∀ q ∈ waiting, q.handler.handleID ≠ h.handleID) {hp : HPtr}
    (hm : s.links.mapHandle h.handleID = some hp) (p : Ptr) : hp ∉ s.core.own p := by
  intro hown
  obtain ⟨x, hx, hmem⟩ := heap_of_own hown
  obtain ⟨q, hq, rfl⟩ := hi.only p x hx
  obtain ⟨hp', H, hheap, hH, hid⟩ := hi.heap q hq
  obtain rfl := Option.some.inj (hx.symm.trans hheap)
  obtain rfl := List.mem_singleton.mp hmem
  obtain ⟨H', hH', hid'⟩ := hl.map _ _ hm
  obtain rfl := Option.some.inj (hH.symm.trans hH')
  exact hno q hq (hid.symm.trans hid')

theorem query_asked (hl : LinksInv s.links) {a} (ha : e.asksQuery = some a) (hpeer : (getMcpHandler s.conn).1 ≠ none) :
    ∃ s' outs, step cfg s e = .ok (s', outs) ∧ QueryStep cfg s (waitingQueries tr) e s' outs := by
  rcases step_asksQuery ha hl hpeer with ⟨code, hcode, conn, hst⟩ | ⟨h, m, conn, links, hp, hm, hlink, hst⟩
  · exact ⟨_, _, hst, .failed ha hcode⟩
  · exact ⟨_, _, hst, .opened ha hm hlink⟩

theorem query_answered (hc : CoreInv s.core) (hsym : SymInv s) (hi : QueryInv s (waitingQueries tr)) {a}
    (ha : e.queryAnswer = some a) (hno : e.asksQuery = none) :
    ∃ s' outs, step cfg s e = .ok (s', outs) ∧ QueryStep cfg s (waitingQueries tr) e s' outs := by
  rw [step_queryAnswer ha]
  cases hm : s.core.mapSingle a.kind.single a.cltSessionID with
  | none =>
    refine ⟨s, [], by rw [onHtsMsgSingle, hm], .idle (fun q hq => ?_) hno⟩
    rw [← Bool.not_eq_true, hi.settles_answer hc hq ha, hm]
    exact Option.some_ne_none _ ∘ Eq.symm
  | some p =>
    obtain ⟨W, hW, -⟩ := hc.single _ _ _ hm
    obtain ⟨q, hq, rfl⟩ := hi.only _ _ hW
    obtain ⟨hp, H, hheap, -⟩ := hi.heap q hq
    obtain ⟨s', hend, hst⟩ := onHtsMsgSingle_found hc hsym hm hheap (onResponseSingle · a.code false a.payload)
    rw [session_response] at hst
    have hs := (hi.settles_answer hc hq ha).mpr hm
    have hr : q.reply e = q.response a.code (if a.code = okType then a.payload else []) := by
      simp only [Query.reply, ha]
    exact ⟨s', _, hst, hr ▸ .settled hq hs hend⟩

theorem query_timer (hc : CoreInv s.core) (hsym : SymInv s) (hi : QueryInv s (waitingQueries tr)) (p : Ptr) :
    ∃ s' outs, step cfg s (.timer p) = .ok (s', outs) ∧ QueryStep cfg s (waitingQueries tr) (.timer p) s' outs := by
  by_cases ha : s.core.armed p = true
  · obtain ⟨x, hx⟩ := hc.armed p ha
    obtain ⟨q, hq, rfl⟩ := hi.only _ _ hx
    obtain ⟨hp, H, hheap, -⟩ := hi.heap q hq
    obtain ⟨s', hend, hst⟩ : ∃ s', SingleEnded s q.ptr (q.session hp) s' ∧ step cfg s (.timer q.ptr) =
        .ok (s', [onResponseSingle (q.session hp) timeoutErrorType false []]) :=
      step_timer_found hsym hheap (session_isWaitNotify q hp) ha
    rw [session_response] at hst
    exact ⟨s', _, hst, .settled hq ((QueryInv.settles_timer q.ptr).mpr rfl) hend⟩
  · refine ⟨s, [], by rw [step, if_neg ha], .idle (fun q hq => ?_) rfl⟩
    rw [← Bool.not_eq_true, QueryInv.settles_timer]
    rintro rfl
    exact ha (hi.armed q hq)

theorem query_lost {h : McpHandler} (hl : LinksInv s.links) (hsym : SymInv s) (hi : QueryInv s (waitingQueries tr))
    (ht : QueryTraffic cfg tr s (.networkError h)) :
    ∃ s' outs, step cfg s (.networkError h) = .ok (s', outs) ∧
      QueryStep cfg s (waitingQueries tr) (.networkError h) s' outs := by
  obtain ⟨hpeer, hno⟩ := ht
  cases hm : s.links.mapHandle h.handleID with
  | none => exact ⟨_, _, step_networkError_none hpeer hm, .table rfl rfl rfl⟩
  | some hp =>
    obtain ⟨H, hH, -⟩ := hl.map _ _ hm
    have hown := hi.unused hl hno hm
    have harr : H.arrSession = [] := by
      rw [List.eq_nil_iff_forall_not_mem]
      exact fun p hp' => hown p ((hsym.mem hH p).mp hp')
    refine ⟨_, _, ?_, .lost rfl hown⟩
    rw [step_networkError hpeer hm hH, harr]
    rfl

theorem query_step (hc : CoreInv s.core) (hl : LinksInv s.links) (hsym : SymInv s)
    (hi : QueryInv s (waitingQueries tr)) (ht : QueryTraffic cfg tr s e) :
    ∃ s' outs, step cfg s e = .ok (s', outs) ∧ QueryStep cfg s (waitingQueries tr) e s' outs := by
  cases e with
  | queryUserReq req src sendErr => exact query_asked hl rfl ht
  | queryTransReq req src sendErr => exact query_asked hl rfl ht
  | queryUserRsp rsp h => exact query_answered hc hsym hi rfl rfl
  | queryTransRsp rsp h => exact query_answered hc hsym hi rfl rfl
  | timer p => exact query_timer hc hsym hi p
  | connected h peerRand handleRand rawIndex => exact ⟨_, _, if_neg ht, .table rfl rfl rfl⟩
  | networkError h => exact query_lost hl hsym hi ht
  | _ => exact ht.elim

/-! ## The invariant is kept -/

theorem link_forward {p : Ptr} {l' : Links} {h : McpHandler} {hps : List HPtr} (hi : LinksInv s.links)
    (hl : s.links.link p [h] = .ok (l', hps)) {hp : HPtr} {H : HandleSession} (hH : s.links.handles hp = some H) :
    ∃ H', l'.handles hp = some H' ∧ H'.mcpHandler = H.mcpHandler := by
  obtain ⟨l₁, hins, hl⟩ := Except.bind_eq_ok.mp hl
  obtain ⟨rfl, -⟩ := Prod.mk.inj (Except.ok.inj hl)
  refine (Links.insert_same hins).some ?_
  unfold Links.handleSession
  split
  · exact hH
  · have hne : hp ≠ s.links.next := Nat.ne_of_lt (hi.fresh _ _ hH)
    simpa [hne] using hH

namespace QueryInv
variable {waiting : List Query}

theorem opened (hi : QueryInv s waiting) (hc : CoreInv s.core) (hl : LinksInv s.links) {a : Asked} {h : McpHandler}
    {links : Links} {hp : HPtr} (hnew : ∀ q ∈ waiting, q.cltSessionID ≠ s.core.sessionID)
    (hlink : LinkedTo s.links h s.core.next links hp) (conn : PeerConnSummary) (id : UInt32) :
    QueryInv { core := { s.core.openSingle ⟨a.kind.single, a.src, a.srcSessionID, s.core.sessionID, hp⟩ with
        sessionID := id }, links, conn }
      (waiting ++ [{ a with cltSessionID := s.core.sessionID, handler := h, ptr := s.core.next }]) := by
  have hold : ∀ q ∈ waiting, q.ptr ≠ s.core.next := by
    intro q hq
    obtain ⟨hp, H, hheap, -⟩ := hi.heap q hq
    exact Nat.ne_of_lt (hc.fresh _ _ hheap)
  obtain ⟨hlk, H, hH, hid⟩ := hlink
  refine ⟨fun q hq => ?_, fun q hq => ?_, fun q hq => ?_, fun p x hx => ?_⟩
  · rcases List.mem_append.mp hq with hq | hq
    · obtain ⟨hp', H', hheap, hH', hid'⟩ := hi.heap q hq
      obtain ⟨K, hK, heq⟩ := link_forward hl hlk hH'
      refine ⟨hp', K, ?_, hK, by rw [heq, hid']⟩
      simpa [Core.openSingle, hold q hq] using hheap
    · obtain rfl := List.mem_singleton.mp hq
      refine ⟨hp, H, ?_, hH, hid⟩
      simp [Core.openSingle, Query.session]
  · rcases List.mem_append.mp hq with hq | hq
    · have := hi.armed q hq
      simpa [Core.openSingle, hold q hq] using this
    · obtain rfl := List.mem_singleton.mp hq
      simp [Core.openSingle]
  · rcases List.mem_append.mp hq with hq | hq
    · have hm := hi.map q hq
      have hne := hnew q hq
      by_cases hk : q.kind.single = a.kind.single
      · rw [hk] at hm ⊢
        simpa [Core.openSingle, hne] using hm
      · simpa [Core.openSingle, hk] using hm
    · obtain rfl := List.mem_singleton.mp hq
      simp [Core.openSingle]
  · by_cases hp' : p = s.core.next
    · exact ⟨_, List.mem_append_right _ (List.mem_singleton.mpr rfl), hp'.symm⟩
    · obtain ⟨q, hq, rfl⟩ := hi.only p x
        (by simpa [Core.openSingle, hp'] using hx)
      exact ⟨q, List.mem_append_left _ hq, rfl⟩

theorem ended (hi : QueryInv s waiting) {p : Ptr} {W : SingleSession} (hend : SingleEnded s p W s') :
    QueryInv s' (waiting.filter fun q => q.ptr ≠ p) := by
  have hsame := hend.same
  obtain ⟨hW, hl⟩ := hend
  refine ⟨fun q hq => ?_, fun q hq => ?_, fun q hq => ?_, fun r x hx => ?_⟩
  · obtain ⟨hq, hne⟩ := List.mem_filter.mp hq
    have hne : q.ptr ≠ p := by simpa using hne
    obtain ⟨hp, H, hheap, hH, hid⟩ := hi.heap q hq
    obtain ⟨H', hH', heq⟩ := hsame.some hH
    exact ⟨hp, H', by simpa [finishSingle_heap, hne] using hheap, hH', by rw [heq, hid]⟩
  · obtain ⟨hq, hne⟩ := List.mem_filter.mp hq
    have hne : q.ptr ≠ p := by simpa using hne
    have := hi.armed q hq
    simpa [Core.finishSingle, hne] using this
  · obtain ⟨hq, hne⟩ := List.mem_filter.mp hq
    exact eraseSingle_eq_some.mpr ⟨hi.map q hq, by simpa using hne⟩
  · have hr : r ≠ p := by
      rintro rfl
      simp [finishSingle_heap] at hx
    obtain ⟨q, hq, rfl⟩ := hi.only r x (by simpa [finishSingle_heap, hr] using hx)
    exact ⟨q, List.mem_filter.mpr ⟨hq, by simpa using hr⟩, rfl⟩

theorem forget (hi : QueryInv s waiting) (h : McpHandler) {hp : HPtr} (hno : ∀ p, hp ∉ s.core.own p) :
    QueryInv ((s.disconnected cfg h).forget hp) waiting := by
  refine ⟨fun q hq => ?_, hi.armed, hi.map, hi.only⟩
  obtain ⟨hp', H, hheap, hH, hid⟩ := hi.heap q hq
  have hne : hp' ≠ hp := by
    rintro rfl
    exact hno q.ptr (by rw [own_eq hheap]; exact List.mem_singleton.mpr rfl)
  exact ⟨hp', H, hheap, by simpa [State.forget, State.disconnected, hne] using hH, hid⟩

end QueryInv

theorem waitingQueries_append (tr : History) (en : Entry State Event Out) :
    waitingQueries (tr ++ [en]) = waitStep (waitingQueries tr) en := by
  rw [waitingQueries, List.foldl_append]
  rfl

theorem sentQueries_append (tr : History) (en : Entry State Event Out) :
    sentQueries (tr ++ [en]) = sentQueries tr ++ (sentQuery en).toList := by
  rw [sentQueries, List.filterMap_append]
  cases h : sentQuery en <;> simp [h, sentQueries]

theorem filter_unsettled {waiting : List Query} (h : ∀ q ∈ waiting, settles q e = false) :
    waiting.filter (fun q => !settles q e) = waiting := by
  rw [List.filter_eq_self]
  intro q hq
  rw [h q hq]
  rfl

theorem QueryStep.waits {waiting : List Query} (h : QueryStep cfg s waiting e s' outs) (hi : QueryInv s waiting)
    (hc : CoreInv s.core) (hl : LinksInv s.links) (hnew : ∀ q ∈ waiting, q.cltSessionID ≠ s.core.sessionID) :
    QueryInv s' (waitStep waiting ⟨s, e, outs⟩) := by
  have hasked : ∀ {a}, e.asksQuery = some a → ∀ q, settles q e = false := by
    intro a ha q
    cases e <;> first | rfl | cases ha
  cases h with
  | @failed a code conn ha _ =>
    have hsent : sentQuery ⟨s, e, [a.response code []]⟩ = none := by simp [sentQuery, ha, Asked.response]
    rw [waitStep, hsent, filter_unsettled fun q _ => hasked ha q, Option.toList_none, List.append_nil]
    exact hi.conn conn
  | opened ha hm hlink =>
    rename_i a h m conn links hp
    have hsent : sentQuery ⟨s, e, [.es h s.core.next m]⟩ =
        some { a with cltSessionID := s.core.sessionID, handler := h, ptr := s.core.next } := by
      simp [sentQuery, ha, hm]
    rw [waitStep, hsent, filter_unsettled fun q _ => hasked ha q]
    exact hi.opened hc hl hnew hlink conn _
  | @settled q hp s' hq hs hend =>
    have hno : e.asksQuery = none := by
      by_contra hne
      obtain ⟨a, ha⟩ := Option.ne_none_iff_exists'.mp hne
      rw [hasked ha q] at hs
      cases hs
    have hsent : sentQuery ⟨s, e, [q.reply e]⟩ = none := by simp [sentQuery, hno]
    have hfilter : waiting.filter (fun r => !settles r e) = waiting.filter fun r => r.ptr ≠ q.ptr := by
      apply List.filter_congr
      intro r hr
      rw [Bool.eq_iff_iff, Bool.not_eq_true', ← Bool.not_eq_true, hi.settles_iff hc hq hs hr]
      simp
    rw [waitStep, hsent, hfilter, Option.toList_none, List.append_nil]
    exact hi.ended hend
  | idle hno hna =>
    have hsent : sentQuery ⟨s, e, []⟩ = none := by simp [sentQuery, hna]
    rw [waitStep, hsent, filter_unsettled hno, Option.toList_none, List.append_nil]
    exact hi
  | table hna ht hno =>
    rename_i conn
    have hsent : sentQuery ⟨s, e, []⟩ = none := by simp [sentQuery, hno]
    have hun : ∀ q ∈ waiting, settles q e = false := by
      intro q _
      simp [settles, hna, ht]
    rw [waitStep, hsent, filter_unsettled hun, Option.toList_none, List.append_nil]
    exact hi.conn conn
  | lost he hno =>
    rename_i h hp
    subst he
    rw [waitStep, filter_unsettled fun _ _ => rfl]
    exact (List.append_nil waiting).symm ▸ hi.forget h hno

theorem QueryInv.session {waiting : List Query} (hi : QueryInv s waiting) (p : Ptr) : s.core.session p = none := by
  cases h : s.core.session p with
  | none => rfl
  | some S =>
    rw [session_eq_some] at h
    obtain ⟨q, hq, rfl⟩ := hi.only p _ h
    obtain ⟨hp, H, hheap, -⟩ := hi.heap q hq
    cases h.symm.trans hheap

/-- Query sessions are in one array each, so their ends keep the links. -/
theorem QueryTraffic.keepsLinks (ht : QueryTraffic cfg tr s e) (hl : LinksInv s.links) (hsym : SymInv s)
    (hi : QueryInv s (waitingQueries tr)) : KeepsLinks cfg s e where
  answer a _ p _ S hS := by
    rw [hi.session p] at hS
    cases hS
  submit r _ _ p _ S hS := by
    rw [hi.session p] at hS
    cases hS
  timer p _ _ S hS := by
    rw [hi.session p] at hS
    cases hS
  send hasks := by
    cases e with
    | registUserReq => exact ht.elim
    | proposeReq => exact ht.elim
    | _ => exact absurd rfl hasks
  lost h hh hp hm H hH := by
    cases e with
    | networkError h' =>
      obtain rfl := Option.some.inj hh
      have harr : H.arrSession = [] := by
        rw [List.eq_nil_iff_forall_not_mem]
        exact fun p hp' => hi.unused hl ht.2 hm p ((hsym.mem hH p).mp hp')
      rw [harr]
      exact ⟨Nat.zero_le 1, fun p hp' => by cases hp'⟩
    | _ => cases hh

/-! ## Runs -/

structure TrafficInv (tr : History) (s : State) : Prop where
  waits : QueryInv s (waitingQueries tr)
  sub : ∀ q ∈ waitingQueries tr, q ∈ sentQueries tr
  sent : ∀ q ∈ sentQueries tr, q.cltSessionID.toNat < s.core.sessionID.toNat ∧ q.ptr < s.core.next
  ids : ((sentQueries tr).map (·.cltSessionID)).Nodup
  ptrs : ((sentQueries tr).map (·.ptr)).Nodup
  count : s.core.sessionID.toNat ≤ requestCount tr

theorem QueryStep.sent {waiting : List Query} (h : QueryStep cfg s waiting e s' outs) :
    (sentQuery ⟨s, e, outs⟩ = none ∧ s'.core.sessionID = s.core.sessionID ∧ s'.core.next = s.core.next) ∨
      ∃ q, sentQuery ⟨s, e, outs⟩ = some q ∧ e.isRequest = true ∧
        q.cltSessionID = s.core.sessionID ∧ s'.core.sessionID = s.core.sessionID + 1 ∧
        q.ptr = s.core.next ∧ s'.core.next = s.core.next + 1 := by
  cases h with
  | failed ha _ => exact .inl ⟨by simp [sentQuery, ha, Asked.response], rfl, rfl⟩
  | opened ha hm _ =>
    refine .inr ⟨_, by simp only [sentQuery, ha, hm]; rfl, ?_, rfl, rfl, rfl, rfl⟩
    cases e <;> first | rfl | cases ha
  | settled _ _ hend =>
    obtain ⟨-, -⟩ := hend
    refine .inl ⟨?_, rfl, rfl⟩
    unfold sentQuery
    split <;> rename_i heq <;> first | rfl | (simp [Query.reply, Asked.response] at heq; split at heq <;> cases heq)
  | idle _ hna => exact .inl ⟨by simp [sentQuery, hna], rfl, rfl⟩
  | table _ _ hna => exact .inl ⟨by simp [sentQuery, hna], rfl, rfl⟩
  | lost he _ =>
    subst he
    exact .inl ⟨rfl, rfl, rfl⟩

theorem TrafficInv.step (hi : TrafficInv tr s) (hc : CoreInv s.core) (hl : LinksInv s.links)
    (h : QueryStep cfg s (waitingQueries tr) e s' outs) (hlt : requestCount (tr ++ [⟨s, e, outs⟩]) < 2 ^ 32) :
    TrafficInv (tr ++ [⟨s, e, outs⟩]) s' := by
  have hnew : ∀ q ∈ sentQueries tr, q.cltSessionID ≠ s.core.sessionID := by
    rintro q hq heq
    have := (hi.sent q hq).1
    rw [heq] at this
    exact Nat.lt_irrefl _ this
  have hwaits := h.waits hi.waits hc hl fun q hq => hnew q (hi.sub q hq)
  rw [requestCount_append] at hlt
  have hsub : ∀ q ∈ waitingQueries (tr ++ [⟨s, e, outs⟩]), q ∈ sentQueries (tr ++ [⟨s, e, outs⟩]) := by
    intro q hq
    rw [waitingQueries_append, waitStep] at hq
    rw [sentQueries_append]
    rcases List.mem_append.mp hq with hq | hq
    · exact List.mem_append_left _ (hi.sub q (List.mem_of_mem_filter hq))
    · exact List.mem_append_right _ hq
  rcases h.sent with ⟨hs, hid, hnext⟩ | ⟨q, hs, hreq, hqid, hid, hqp, hnext⟩
  · have hsent : sentQueries (tr ++ [⟨s, e, outs⟩]) = sentQueries tr := by
      rw [sentQueries_append, hs, Option.toList_none, List.append_nil]
    refine ⟨by rw [waitingQueries_append]; exact hwaits, hsub, ?_, ?_, ?_, ?_⟩
    · rw [hsent, hid, hnext]
      exact hi.sent
    · rw [hsent]
      exact hi.ids
    · rw [hsent]
      exact hi.ptrs
    · rw [hid, requestCount_append]
      have := hi.count
      omega
  · have hsent : sentQueries (tr ++ [⟨s, e, outs⟩]) = sentQueries tr ++ [q] := by
      rw [sentQueries_append, hs, Option.toList_some]
    have hcount := hi.count
    have hsucc : s'.core.sessionID.toNat = s.core.sessionID.toNat + 1 := by
      simp only [hreq, if_true] at hlt
      rw [hid, UInt32.toNat_add, show (1 : UInt32).toNat = 1 from rfl, Nat.mod_eq_of_lt (by omega)]
    refine ⟨by rw [waitingQueries_append]; exact hwaits, hsub, ?_, ?_, ?_, ?_⟩
    · rw [hsent, hsucc, hnext]
      intro r hr
      rcases List.mem_append.mp hr with hr | hr
      · exact ⟨Nat.lt_succ_of_lt (hi.sent r hr).1, Nat.lt_succ_of_lt (hi.sent r hr).2⟩
      · obtain rfl := List.mem_singleton.mp hr
        rw [hqid, hqp]
        exact ⟨Nat.lt_succ_self _, Nat.lt_succ_self _⟩
    · rw [hsent, List.map_append]
      refine hi.ids.append (List.nodup_singleton _) ?_
      rw [List.map_singleton, List.disjoint_singleton, hqid]
      rintro hm
      obtain ⟨r, hr, heq⟩ := List.mem_map.mp hm
      exact hnew r hr heq
    · rw [hsent, List.map_append]
      refine hi.ptrs.append (List.nodup_singleton _) ?_
      rw [List.map_singleton, List.disjoint_singleton, hqp]
      rintro hm
      obtain ⟨r, hr, heq⟩ := List.mem_map.mp hm
      exact Nat.ne_of_lt (hi.sent r hr).2 heq
    · rw [hsucc, requestCount_append]
      simp only [hreq, if_true]
      omega

theorem trafficInv_init : TrafficInv [] {} where
  waits := {
    heap := fun _ h => by cases h
    armed := fun _ h => by cases h
    map := fun _ h => by cases h
    only := fun _ _ h => by cases h }
  sub _ h := by cases h
  sent _ h := by cases h
  ids := List.nodup_nil
  ptrs := List.nodup_nil
  count := Nat.le_refl 0

theorem run_traffic (h : Run (step cfg) {} (QueryTraffic cfg) tr s) (hlt : requestCount tr < 2 ^ 32) :
    Run (step cfg) {} (fun _ s e => KeepsLinks cfg s e) tr s ∧ TrafficInv tr s := by
  revert hlt
  refine h.invariant (fun tr s => requestCount tr < 2 ^ 32 →
    Run (step cfg) {} (fun _ s e => KeepsLinks cfg s e) tr s ∧ TrafficInv tr s) (fun _ => ⟨.nil, trafficInv_init⟩) ?_
  intro tr s e s' outs _ ih ht hst hlt
  obtain ⟨hr, hi⟩ := ih (Nat.lt_of_le_of_lt (requestCount_le rfl) hlt)
  have hc := run_coreInv hr
  have hl := run_linksInv hr
  have hsym := run_symInv hr
  obtain ⟨s₁, outs₁, hst₁, hq⟩ := query_step hc hl hsym hi.waits ht
  obtain ⟨rfl, rfl⟩ := Prod.mk.inj (Except.ok.inj (hst₁.symm.trans hst))
  exact ⟨.snoc hr (ht.keepsLinks hl hsym hi.waits) hst, hi.step hc hl hq hlt⟩

theorem run_query_step (h : Run (step cfg) {} (QueryTraffic cfg) tr s) (hlt : requestCount tr < 2 ^ 32)
    (ht : QueryTraffic cfg tr s e) :
    ∃ s' outs, step cfg s e = .ok (s', outs) ∧ QueryStep cfg s (waitingQueries tr) e s' outs := by
  obtain ⟨hr, hi⟩ := run_traffic h hlt
  exact query_step (run_coreInv hr) (run_linksInv hr) (run_symInv hr) hi.waits ht

theorem entry_query_step (h : Run (step cfg) {} (QueryTraffic cfg) tr s) (hlt : requestCount tr < 2 ^ 32) {tr₁ en tr₂}
    (he : tr = tr₁ ++ en :: tr₂) : TrafficInv tr₁ en.pre ∧ CoreInv en.pre.core ∧
      ∃ s', step cfg en.pre en.ev = .ok (s', en.outs) ∧
        QueryStep cfg en.pre (waitingQueries tr₁) en.ev s' en.outs := by
  obtain ⟨s', hr, ht, hst⟩ := h.entry he
  have hlt₁ := Nat.lt_of_le_of_lt (requestCount_le he) hlt
  obtain ⟨s₁, outs₁, hst₁, hq⟩ := run_query_step hr hlt₁ ht
  obtain ⟨rfl, rfl⟩ := Prod.mk.inj (Except.ok.inj (hst₁.symm.trans hst))
  exact ⟨(run_traffic hr hlt₁).2, run_coreInv hr, s₁, hst, hq⟩

theorem not_settles_of_asksQuery {a : Asked} (ha : e.asksQuery = some a) (q : Query) : settles q e = false := by
  cases e <;> first | rfl | cases ha

theorem QueryStep.first {waiting : List Query} (h : QueryStep cfg s waiting e s' outs) (hi : QueryInv s waiting)
    (hc : CoreInv s.core) {q : Query} (hq : q ∈ waiting) (hptr : ∀ r ∈ waiting, r.ptr = q.ptr → r = q)
    (hs : settles q e = true) : outs = [q.reply e] := by
  cases h with
  | failed ha _ => rw [not_settles_of_asksQuery ha] at hs; cases hs
  | opened ha _ _ => rw [not_settles_of_asksQuery ha] at hs; cases hs
  | settled hr hsr _ => rw [hptr _ hr ((hi.settles_iff hc hq hs hr).mp hsr)]
  | idle hno _ => rw [hno q hq] at hs; cases hs
  | table hna ht _ => simp [settles, hna, ht] at hs
  | lost he _ =>
    subst he
    cases hs

theorem QueryStep.later {waiting : List Query} (h : QueryStep cfg s waiting e s' outs) {q : Query}
    (hs : settles q e = true) (hno : ∀ r ∈ waiting, settles r e = false) : s' = s ∧ outs = [] := by
  cases h with
  | failed ha _ => rw [not_settles_of_asksQuery ha] at hs; cases hs
  | opened ha _ _ => rw [not_settles_of_asksQuery ha] at hs; cases hs
  | settled hr hsr _ => rw [hno _ hr] at hsr; cases hsr
  | idle _ _ => exact ⟨rfl, rfl⟩
  | table hna ht _ => simp [settles, hna, ht] at hs
  | lost he _ =>
    subst he
    cases hs

/-- Two queries that one event settles have the same id or the same session. -/
theorem settles_two {q r : Query} (hq : settles q e = true) (hr : settles r e = true) :
    q.cltSessionID = r.cltSessionID ∨ q.ptr = r.ptr := by
  unfold settles at hq hr
  cases ha : e.queryAnswer with
  | some a =>
    simp only [ha, Bool.and_eq_true, decide_eq_true_eq] at hq hr
    exact .inl (hq.2.symm.trans hr.2)
  | none =>
    simp only [ha, decide_eq_true_eq] at hq hr
    exact .inr (Option.some.inj (hq.symm.trans hr))

theorem QueryStep.unsent {waiting : List Query} (h : QueryStep cfg s waiting e s' outs) {a : Asked}
    (ha : e.asksQuery = some a) (hs : sentQuery ⟨s, e, outs⟩ = none) :
    ∃ code ∈ localErrors, outs = [a.response code []] := by
  cases h with
  | failed ha' hcode =>
    obtain rfl := Option.some.inj (ha.symm.trans ha')
    exact ⟨_, hcode, rfl⟩
  | opened ha' hm _ =>
    simp only [sentQuery, ha', hm] at hs
    cases hs
  | settled _ hs' _ =>
    rw [not_settles_of_asksQuery ha] at hs'
    cases hs'
  | idle _ hna => cases hna.symm.trans ha
  | table _ _ hna => cases hna.symm.trans ha
  | lost he _ =>
    subst he
    cases ha

theorem QueryStep.source {waiting : List Query} (h : QueryStep cfg s waiting e s' outs) {o : Out} (ho : o ∈ outs) :
    (∃ a, e.asksQuery = some a) ∨ ∃ q ∈ waiting, settles q e = true := by
  cases h with
  | failed ha _ => exact .inl ⟨_, ha⟩
  | opened ha _ _ => exact .inl ⟨_, ha⟩
  | settled hq hs _ => exact .inr ⟨_, hq, hs⟩
  | idle _ _ => cases ho
  | table _ _ _ => cases ho
  | lost _ _ => cases ho

theorem queries_answered (h : Run (step cfg) {} (QueryTraffic cfg) tr s) (hlt : requestCount tr < 2 ^ 32) :
    QueriesAnswered cfg tr s where
  asked := by
    intro tr₁ en tr₂ he a ha
    obtain ⟨-, -, s', -, hq⟩ := entry_query_step h hlt he
    rcases hq.sent with ⟨hs, -⟩ | ⟨q, hs, -⟩
    · exact .inl (hq.unsent ha hs)
    · exact .inr ⟨q, hs⟩
  ids := (run_traffic h hlt).2.ids
  ptrs := (run_traffic h hlt).2.ptrs
  first := by
    intro tr₁ en tr₂ he q hq hs
    obtain ⟨hi, hc, s', -, hstep⟩ := entry_query_step h hlt he
    exact hstep.first hi.waits hc hq
      (fun r hr hptr => List.inj_on_of_nodup_map hi.ptrs (hi.sub r hr) (hi.sub q hq) hptr) hs
  later := by
    intro tr₁ en tr₂ he q hq hno hs
    obtain ⟨hi, -, s', hst, hstep⟩ := entry_query_step h hlt he
    have hun : ∀ r ∈ waitingQueries tr₁, settles r en.ev = false := by
      intro r hr
      rw [← Bool.not_eq_true]
      intro hsr
      have heq : q = r := by
        rcases settles_two hs hsr with hid | hp
        · exact List.inj_on_of_nodup_map hi.ids hq (hi.sub r hr) hid
        · exact List.inj_on_of_nodup_map hi.ptrs hq (hi.sub r hr) hp
      exact hno (heq ▸ hr)
    obtain ⟨rfl, houts⟩ := hstep.later hs hun
    rw [houts] at hst
    exact ⟨houts, hst⟩
  source := by
    intro tr₁ en tr₂ he o ho _
    obtain ⟨-, -, s', -, hstep⟩ := entry_query_step h hlt he
    exact hstep.source ho
  safe := by
    intro e ht
    obtain ⟨s', outs, hst, -⟩ := run_query_step h hlt ht
    exact ⟨_, hst⟩

end

/-! ## Two queries -/

def queryPeers : Config :=
  { twoPeers with
    codec := { twoPeers.codec with
      decodeChannelKey := fun _ => some (7, ⟨1, 2, 3⟩)
      decodeTransKey := fun key => if key = [] then none else some ⟨1, 2, 3, 4⟩ } }

/-- The response carries an error of the service's own, or an endorser's code and payload. -/
def Query.Carries (q : Query) (e : Event) (o : Out) : Prop :=
  (∃ code ∈ localErrors, o = q.response code []) ∨ ∃ a, e.queryAnswer = some a ∧ o = q.response a.code a.payload

/-- The payload of an answer whose code is an error is not handed on. -/
theorem payload_dropped : ¬ ∀ (cfg : Config) (tr : History) (s : State),
    Run (step cfg) {} (QueryTraffic cfg) tr s → requestCount tr < 2 ^ 32 → ∀ tr₁ en tr₂, tr = tr₁ ++ en :: tr₂ →
      ∀ q ∈ waitingQueries tr₁, settles q en.ev = true → ∀ o ∈ en.outs, q.Carries en.ev o := by
  intro hall
  let evs : List Event := [.connected firstPeer 0 0 0, .queryUserReq ⟨9, [1]⟩ 5 false,
    .queryUserRsp ⟨7, 0, [8]⟩ firstPeer]
  have hr := run_of_meets (step queryPeers) {} (QueryTraffic queryPeers) evs (by decide)
  obtain ⟨en, hsplit, -, hen⟩ := split_map (trace (step queryPeers) {} evs) 2 (fun en => (en.ev, en.outs))
    (.queryUserRsp ⟨7, 0, [8]⟩ firstPeer, [.upper 5 (.queryUserRsp 7 9 [])]) rfl
  obtain ⟨hev, houts⟩ := Prod.mk.inj hen
  have hcarries := hall queryPeers _ _ hr (by decide) _ _ _ hsplit ⟨⟨.user, 5, 9⟩, 0, firstPeer, 0⟩ (by decide)
    (by rw [hev]; rfl) _ (by rw [houts]; exact List.mem_singleton.mpr rfl)
  rcases hcarries with ⟨code, hcode, ho⟩ | ⟨a, ha, ho⟩
  · obtain ⟨-, h⟩ := Out.upper.inj ho
    obtain ⟨rfl, -⟩ := UpperMsg.queryUserRsp.inj h
    exact absurd hcode (by decide)
  · rw [hev] at ha
    obtain rfl := Option.some.inj ha
    obtain ⟨-, h⟩ := Out.upper.inj ho
    obtain ⟨-, -, hpay⟩ := UpperMsg.queryUserRsp.inj h
    cases hpay

theorem queries_answered_two : ∃ tr s, Run (step queryPeers) {} (QueryTraffic queryPeers) tr s ∧
    QueriesAnswered queryPeers tr s ∧ tr.flatMap (·.outs) = [
      .es firstPeer 0 (.queryUserReq 0 7 ⟨1, 2, 3⟩), .es secondPeer 1 (.queryTransReq 1 7 ⟨1, 2, 3, 4⟩),
      .upper 6 (.queryTransRsp decodeErrorType 3 []), .upper 5 (.queryUserRsp okType 1 [8]),
      .upper 6 (.queryTransRsp timeoutErrorType 2 [])] := by
  let evs : List Event := connectBoth ++ [.queryUserReq ⟨1, [1]⟩ 5 false, .queryTransReq ⟨2, [1], [2]⟩ 6 false,
    .queryTransReq ⟨3, [1], []⟩ 6 false, .queryUserRsp ⟨okType, 0, [8]⟩ firstPeer,
    .queryUserRsp ⟨okType, 0, [8]⟩ firstPeer, .timer 1, .queryTransRsp ⟨1, okType, [9]⟩ secondPeer,
    .networkError secondPeer]
  have hr := run_of_meets (step queryPeers) {} (QueryTraffic queryPeers) evs (by decide)
  exact ⟨_, _, hr, queries_answered hr (by decide), by decide⟩

end VProtocol.Client
