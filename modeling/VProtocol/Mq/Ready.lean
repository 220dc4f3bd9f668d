import VProtocol.Mq.Sessions

/-!
# Ready and abnormal

`OnReady` and `OnAbnormal` alternate and say whether a session is connected, as long as the
sessions come and go one by one: a handler that connects once more to the only forwarder,
one that is lost when no session is connected, and a deletion of the last session that
reports no loss each break it.
-/

namespace VProtocol.Mq

open Function (update)

abbrev AgentHistory (α : Type) := List (Entry (Agent α) (AgentEvent α) (AgentOut α))

namespace Agent

section
variable {α : Type}

/-- What the last callback said, after those of a list, or none if two said the same one after the
other. -/
def follow : Bool → List (AgentOut α) → Option Bool
  | ready, [] => some ready
  | ready, .onReady :: l => if ready then none else follow true l
  | ready, .onAbnormal :: l => if ready then follow false l else none
  | ready, .regMqClientAddrReq .. :: l => follow ready l
  | ready, .regMqTopicReq .. :: l => follow ready l
  | ready, .doConnect _ :: l => follow ready l
  | ready, .disConnect _ :: l => follow ready l
  | ready, .cancelConnect _ :: l => follow ready l

/-- The callbacks alternate from `OnReady` on, and the last one tells whether the array has a session. -/
def Alternates (tr : AgentHistory α) (s : Agent α) : Prop :=
  follow false (tr.flatMap Entry.outs) = some !s.handlerSessionArray.isEmpty

theorem follow_append {ready : Bool} {l l' : List (AgentOut α)} :
    follow ready (l ++ l') = (follow ready l).bind fun ready' => follow ready' l' := by
  induction l generalizing ready with
  | nil => rfl
  | cons o l ih =>
    cases o with
    | onReady =>
      cases ready with
      | false => exact ih
      | true => rfl
    | onAbnormal =>
      cases ready with
      | false => rfl
      | true => exact ih
    | regMqClientAddrReq h req => exact ih
    | regMqTopicReq h req => exact ih
    | doConnect a => exact ih
    | disConnect handleID => exact ih
    | cancelConnect handleID => exact ih

theorem alternates_snoc {tr : AgentHistory α} {s s' : Agent α} {e : AgentEvent α} {outs : List (AgentOut α)}
    (h : Alternates tr s) : Alternates (tr ++ [⟨s, e, outs⟩]) s' ↔
      follow (!s.handlerSessionArray.isEmpty) outs = some !s'.handlerSessionArray.isEmpty := by
  unfold Alternates at h ⊢
  rw [List.flatMap_append, follow_append, h, Option.bind_some, List.flatMap_singleton]

/-! ## Callbacks and numbers of sessions -/

section
variable {elems others : List Ptr}

theorem follow_lose (hsub : others ⊆ elems) :
    follow (!elems.isEmpty) (onAbnormalIf others.isEmpty : List (AgentOut α)) = some (!others.isEmpty) ↔ elems ≠ [] := by
  cases others with
  | nil =>
    cases elems with
    | nil => simp [onAbnormalIf, follow]
    | cons p l => simp [onAbnormalIf, follow]
  | cons q l' =>
    cases elems with
    | nil => exact absurd (hsub List.mem_cons_self) List.not_mem_nil
    | cons p l => simp [onAbnormalIf, follow]

theorem follow_connect (hsub : others ⊆ elems) :
    follow (!elems.isEmpty) (if others.length + 1 = 1 then [.onReady] else [] : List (AgentOut α)) = some true ↔
      (others = [] → elems = []) := by
  cases others with
  | nil =>
    cases elems with
    | nil => simp [follow]
    | cons p l => simp [follow]
  | cons q l' =>
    cases elems with
    | nil => exact absurd (hsub List.mem_cons_self) List.not_mem_nil
    | cons p l => simp [follow]

theorem follow_connect_fail (hsub : others ⊆ elems) :
    follow (!elems.isEmpty)
        (onAbnormalIf others.isEmpty ++ if others.length = 1 then [.onReady] else [] : List (AgentOut α)) =
      some (!others.isEmpty) ↔ others.length ≠ 1 ∧ (others = [] → elems ≠ []) := by
  cases others with
  | nil =>
    cases elems with
    | nil => simp [onAbnormalIf, follow]
    | cons p l => simp [onAbnormalIf, follow]
  | cons q l' =>
    cases elems with
    | nil => exact absurd (hsub List.mem_cons_self) List.not_mem_nil
    | cons p l =>
      cases l' with
      | nil => simp [onAbnormalIf, follow]
      | cons r l' => simp [onAbnormalIf, follow]

theorem follow_delete (reports : Bool) (hsub : others ⊆ elems) (hne : elems ≠ []) :
    follow (!elems.isEmpty) (if reports then onAbnormalIf others.isEmpty else [] : List (AgentOut α)) =
      some (!others.isEmpty) ↔ (others = [] → reports = true) := by
  cases elems with
  | nil => exact absurd rfl hne
  | cons p l =>
    cases others with
    | nil =>
      cases reports with
      | false => simp [follow]
      | true => simp [onAbnormalIf, follow]
    | cons q l' =>
      cases reports with
      | false => simp [follow]
      | true => simp [onAbnormalIf, follow]

end

/-! ## What the handlers do to the array -/

def Kept (s : Agent α) : Prop :=
  Arrayed s.mapForwarderSession s.sessions s.handlerSessionArray s.sessionIndex s.next

variable [DecidableEq α] {cfg : AgentConfig α} {s s' : Agent α} {h : ClientHandler α} {x : α} {p : Ptr}
  {outs : List (AgentOut α)}

/-- The connected sessions but for the one of an address. -/
def others (s : Agent α) (x : α) : List Ptr :=
  s.handlerSessionArray.elems.filter fun p => s.mapForwarderSession x ≠ some p

omit [DecidableEq α] in
theorem others_some (hp : s.mapForwarderSession x = some p) :
    s.others x = s.handlerSessionArray.elems.filter (· ≠ p) := by
  unfold others
  refine List.filter_congr fun q _ => ?_
  rw [hp]
  simp [eq_comm]

omit [DecidableEq α] in
theorem others_none (hx : s.mapForwarderSession x = none) : s.others x = s.handlerSessionArray.elems := by
  unfold others
  rw [hx]
  simp

omit [DecidableEq α] in
theorem others_subset (s : Agent α) (x : α) : s.others x ⊆ s.handlerSessionArray.elems :=
  fun _ hp => (List.mem_filter.mp hp).1

theorem Kept.onNetworkError (hs : s.Kept) (h : ClientHandler α) : ∃ s', s.onNetworkError h =
      .ok (s', if (s.mapForwarderSession h.remoteAddr).isSome then onAbnormalIf (s.others h.remoteAddr).isEmpty else []) ∧
    s'.Kept ∧ s'.handlerSessionArray.elems.Perm (s.others h.remoteAddr) := by
  unfold Agent.onNetworkError
  cases hp : s.mapForwarderSession h.remoteAddr with
  | none =>
    refine ⟨_, rfl, hs, ?_⟩
    rw [others_none hp]
  | some p =>
    obtain ⟨S, hS, -⟩ := hs.session _ p hp
    obtain ⟨a, ix, q, hdel, hperm, hplaced, hindex⟩ := hs.delete p
    rw [others_some hp]
    simp only [hS, hdel, Except.ok_bind, Option.isSome_some, if_true]
    refine ⟨{ s with
        sessions := update s.sessions p (some { S with mcpHandler := none }), handlerSessionArray := a, sessionIndex := ix,
        connections := s.connections.erase h }, ?_, hs.lose hp hS hperm hplaced hindex, hperm⟩
    unfold TypeArray.isEmpty
    rw [hperm.isEmpty_eq]

/-- The state of a connected handler's session, after it was inserted. -/
def inserted (s : Agent α) (p : Ptr) : Agent α :=
  { s with
    handlerSessionArray := (s.handlerSessionArray.insert p s.sessionIndex).1
    sessionIndex := (s.handlerSessionArray.insert p s.sessionIndex).2 }

theorem Kept.openSession (hs : s.Kept) (hopen : s.openSession cfg h = .ok (s', p)) : (s'.inserted p).Kept ∧
    (s'.inserted p).mapForwarderSession h.remoteAddr = some p ∧
    (s'.inserted p).handlerSessionArray.elems.Perm (p :: s.others h.remoteAddr) := by
  unfold Agent.openSession at hopen
  cases hx : s.mapForwarderSession h.remoteAddr with
  | some q =>
    obtain ⟨S, hS, -⟩ := hs.session _ q hx
    simp only [hx, hS] at hopen
    obtain ⟨rfl, rfl⟩ := Prod.mk.inj (Except.ok.inj hopen)
    obtain ⟨hkept, hperm⟩ := Arrayed.insert (S := { S with mcpHandler := some h, handleID := h.handleID }) hs hx
      (fun h' hh => by rw [← Option.some.inj hh]) rfl
    rw [others_some hx]
    exact ⟨hkept, hx, hperm⟩
  | none =>
    simp only [hx] at hopen
    by_cases hasserts : cfg.asserts
    · rw [if_pos hasserts] at hopen
      cases hopen
    · rw [if_neg hasserts] at hopen
      obtain ⟨rfl, rfl⟩ := Prod.mk.inj (Except.ok.inj hopen)
      have hnew := hs.create { strAddr := cfg.getIpAddr h.remoteAddr, port := (cfg.getPort h.remoteAddr).toInt16 } hx rfl
      obtain ⟨hkept, hperm⟩ := Arrayed.insert (S :=
          { strAddr := cfg.getIpAddr h.remoteAddr, mcpHandler := some h, handleID := h.handleID,
            port := (cfg.getPort h.remoteAddr).toInt16 })
        hnew (Function.update_self _ _ _) (fun h' hh => by rw [← Option.some.inj hh]) rfl
      rw [Function.update_idem] at hkept
      refine ⟨hkept, Function.update_self _ _ _, ?_⟩
      have hother : s.handlerSessionArray.elems.filter (· ≠ s.next) = s.others h.remoteAddr := by
        rw [others_none hx]
        refine filter_ne_self fun hmem => ?_
        obtain ⟨y, hy⟩ := hs.elem s.next hmem
        exact Nat.lt_irrefl _ (hs.lt y s.next hy)
      rw [← hother]
      exact hperm

omit [DecidableEq α] in
theorem Kept.others_inserted (hs : s'.Kept) (hp : s'.mapForwarderSession x = some p)
    (hperm : s'.handlerSessionArray.elems.Perm (p :: s.others x)) : (s'.others x).Perm (s.others x) := by
  have hnot : p ∉ s.others x := (List.nodup_cons.mp (hperm.nodup_iff.mp hs.placed.nodup)).1
  have hfilter := hperm.filter (fun q => decide (q ≠ p))
  rw [List.filter_cons_of_neg (by simp), filter_ne_self hnot] at hfilter
  rw [others_some hp]
  exact hfilter

variable (cfg) in
theorem Kept.addMqForwarderAddr (hs : s.Kept) (addr : MqForwarderAddr) : (s.addMqForwarderAddr cfg addr).1.Kept ∧
    (s.addMqForwarderAddr cfg addr).1.handlerSessionArray = s.handlerSessionArray ∧
    ∀ ready, follow ready (s.addMqForwarderAddr cfg addr).2 = some ready := by
  unfold Agent.addMqForwarderAddr
  cases hx : s.mapForwarderSession (cfg.ipAddr addr.port addr.strIpAddr) with
  | some p =>
    simp only [hx]
    exact ⟨hs, trivial, fun _ => rfl⟩
  | none =>
    simp only [hx]
    exact ⟨hs.create { strAddr := addr.strIpAddr, port := addr.port.toInt16 } hx rfl, trivial, fun _ => rfl⟩

variable (cfg) in
theorem Kept.addMqForwarderAddrs (l : List MqForwarderAddr) (hs : s.Kept) : (s.addMqForwarderAddrs cfg l).1.Kept ∧
    (s.addMqForwarderAddrs cfg l).1.handlerSessionArray = s.handlerSessionArray ∧
    ∀ ready, follow ready (s.addMqForwarderAddrs cfg l).2 = some ready := by
  induction l generalizing s with
  | nil => exact ⟨hs, rfl, fun _ => rfl⟩
  | cons addr l ih =>
    obtain ⟨hfirst, harray, hquiet⟩ := hs.addMqForwarderAddr cfg addr
    obtain ⟨hrest, harray', hquiet'⟩ := ih hfirst
    unfold Agent.addMqForwarderAddrs
    refine ⟨hrest, harray'.trans harray, fun ready => ?_⟩
    rw [follow_append, hquiet, Option.bind_some]
    exact hquiet' ready

variable (cfg) in
theorem Kept.onRegMqClientAddrRsp (hs : s.Kept) (rsp : RegMqClientAddrRsp) : (s.onRegMqClientAddrRsp cfg rsp).1.Kept ∧
    (s.onRegMqClientAddrRsp cfg rsp).1.handlerSessionArray = s.handlerSessionArray ∧
    ∀ ready, follow ready (s.onRegMqClientAddrRsp cfg rsp).2 = some ready := by
  have hadd := hs.addMqForwarderAddrs cfg rsp.lstMqForwarderAddr
  unfold Agent.onRegMqClientAddrRsp
  by_cases hid : (s.addMqForwarderAddrs cfg rsp.lstMqForwarderAddr).1.regMqTopicReq.clientID = 0
  · simp only [if_pos hid]
    exact hadd
  · simp only [if_neg hid]
    exact hadd

/-- A deleted session is not among the connected ones, and the loss that `DisConnect` may report
finds it gone from the array. -/
theorem Kept.onDelFowrarderAddrNotify (hs : s.Kept) {notify : DelFowrarderAddrNotify} {reports : Bool}
    (hst : s.onDelFowrarderAddrNotify cfg notify reports = .ok (s', outs)) (hx : cfg.ipAddr notify.mqForwarderAddr.port
      notify.mqForwarderAddr.strIpAddr = x) : s'.Kept ∧ s'.handlerSessionArray.elems.Perm (s.others x) ∧
    (s.others x = s.handlerSessionArray.elems ∧ (∀ ready, follow ready outs = some ready) ∨
      s.handlerSessionArray.elems ≠ [] ∧ ∃ handleID, outs = .disConnect handleID ::
        if reports then onAbnormalIf (s.others x).isEmpty else []) := by
  unfold Agent.onDelFowrarderAddrNotify at hst
  rw [hx] at hst
  cases hp : s.mapForwarderSession x with
  | none =>
    simp only [hp] at hst
    obtain ⟨rfl, rfl⟩ := Prod.mk.inj (Except.ok.inj hst)
    rw [others_none hp]
    exact ⟨hs, List.Perm.refl _, .inl ⟨rfl, fun _ => rfl⟩⟩
  | some p =>
    obtain ⟨S, hS, haddr, hin⟩ := hs.session x p hp
    obtain ⟨a, ix, q, hdel, hperm, hplaced, hindex⟩ := hs.delete p
    have hnot : p ∉ a.elems := fun hmem => ((mem_of_perm hperm).mp hmem).2 rfl
    simp only [hp, hS, hdel, Except.ok_bind] at hst
    rw [others_some hp]
    unfold closeSession at hst
    cases hh : S.mcpHandler with
    | none =>
      simp only [hh, Except.ok_bind] at hst
      obtain ⟨rfl, rfl⟩ := Prod.mk.inj (Except.ok.inj hst)
      have hout : p ∉ s.handlerSessionArray.elems := by
        rw [← hin, hh]
        simp
      refine ⟨hs.forget hp hperm hplaced hindex fun _ _ => rfl, hperm, .inl ⟨filter_ne_self hout, fun ready => ?_⟩⟩
      · by_cases hid : S.handleID ≠ 0
        · rw [if_pos hid]
          rfl
        · rw [if_neg hid]
          rfl
    | some h =>
      have hmem : p ∈ s.handlerSessionArray.elems := by
        rw [← hin, hh]
        rfl
      obtain rfl := haddr h hh
      have hlost : a.delete p ix = .ok (a, ix, none) := a.delete_none (hindex p hnot)
      simp only [hh, reportIf, Agent.onNetworkError, hp, hS, hlost, Except.ok_bind] at hst
      cases reports with
      | false =>
        obtain ⟨rfl, rfl⟩ := Prod.mk.inj (Except.ok.inj hst)
        exact ⟨hs.forget hp hperm hplaced hindex fun _ _ => rfl, hperm, .inr ⟨List.ne_nil_of_mem hmem, _, rfl⟩⟩
      | true =>
        obtain ⟨rfl, rfl⟩ := Prod.mk.inj (Except.ok.inj hst)
        refine ⟨hs.forget hp hperm hplaced hindex fun r hr => Function.update_of_ne hr _ _, hperm,
          .inr ⟨List.ne_nil_of_mem hmem, h.handleID, ?_⟩⟩
        unfold TypeArray.isEmpty
        rw [← hperm.isEmpty_eq]
        rfl

/-! ## The steps that keep the callbacks in turn -/

/-- A session that is known is lost only while one is connected. -/
def KnownLoss (s : Agent α) (h : ClientHandler α) : Prop :=
  (s.mapForwarderSession h.remoteAddr).isSome → s.handlerSessionArray.elems ≠ []

/-- The first session to connect is new, the last one to go is lost, and a send that fails neither
takes the only one away nor leaves one alone. -/
def Balanced (cfg : AgentConfig α) (s : Agent α) : AgentEvent α → Prop
  | .regMqClientAddrRsp _ => True
  | .addFowrarderAddrNotify _ => True
  | .delFowrarderAddrNotify notify reports =>
    s.handlerSessionArray.elems ≠ [] →
      s.others (cfg.ipAddr notify.mqForwarderAddr.port notify.mqForwarderAddr.strIpAddr) = [] → reports = true
  | .connectedNodify h fails =>
    if isScheduler cfg h.remoteAddr then fails = true → s.KnownLoss h
    else if fails then
      (s.others h.remoteAddr).length ≠ 1 ∧ (s.others h.remoteAddr = [] → s.handlerSessionArray.elems ≠ [])
    else s.others h.remoteAddr = [] → s.handlerSessionArray.elems = []
  | .networkError h => s.KnownLoss h

instance (s : Agent α) (h : ClientHandler α) : Decidable (s.KnownLoss h) :=
  inferInstanceAs (Decidable ((s.mapForwarderSession h.remoteAddr).isSome → s.handlerSessionArray.elems ≠ []))

instance (cfg : AgentConfig α) (s : Agent α) : DecidablePred (Balanced cfg s)
  | .regMqClientAddrRsp _ => isTrue trivial
  | .addFowrarderAddrNotify _ => isTrue trivial
  | .delFowrarderAddrNotify notify reports => inferInstanceAs (Decidable (s.handlerSessionArray.elems ≠ [] →
      s.others (cfg.ipAddr notify.mqForwarderAddr.port notify.mqForwarderAddr.strIpAddr) = [] → reports = true))
  | .connectedNodify h fails => inferInstanceAs (Decidable
      (if isScheduler cfg h.remoteAddr then fails = true → s.KnownLoss h
      else if fails then
        (s.others h.remoteAddr).length ≠ 1 ∧ (s.others h.remoteAddr = [] → s.handlerSessionArray.elems ≠ [])
      else s.others h.remoteAddr = [] → s.handlerSessionArray.elems = []))
  | .networkError h => inferInstanceAs (Decidable (s.KnownLoss h))

/-- The callbacks of a step go from what holds before it to what holds after it. -/
def InTurn (s s' : Agent α) (outs : List (AgentOut α)) : Prop :=
  follow (!s.handlerSessionArray.isEmpty) outs = some !s'.handlerSessionArray.isEmpty

omit [DecidableEq α] in
theorem isEmpty_of_perm {a : TypeArray} {l : List Ptr} (h : a.elems.Perm l) : a.isEmpty = l.isEmpty := h.isEmpty_eq

omit [DecidableEq α] in
theorem inTurn_quiet (harray : s'.handlerSessionArray = s.handlerSessionArray)
    (hquiet : ∀ ready, follow ready outs = some ready) : InTurn s s' outs := by
  unfold InTurn
  rw [hquiet, harray]

theorem Kept.networkError_step (hs : s.Kept) (hst : s.onNetworkError h = .ok (s', outs)) :
    s'.Kept ∧ (InTurn s s' outs ↔ s.KnownLoss h) := by
  obtain ⟨s₁, heq, hkept, hperm⟩ := hs.onNetworkError h
  obtain ⟨rfl, rfl⟩ := Prod.mk.inj (Except.ok.inj (hst.symm.trans heq))
  refine ⟨hkept, ?_⟩
  unfold InTurn KnownLoss
  rw [isEmpty_of_perm hperm]
  cases hp : s.mapForwarderSession h.remoteAddr with
  | none =>
    rw [others_none hp]
    simp [follow, TypeArray.isEmpty]
  | some p =>
    simp only [Option.isSome_some, if_true, forall_const]
    exact follow_lose (s.others_subset h.remoteAddr)

theorem Kept.del_step (hs : s.Kept) {notify : DelFowrarderAddrNotify} {reports : Bool}
    (hst : s.onDelFowrarderAddrNotify cfg notify reports = .ok (s', outs)) :
    s'.Kept ∧ (InTurn s s' outs ↔ Balanced cfg s (.delFowrarderAddrNotify notify reports)) := by
  obtain ⟨hkept, hperm, hcase⟩ := hs.onDelFowrarderAddrNotify hst rfl
  refine ⟨hkept, ?_⟩
  simp only [InTurn, Balanced]
  rw [isEmpty_of_perm hperm]
  rcases hcase with ⟨hsame, hquiet⟩ | ⟨hne, handleID, rfl⟩
  · rw [hquiet, hsame]
    exact ⟨fun _ hne hnil => absurd hnil hne, fun _ => rfl⟩
  · refine (follow_delete reports (s.others_subset _) hne).trans ?_
    exact ⟨fun h _ => h, fun h => h hne⟩

theorem onConnectedNodify_forwarder {fails : Bool} (hsched : ¬isScheduler cfg h.remoteAddr) :
    onConnectedNodify cfg h fails s = (do
      let r ← s.openSession cfg h
      let r' ← (r.1.inserted r.2).reportIf fails h
      .ok (r'.1, .regMqTopicReq h (r.1.inserted r.2).regMqTopicReq :: r'.2 ++
        if r'.1.handlerSessionArray.size = 1 then [.onReady] else [])) := by
  unfold onConnectedNodify
  rw [if_neg hsched]
  rfl

theorem Kept.connect_step (hs : s.Kept) {fails : Bool} (hst : onConnectedNodify cfg h fails s = .ok (s', outs)) :
    s'.Kept ∧ (InTurn s s' outs ↔ Balanced cfg s (.connectedNodify h fails)) := by
  simp only [Balanced]
  by_cases hsched : isScheduler cfg h.remoteAddr
  · unfold onConnectedNodify at hst
    rw [if_pos hsched] at hst ⊢
    obtain ⟨⟨s₁, outs₁⟩, hreport, heq⟩ := Except.bind_eq_ok.mp hst
    obtain ⟨rfl, rfl⟩ := Prod.mk.inj (Except.ok.inj heq)
    cases fails with
    | false =>
      obtain ⟨rfl, rfl⟩ := Prod.mk.inj (Except.ok.inj hreport)
      exact ⟨hs, fun _ => nofun, fun _ => rfl⟩
    | true =>
      obtain ⟨hkept, hiff⟩ := hs.networkError_step hreport
      exact ⟨hkept, fun hturn _ => hiff.mp hturn, fun hloss => hiff.mpr (hloss rfl)⟩
  · rw [if_neg hsched]
    rw [onConnectedNodify_forwarder hsched] at hst
    obtain ⟨⟨s₁, p⟩, hopen, hst⟩ := Except.bind_eq_ok.mp hst
    obtain ⟨⟨s₂, outs₂⟩, hreport, heq⟩ := Except.bind_eq_ok.mp hst
    obtain ⟨rfl, rfl⟩ := Prod.mk.inj (Except.ok.inj heq)
    obtain ⟨hkept, hp, hperm⟩ := hs.openSession hopen
    cases fails with
    | false =>
      obtain ⟨rfl, rfl⟩ := Prod.mk.inj (Except.ok.inj hreport)
      refine ⟨hkept, ?_⟩
      unfold InTurn
      rw [isEmpty_of_perm hperm]
      have hsize : (s₁.inserted p).handlerSessionArray.size = (s.others h.remoteAddr).length + 1 := hperm.length_eq
      simp only [hsize]
      exact follow_connect (s.others_subset h.remoteAddr)
    | true =>
      have hrest := hkept.others_inserted hp hperm
      obtain ⟨s₃, heq, hkept₃, hperm₃⟩ := hkept.onNetworkError h
      obtain ⟨rfl, rfl⟩ := Prod.mk.inj (Except.ok.inj (hreport.symm.trans heq))
      refine ⟨hkept₃, ?_⟩
      replace hperm₃ := hperm₃.trans hrest
      have hsize : s₂.handlerSessionArray.size = (s.others h.remoteAddr).length := hperm₃.length_eq
      unfold InTurn
      rw [isEmpty_of_perm hperm₃, hp, hsize, hrest.isEmpty_eq]
      exact follow_connect_fail (s.others_subset h.remoteAddr)

theorem Kept.step {e : AgentEvent α} (hs : s.Kept) (hst : s.step cfg e = .ok (s', outs)) :
    s'.Kept ∧ (InTurn s s' outs ↔ Balanced cfg s e) := by
  cases e with
  | regMqClientAddrRsp rsp =>
    obtain ⟨rfl, rfl⟩ := Prod.mk.inj (Except.ok.inj hst)
    obtain ⟨hkept, harray, hquiet⟩ := hs.onRegMqClientAddrRsp cfg rsp
    exact ⟨hkept, fun _ => trivial, fun _ => inTurn_quiet harray hquiet⟩
  | addFowrarderAddrNotify notify =>
    obtain ⟨rfl, rfl⟩ := Prod.mk.inj (Except.ok.inj hst)
    obtain ⟨hkept, harray, hquiet⟩ := hs.addMqForwarderAddr cfg notify.mqForwarderAddr
    exact ⟨hkept, fun _ => trivial, fun _ => inTurn_quiet harray hquiet⟩
  | delFowrarderAddrNotify notify reports => exact hs.del_step hst
  | connectedNodify h fails =>
    by_cases hmem : h ∈ s.connections
    · simp only [Agent.step, if_pos hmem] at hst
      cases hst
    · simp only [Agent.step, if_neg hmem] at hst
      exact Kept.connect_step (s := { s with connections := h :: s.connections }) hs hst
  | networkError h =>
    by_cases hmem : h ∈ s.connections
    · simp only [Agent.step, if_pos hmem] at hst
      exact hs.networkError_step hst
    · simp only [Agent.step, if_neg hmem] at hst
      cases hst

variable {param : InitMqClientSdkParam}

omit [DecidableEq α] in
theorem kept_start (param : InitMqClientSdkParam) : (start param : Agent α).Kept := arrayed_empty

theorem Kept.of_run {C : AgentHistory α → Agent α → AgentEvent α → Prop} {tr : AgentHistory α}
    (hr : Run (Agent.step cfg) (start param) C tr s) : s.Kept :=
  hr.invariant (fun _ s => s.Kept) (kept_start param) fun _ _ _ _ _ _ hs _ hst => (hs.step hst).1

/-- The callbacks alternate throughout a run, and tell whether a session is connected, exactly
when each step of the run is balanced. -/
theorem alternates_iff {tr : AgentHistory α} (hr : Run (Agent.step cfg) (start param) anyStep tr s) :
    Always Alternates tr s ↔ Each (fun _ s e => Balanced cfg s e) tr := by
  have hstart : Alternates [] (start param : Agent α) := rfl
  refine hr.always_iff hstart ?_
  intro tr s e s' outs hr _ hP _ hst
  rw [alternates_snoc hP]
  exact ((Kept.of_run hr).step hst).2

end

/-! ## Two forwarders, and one that connects twice -/

section

/-- Ports of 16 bits, without a sign. -/
def sockAddr : AgentConfig (UInt16 × Blob) where
  ipAddr port addr := (port.toUInt32.toUInt16, addr)
  getPort a := a.1.toUInt32.toInt32
  getIpAddr := Prod.snd
  strMqSchedulerServiceAddr := [48]
  mqSchedulerServicePort := 7000
  asserts := true

/-- One forwarder is lost and connects again, then both are lost, and one of them is taken out. -/
def comeAndGo : List (AgentEvent (UInt16 × Blob)) :=
  [.addFowrarderAddrNotify ⟨⟨9001, [49]⟩⟩, .addFowrarderAddrNotify ⟨⟨9002, [49]⟩⟩, .connectedNodify ⟨1, 9001, [49]⟩ false,
    .connectedNodify ⟨2, 9002, [49]⟩ false, .networkError ⟨1, 9001, [49]⟩, .connectedNodify ⟨3, 9001, [49]⟩ false,
    .networkError ⟨3, 9001, [49]⟩, .networkError ⟨2, 9002, [49]⟩, .delFowrarderAddrNotify ⟨⟨9001, [49]⟩⟩ false,
    .connectedNodify ⟨4, 9002, [49]⟩ false]

/-- Client 7, with topics 5 and 6. -/
def clientSeven : InitMqClientSdkParam := ⟨7, [5, 6]⟩

def AgentOut.callback {α : Type} : AgentOut α → Option Bool
  | .onReady => some true
  | .onAbnormal => some false
  | _ => none

theorem alternates_two : Always Alternates (trace (Agent.step sockAddr) (start clientSeven) comeAndGo)
      (final (Agent.step sockAddr) (start clientSeven) comeAndGo) ∧
    ((trace (Agent.step sockAddr) (start clientSeven) comeAndGo).flatMap Entry.outs).filterMap AgentOut.callback =
      [true, false, true] := by
  have hr : Run (Agent.step sockAddr) (start clientSeven) (fun _ s e => Balanced sockAddr s e) _ _ :=
    run_of_meets _ _ _ comeAndGo (by decide)
  exact ⟨(alternates_iff hr.any).mpr hr.each, by decide⟩

def oneForwarder : List (AgentEvent (UInt16 × Blob)) :=
  [.addFowrarderAddrNotify ⟨⟨9001, [49]⟩⟩, .connectedNodify ⟨1, 9001, [49]⟩ false]

/-- The forwarder's second connection makes the client ready once more. -/
theorem ready_twice :
    ¬∀ (cfg : AgentConfig (UInt16 × Blob)) (tr : AgentHistory (UInt16 × Blob)) (s : Agent (UInt16 × Blob)),
    Run (Agent.step cfg) (start clientSeven) anyStep tr s → Alternates tr s := by
  intro hall
  let evs : List (AgentEvent (UInt16 × Blob)) := oneForwarder ++ [.connectedNodify ⟨2, 9001, [49]⟩ false]
  have h := hall sockAddr _ _ (run_trace_any evs)
  cases h

end

end Agent

end VProtocol.Mq
