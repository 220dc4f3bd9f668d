import Mathlib.Data.Finset.Card
import Mathlib.Data.Finset.Range
import VProtocol.Client.Quorum

/-!
# One response for each request

Requests are counted by kind, address and session id there. As long as no send of
a broadcast fails, the requests that came are the responses that were sent and the
sessions that are live (`accounted`). A send failure breaks the count: the session
is ended with a response of its own, and the request handler responds once more.
-/

namespace VProtocol.Client

abbrev Tag := Kind × MsgAddr × UInt32

def askCount (tr : History) (r : Tag) : Nat := (tr.filterMap (·.ev.asks)).count r

def replies (outs : List Out) (r : Tag) : Nat := (outs.filterMap Out.reply).count r

def replyCount (tr : History) (r : Tag) : Nat := replies (tr.flatMap (·.outs)) r

/-- At no moment are there more responses than requests they can be for. -/
def AnsweredOnce (tr : History) : Prop := ∀ tr₁ tr₂, tr = tr₁ ++ tr₂ → ∀ r, replyCount tr₁ r ≤ askCount tr₁ r

/-- No send to an endorser fails while a request is handled. -/
def SendsSucceed (cfg : Config) (s : State) (e : Event) : Prop :=
  e.asks ≠ none → cfg.endorsePeerCount ≤ s.conn.peers.length → e.decodes cfg = true →
    ∀ i < cfg.endorsePeerCount, e.sendErr i = false

instance (cfg : Config) (s : State) (e : Event) : Decidable (SendsSucceed cfg s e) := by
  delta SendsSucceed; infer_instance

theorem replies_append (o₁ o₂ : List Out) (r : Tag) : replies (o₁ ++ o₂) r = replies o₁ r + replies o₂ r := by
  simp [replies]

theorem replies_cons (o : Out) (outs : List Out) (r : Tag) :
    replies (o :: outs) r = (if o.reply = some r then 1 else 0) + replies outs r := by
  unfold replies
  rw [List.filterMap_cons]
  cases h : o.reply with
  | none => simp
  | some r' =>
    dsimp only
    rw [List.count_cons, Nat.add_comm]
    by_cases hr : r' = r <;> simp [hr]

theorem replies_nil (r : Tag) : replies [] r = 0 := rfl

theorem replies_es {outs : List Out} (h : ∀ o ∈ outs, o.isUpper = false) (r : Tag) : replies outs r = 0 := by
  induction outs with
  | nil => rfl
  | cons o outs ih =>
    rw [replies_cons, ih fun o ho => h o (List.mem_cons_of_mem _ ho)]
    have := h o List.mem_cons_self
    cases o with
    | es => simp [Out.reply]
    | upper => cases this

theorem requests_isUpper {p rand msg} : ∀ {hs idx}, ∀ o ∈ requests p rand msg idx hs, o.isUpper = false := by
  intro hs
  induction hs with
  | nil => intro idx o ho; cases ho
  | cons h hs ih =>
    intro idx o ho
    rcases List.mem_cons.mp ho with rfl | ho
    · rfl
    · exact ih o ho

theorem verdicts_isUpper (h : McpHandler) (p : Ptr) (k : Kind) (es : UInt32) (cs : List Choice) :
    ∀ o ∈ verdicts h p k es cs, o.isUpper = false := by
  intro o ho
  obtain ⟨c, -, rfl⟩ := List.mem_map.mp ho
  rfl

/-! ## The requests that wait -/

def Core.tag (c : Core) (p : Ptr) : Option Tag := (c.session p).map EndorseSession.tag

def openCount (c : Core) (r : Tag) : Nat := ((Finset.range c.next).filter fun p => c.tag p = some r).card

section
variable {c c' : Core} {p : Ptr} {t r : Tag}

theorem tag_lt (hi : CoreInv c) (h : c.tag p = some t) : p < c.next := by
  obtain ⟨S, hS, -⟩ := Option.map_eq_some_iff.mp h
  exact hi.fresh _ _ (session_eq_some.mp hS)

theorem openCount_same (hi : CoreInv c) (hle : c.next ≤ c'.next) (h : ∀ q, c'.tag q = c.tag q) :
    openCount c' r = openCount c r := by
  unfold openCount
  congr 1
  ext q
  simp only [Finset.mem_filter, Finset.mem_range, h]
  exact ⟨fun hq => ⟨tag_lt hi hq.2, hq.2⟩, fun hq => ⟨Nat.lt_of_lt_of_le hq.1 hle, hq.2⟩⟩

theorem openCount_close (hi : CoreInv c) (hp : c.tag p = some t) (hn : c'.next = c.next)
    (h : ∀ q, c'.tag q = if q = p then none else c.tag q) :
    openCount c' r + (if t = r then 1 else 0) = openCount c r := by
  have herase : (Finset.range c'.next).filter (fun q => c'.tag q = some r) =
      ((Finset.range c.next).filter fun q => c.tag q = some r).erase p := by
    ext q
    simp only [Finset.mem_filter, Finset.mem_range, Finset.mem_erase, h, hn]
    by_cases hq : q = p <;> simp [hq]
  unfold openCount
  rw [herase]
  by_cases hr : t = r
  · have hmem : p ∈ (Finset.range c.next).filter fun q => c.tag q = some r := by
      rw [Finset.mem_filter, Finset.mem_range]
      exact ⟨tag_lt hi hp, hr ▸ hp⟩
    rw [if_pos hr, Finset.card_erase_add_one hmem]
  · have hmem : p ∉ (Finset.range c.next).filter fun q => c.tag q = some r := by
      rw [Finset.mem_filter, hp]
      intro hx
      obtain ⟨-, h⟩ := hx
      exact hr (Option.some.inj h)
    rw [if_neg hr, Finset.erase_eq_of_notMem hmem, Nat.add_zero]

theorem openCount_open (hi : CoreInv c) (hn : c'.next = c.next + 1)
    (h : ∀ q, c'.tag q = if q = c.next then some t else c.tag q) :
    openCount c' r = openCount c r + if t = r then 1 else 0 := by
  have hnext : c.tag c.next = none := by
    unfold Core.tag; rw [session_none hi.heap_next]; rfl
  have hmem : c.next ∉ (Finset.range c.next).filter fun q => c.tag q = some r := by
    simp
  unfold openCount
  by_cases hr : t = r
  · rw [if_pos hr, ← Finset.card_insert_of_notMem hmem]
    congr 1
    ext q
    simp only [Finset.mem_filter, Finset.mem_range, Finset.mem_insert, h, hn]
    by_cases hq : q = c.next
    · simp [hq, hr]
    · rw [if_neg hq]
      exact ⟨fun hq' => .inr ⟨tag_lt hi hq'.2, hq'.2⟩,
        fun hq' => ⟨Nat.lt_succ_of_lt (hq'.resolve_left hq).1, (hq'.resolve_left hq).2⟩⟩
  · rw [if_neg hr, Nat.add_zero]
    congr 1
    ext q
    simp only [Finset.mem_filter, Finset.mem_range, h, hn]
    by_cases hq : q = c.next
    · simp [hq, hr, hnext]
    · rw [if_neg hq]
      exact ⟨fun hq' => ⟨tag_lt hi hq'.2, hq'.2⟩, fun hq' => ⟨Nat.lt_succ_of_lt hq'.1, hq'.2⟩⟩

end

/-! ## The account of a step -/

section
variable {cfg : Config} {s s' : State} {e : Event} {outs : List Out} {r : Tag}

theorem Ended.count {p S} (h : Ended s p S s') (hi : CoreInv s.core) :
    openCount s'.core r + (if S.tag = r then 1 else 0) = openCount s.core r := by
  have hp : s.core.tag p = some S.tag := by
    obtain ⟨hS, -⟩ := h
    rw [Core.tag, session_eq_some.mpr hS]; rfl
  refine openCount_close hi hp ?_ fun q => ?_
  · obtain ⟨-, -⟩ := h; rfl
  · unfold Core.tag
    rw [h.session]
    split <;> rfl

theorem Ended.account {p S o} (h : Ended s p S s') (hi : CoreInv s.core) (ho : o.reply = some S.tag) :
    replies [o] r + openCount s'.core r = openCount s.core r := by
  rw [replies_cons, replies_nil, ho, ← h.count hi]
  simp only [Option.some.injEq]
  omega

theorem SingleEnded.count {p S} (h : SingleEnded s p S s') (hi : CoreInv s.core) :
    openCount s'.core r = openCount s.core r := by
  obtain ⟨hS, -⟩ := h
  refine openCount_same hi (Nat.le_refl _) fun q => ?_
  unfold Core.tag
  rw [finishSingle_session hS]

theorem Losses.account (h : Losses s outs s') (hi : CoreInv s.core) :
    replies outs r + openCount s'.core r = openCount s.core r := by
  induction h with
  | nil => rw [replies_nil, Nat.zero_add]
  | endorse hend _ ih =>
    have h1 := hend.account (r := r) hi (onResponse_reply _ networkErrorType)
    rw [replies_cons, replies_nil] at h1
    rw [replies_cons, ← h1, ← ih (hend.coreInv hi)]
    omega
  | single hend _ ih =>
    rw [replies_cons, onResponseSingle_reply, if_neg (by simp), Nat.zero_add, ih (hend.coreInv hi), hend.count hi]

theorem Aside.account (h : Aside cfg s e s' outs) (hi : CoreInv s.core) :
    replies outs r + openCount s'.core r = openCount s.core r := by
  cases h with
  | quiet => rw [replies_nil, Nat.zero_add]
  | refused _ _ ho => rw [replies_cons, replies_nil, ho, if_neg (by simp)]; exact Nat.zero_add _
  | queried =>
    rw [replies_es (by simp [Out.isUpper]), Nat.zero_add]
    apply openCount_same hi (Nat.le_succ _)
    intro q
    unfold Core.tag
    exact congrArg (Option.map EndorseSession.tag) ((session_congr rfl).trans (openSingle_session hi _))
  | fired => rw [replies_nil, Nat.zero_add]; exact openCount_same hi (Nat.le_refl _) fun _ => rfl
  | ended hend _ ho =>
    rw [replies_cons, replies_nil, ho, if_neg (by simp), hend.count hi]; exact Nat.zero_add _

theorem Move.account (h : Move cfg s e s' outs) (hi : CoreInv s.core) (hc : SendsSucceed cfg s e) :
    replies outs r + openCount s'.core r = openCount s.core r + if e.asks = some r then 1 else 0 := by
  have hno : e.asks = none → (if e.asks = some r then 1 else 0) = 0 := fun h => if_neg (by rw [h]; simp)
  cases h with
  | aside he _ _ h => rw [h.account hi, hno he, Nat.add_zero]
  | refused he _ _ ho =>
    rw [replies_cons, replies_nil, he, ho]
    omega
  | aborted he _ hn hd hlen hf =>
    have := hc (by rw [he]; simp) hn hd _ hlen
    rw [hf.1] at this; cases this
  | @opened r' S _ _ _ _ _ he ht =>
    rw [replies_es requests_isUpper, Nat.zero_add, he]
    have htag : ∀ q, (s.core.openEndorse S).tag q = if q = s.core.next then some S.tag else s.core.tag q := by
      intro q
      unfold Core.tag
      rw [openEndorse_session]
      split <;> rfl
    rw [openCount_open hi rfl htag, ht]
    simp only [Option.some.injEq]
  | kept ha _ hS =>
    rw [replies_es (verdicts_isUpper _ _ _ _ _), Nat.zero_add, hno (asks_of_answer ha), Nat.add_zero]
    refine openCount_same hi (Nat.le_refl _) fun q => ?_
    unfold Core.tag
    rw [put_session]
    split
    · rename_i hq
      rw [hq, session_eq_some.mpr hS]; rfl
    · rfl
  | failed ha _ _ _ _ hend =>
    rw [replies_append, replies_es (verdicts_isUpper _ _ _ _ _), Nat.zero_add,
      hend.account hi (onResponse_reply _ _), hno (asks_of_answer ha), Nat.add_zero]
  | orphaned he =>
    rw [replies_nil, Nat.zero_add, hno (asks_of_submitRsp he), Nat.add_zero]
    exact openCount_same hi (Nat.le_refl _) fun _ => rfl
  | submitted he _ _ hw hend _ ho =>
    rw [hend.account (hw.coreInv hi) ho, hno (asks_of_submitRsp he), Nat.add_zero]
    refine openCount_same hi ?_ fun q => ?_
    · cases hw with
      | none => exact Nat.le_refl _
      | some => exact Nat.le_succ _
    · unfold Core.tag; rw [hw.session hi]
  | timedOut he _ hend =>
    rw [hend.account hi (onResponse_reply _ _), hno (by rw [he]; rfl), Nat.add_zero]
  | lost he _ _ hl =>
    rw [hno (by rw [he]; rfl), Nat.add_zero]
    exact hl.account hi

variable {tr : History}

theorem accounted (h : Run (step cfg) {} (fun _ s e => SendsSucceed cfg s e) tr s) (r : Tag) :
    replyCount tr r + openCount s.core r = askCount tr r := by
  apply h.invariant (fun tr s => replyCount tr r + openCount s.core r = askCount tr r) rfl
  intro tr s e s' outs hr ih hc hst
  have hacc := (run_move hr hst).account (r := r) (run_coreInv hr) hc
  have h1 : replyCount (tr ++ [⟨s, e, outs⟩]) r = replyCount tr r + replies outs r := by
    simp [replyCount, replies_append]
  have h2 : askCount (tr ++ [⟨s, e, outs⟩]) r = askCount tr r + if e.asks = some r then 1 else 0 := by
    unfold askCount
    rw [List.filterMap_append, List.count_append]
    congr 1
    cases ha : e.asks with
    | none => simp [ha]
    | some r' => by_cases hrr : r' = r <;> simp [ha, hrr]
  rw [h1, h2]
  omega

/-- Exactly one response for each request, for runs in which no send of a broadcast fails. -/
theorem answered_once (h : Run (step cfg) {} (fun _ s e => SendsSucceed cfg s e) tr s) : AnsweredOnce tr := by
  intro tr₁ tr₂ htr r
  obtain ⟨s₁, hr⟩ := h.upTo htr
  rw [← accounted hr r]
  exact Nat.le_add_right _ _

end

/-- A send that fails is answered twice, and the first answer of the propose path goes
to whatever address the new session's memory holds. -/
theorem answered_twice : ¬∀ (cfg : Config) (tr : History) (s : State),
    Run (step cfg) {} anyStep tr s → AnsweredOnce tr := by
  intro hall
  let evs := connectBoth ++
    [registReq 1 { sendErr := fun i => i == 1 }, proposeReq 2 { sendErr := fun i => i == 1, raw := { srcMsgAddr := 9 } }]
  have h := hall twoPeers _ _ (run_trace_any evs) _ [] (List.append_nil _).symm
  have htwice : replyCount (trace (step twoPeers) {} evs) (.regist, 5, 1) = 2 ∧
      replyCount (trace (step twoPeers) {} evs) (.propose, 9, 0) = 1 := by decide
  have hask : askCount (trace (step twoPeers) {} evs) (.regist, 5, 1) = 1 := by decide
  have := h (.regist, 5, 1)
  rw [htwice.1, hask] at this
  exact absurd this (by decide)

theorem answered_once_two : ∃ tr s, Run (step twoPeers) {} (fun _ s e => SendsSucceed twoPeers s e) tr s ∧
    AnsweredOnce tr ∧ replyCount tr (.regist, 5, 1) = 1 ∧ replyCount tr (.propose, 5, 2) = 1 := by
  let evs := connectBoth ++ [registReq 1 {}, proposeReq 2 {}, registFailed firstPeer 0 systemErrorType, .timer 1]
  have hr := run_of_meets (step twoPeers) {} (fun _ s e => SendsSucceed twoPeers s e) evs (by decide)
  exact ⟨_, _, hr, answered_once hr, by decide, by decide⟩

end VProtocol.Client
