import VProtocol.Client.Links
import VProtocol.Client.Quorum

/-!
# Verdicts

The Submits and Cancels a session gets are a function of its kind and of what it
saw of the answers, `play`. A session that has reached its quorum stays in its map
until the submit answer comes, so it sends again on whatever arrives in between:
`one_verdict_iff` and `names_selected_iff` say in which runs there is no second
verdict, and none with an endorser session id that nobody returned.
-/

namespace VProtocol.Client

/-! ## What a session sees and sends -/

/-- The answer `o` makes the service send something. -/
def Seen.sends (N : Nat) (k : Kind) (n : UInt32) (o : Seen) : Prop :=
  if o.code = okType then
    if o.same then N ≤ (n + 1).toNat ∧ o.env.submitErr = false
    else if k = .propose ∧ N ≤ n.toNat then o.env.submitErr = false
    else o.env.cancelErr = false
  else o.code ≠ networkErrorType ∧ o.env.cancelErr = false

instance (N k n o) : Decidable (Seen.sends N k n o) := by
  delta Seen.sends; infer_instance

theorem cancelled_eq_nil {code : Int} {env : AnswerEnv} :
    cancelled code env = [] ↔ ¬(code ≠ networkErrorType ∧ env.cancelErr = false) := by
  unfold cancelled
  by_cases hc : code = networkErrorType <;> cases env.cancelErr <;> simp [hc]

theorem judge_eq_nil {N : Nat} {k n o} : (judge N k n o).1 = [] ↔ ¬o.sends N k n := by
  unfold judge Seen.sends
  split
  · split
    · split
      · rename_i hN
        cases o.env.submitErr <;> simp [hN, -UInt32.toNat_add]
      · rename_i hN; simp [hN, -UInt32.toNat_add]
    · split
      · cases o.env.submitErr <;> simp
      · have hsys : systemErrorType ≠ networkErrorType := by decide
        simp only [cancelled_eq_nil, hsys, ne_eq, not_false_eq_true, true_and]
  · exact cancelled_eq_nil

def Out.choice (p : Ptr) : Out → Option Choice
  | .es _ q (.submitReq _ _) => if q = p then some .submit else none
  | .es _ q (.cancelReq _ _) => if q = p then some .cancel else none
  | _ => none

def Entry.seen (p : Ptr) (en : Entry State Event Out) : Option Seen :=
  match en.ev.answer with
  | none => none
  | some a =>
    if en.pre.core.mapEndorse a.kind a.cltSessionID = some p then (en.pre.core.session p).map (·.sees a) else none

def seenBy (tr : History) (p : Ptr) : List Seen := tr.filterMap (Entry.seen p)

def verdictsOf (tr : History) (p : Ptr) : List Choice := (tr.flatMap (·.outs)).filterMap (Out.choice p)

theorem seenBy_append (tr : History) (en : Entry State Event Out) (p : Ptr) :
    seenBy (tr ++ [en]) p = seenBy tr p ++ (Entry.seen p en).toList := by
  unfold seenBy
  rw [List.filterMap_append]
  cases h : Entry.seen p en <;> simp [h]

theorem verdictsOf_append (tr : History) (en : Entry State Event Out) (p : Ptr) :
    verdictsOf (tr ++ [en]) p = verdictsOf tr p ++ en.outs.filterMap (Out.choice p) := by
  simp [verdictsOf]

theorem choice_eq_some {o : Out} {p c} (h : o.choice p = some c) : ∃ hd m es, o = .es hd p m ∧ m.verdict = some es := by
  unfold Out.choice at h
  split at h
  · split at h
    · rename_i hp; subst hp; exact ⟨_, _, _, rfl, rfl⟩
    · cases h
  · split at h
    · rename_i hp; subst hp; exact ⟨_, _, _, rfl, rfl⟩
    · cases h
  · cases h

theorem choice_of_isUpper {o : Out} (h : o.isUpper = true) (p : Ptr) : o.choice p = none := by
  cases o with
  | es => cases h
  | upper => rfl

theorem verdicts_choice (h : McpHandler) (p q : Ptr) (k : Kind) (es : UInt32) (cs : List Choice) :
    (verdicts h q k es cs).filterMap (Out.choice p) = if q = p then cs else [] := by
  induction cs with
  | nil => simp [verdicts]
  | cons c cs ih =>
    unfold verdicts at ih ⊢
    rw [List.map_cons, List.filterMap_cons]
    by_cases hq : q = p
    · cases c <;> simpa [Choice.msg, Out.choice, hq] using ih
    · cases c <;> simpa [Choice.msg, Out.choice, hq] using ih

theorem seen_eq_some {p : Ptr} {en : Entry State Event Out} {o} (h : Entry.seen p en = some o) :
    ∃ a S, en.ev.answer = some a ∧ en.pre.core.mapEndorse a.kind a.cltSessionID = some p ∧
      en.pre.core.session p = some S ∧ o = S.sees a := by
  unfold Entry.seen at h
  split at h
  · cases h
  · rename_i a ha
    split at h
    · rename_i hm
      obtain ⟨S, hS, rfl⟩ := Option.map_eq_some_iff.mp h
      exact ⟨a, S, ha, hm, hS, rfl⟩
    · cases h

theorem seen_of {s : State} {e : Event} {outs a p S} (ha : e.answer = some a)
    (hm : s.core.mapEndorse a.kind a.cltSessionID = some p) (hS : s.core.session p = some S) :
    Entry.seen p ⟨s, e, outs⟩ = some (S.sees a) := by
  unfold Entry.seen
  simp only [ha, if_pos hm, hS, Option.map_some]

section
variable {cfg : Config} {s s' : State} {e : Event} {outs : List Out}

theorem Move.answered (h : Move cfg s e s' outs) {a p S} (ha : e.answer = some a)
    (hm : s.core.mapEndorse a.kind a.cltSessionID = some p) (hS : s.core.session p = some S) :
    ∃ hd cs r, judge cfg.endorsePeerCount a.kind S.succeedRspNum (S.sees a) = (cs, r) ∧
      (cs ≠ [] → s.submitHandler S = .ok hd) ∧
      ((r = none ∧ outs = verdicts hd p a.kind (S.counted a hd).esSessionID cs ∧
          s'.core.session p = some (S.counted a hd) ∧ s.submitHandler S = .ok hd) ∨
        (∃ code, r = some code ∧ outs = verdicts hd p a.kind S.esSessionID cs ++ [onResponse S code] ∧
          s'.core.session p = none)) := by
  have hno : e.answer = none → False := by intro h; rw [h] at ha; cases ha
  cases h with
  | aside _ h =>
    have := h a ha
    rw [hm] at this; cases this
  | refused he => exact (hno (answer_of_asks he)).elim
  | aborted he => exact (hno (answer_of_asks he)).elim
  | opened he => exact (hno (answer_of_asks he)).elim
  | kept ha' hm' hS' hh hj =>
    rw [ha] at ha'
    obtain rfl := Option.some.inj ha'
    obtain rfl := Option.some.inj (hm.symm.trans hm')
    obtain rfl := Option.some.inj (hS.symm.trans (session_eq_some.mpr hS'))
    exact ⟨_, _, _, hj, fun _ => hh, .inl ⟨rfl, rfl, by simp only [put_session, if_true], hh⟩⟩
  | failed ha' hm' hS' hh hj hend =>
    rw [ha] at ha'
    obtain rfl := Option.some.inj ha'
    obtain rfl := Option.some.inj (hm.symm.trans hm')
    obtain rfl := Option.some.inj (hS.symm.trans (session_eq_some.mpr hS'))
    exact ⟨_, _, _, hj, hh, .inr ⟨_, rfl, rfl, by rw [hend.session, if_pos rfl]⟩⟩
  | orphaned he => exact (hno (answer_of_submitRsp he)).elim
  | submitted he => exact (hno (answer_of_submitRsp he)).elim
  | timedOut he => exact (hno (by rw [he]; rfl)).elim
  | lost he => exact (hno (by rw [he]; rfl)).elim

theorem Move.choices_nil (h : Move cfg s e s' outs) {p} (hp : Entry.seen p ⟨s, e, outs⟩ = none) :
    outs.filterMap (Out.choice p) = [] := by
  rw [List.filterMap_eq_nil_iff]
  intro o ho
  cases hc : o.choice p with
  | none => rfl
  | some c =>
    obtain ⟨hd, m, es, rfl, hv⟩ := choice_eq_some hc
    rcases h.es ho with ⟨-, h⟩ | ⟨r, -, -, -, h⟩ | ⟨a, S, cs, r, c', es', ha, hm, hS, -⟩
    · rw [hv] at h; cases h
    · rw [request_of_verdict hv] at h; cases h
    · rw [seen_of ha hm (session_eq_some.mpr hS)] at hp; cases hp

theorem Move.choices (h : Move cfg s e s' outs) {a p S} (ha : e.answer = some a)
    (hm : s.core.mapEndorse a.kind a.cltSessionID = some p) (hS : s.core.session p = some S) :
    outs.filterMap (Out.choice p) = (judge cfg.endorsePeerCount a.kind S.succeedRspNum (S.sees a)).1 := by
  obtain ⟨hd, cs, r, hj, -, ⟨rfl, rfl, -⟩ | ⟨code, rfl, rfl, -⟩⟩ := h.answered ha hm hS
  · rw [hj, verdicts_choice, if_pos rfl]
  · rw [hj, List.filterMap_append, verdicts_choice, if_pos rfl]
    simp [choice_of_isUpper (onResponse_isUpper S code) p]

end

/-! ## The decisions as a function of what was seen -/

/-- The counter of a session, while it lives, and its verdicts so far. -/
abbrev Progress := Option UInt32 × List Choice

def playOne (N : Nat) (k : Kind) (st : Progress) (o : Seen) : Progress :=
  match st.1 with
  | none => st
  | some n => (if (judge N k n o).2 = none then some (n + 1) else none, st.2 ++ (judge N k n o).1)

def play (N : Nat) (k : Kind) (os : List Seen) : Progress := os.foldl (playOne N k) (some 0, [])

theorem play_append (N : Nat) (k : Kind) (os : List Seen) (o : Seen) :
    play N k (os ++ [o]) = playOne N k (play N k os) o := by
  simp [play]

/-- Once the quorum is full, nothing is sent any more. -/
inductive Calm (N : Nat) (k : Kind) : List Seen → Prop
  | nil : Calm N k []
  | snoc {os o} : Calm N k os → (∀ n, (play N k os).1 = some n → N ≤ n.toNat → ¬o.sends N k n) → Calm N k (os ++ [o])

theorem judge_none_eq {N : Nat} {k n o} (h : (judge N k n o).2 = none) :
    (judge N k n o).1 = if N ≤ (n + 1).toNat then [.submit] else [] := by
  obtain ⟨cs, hj⟩ : ∃ cs, judge N k n o = (cs, none) := ⟨_, Prod.ext rfl h⟩
  obtain ⟨hc, hs⟩ := judge_none hj
  rw [judge_counted hc hs] at h ⊢
  split
  · rename_i hN
    rw [if_pos hN] at h
    split at h
    · cases h
    · rename_i hse; rw [if_neg hse]
  · rfl

theorem cancelled_length (code : Int) (env : AnswerEnv) : (cancelled code env).length ≤ 1 := by
  unfold cancelled; split <;> simp

theorem judge_length {N : Nat} {k n o} (h : n.toNat < N) : (judge N k n o).1.length ≤ 1 := by
  unfold judge
  rw [if_neg (show ¬(k = .propose ∧ N ≤ n.toNat) by omega)]
  split
  · split
    · split
      · split <;> simp
      · simp
    · exact cancelled_length _ _
  · exact cancelled_length _ _

theorem Calm.play_spec {N : Nat} {k os} (hpos : 0 < N) (hlt : N < 2 ^ 31) (h : Calm N k os) :
    (play N k os).2.length ≤ 1 ∧ ∀ n, (play N k os).1 = some n →
      n.toNat ≤ N ∧ (play N k os).2 = if N ≤ n.toNat then [.submit] else [] := by
  induction h with
  | nil =>
    refine ⟨by simp [play], fun n hn => ?_⟩
    obtain rfl := Option.some.inj hn
    simp [play, Nat.not_le.mpr hpos]
  | @snoc os o _ hcalm ih =>
    rw [play_append]
    cases hp : (play N k os).1 with
    | none =>
      have : playOne N k (play N k os) o = play N k os := by unfold playOne; rw [hp]
      rw [this]
      exact ⟨ih.1, fun n hn => by rw [hp] at hn; cases hn⟩
    | some n =>
      obtain ⟨hle, heq⟩ := ih.2 n hp
      have hstep : playOne N k (play N k os) o =
          (if (judge N k n o).2 = none then some (n + 1) else none, (play N k os).2 ++ (judge N k n o).1) := by
        unfold playOne; rw [hp]
      rw [hstep, heq]
      have hnum : (n + 1).toNat = n.toNat + 1 := by
        rw [UInt32.toNat_add, UInt32.toNat_one]; omega
      by_cases hN : N ≤ n.toNat
      · have hnil := judge_eq_nil.mpr (hcalm n hp hN)
        rw [if_pos hN, hnil]
        refine ⟨by simp, fun m hm => ?_⟩
        dsimp only at hm
        split at hm
        · rename_i hj
          have := judge_none_eq hj
          rw [hnil, if_pos (by omega)] at this
          cases this
        · cases hm
      · rw [if_neg hN]
        refine ⟨by simpa using judge_length (by omega), fun m hm => ?_⟩
        dsimp only at hm ⊢
        split at hm
        · rename_i hj
          obtain rfl := Option.some.inj hm
          rw [judge_none_eq hj]
          exact ⟨by omega, rfl⟩
        · cases hm

theorem judge_kind {N : Nat} {n o} (h : N ≤ n.toNat → ¬o.sends N .regist n ∧ ¬o.sends N .propose n) :
    (judge N .regist n o).1 = (judge N .propose n o).1 ∧
      ((judge N .regist n o).2 = none ↔ (judge N .propose n o).2 = none) := by
  by_cases hc : o.code = okType
  · by_cases hs : o.same = true
    · rw [judge_counted hc hs, judge_counted hc hs]; exact ⟨rfl, Iff.rfl⟩
    · have hs : o.same = false := by simpa using hs
      rw [judge_mismatch hc hs, judge_mismatch hc hs]
      by_cases hN : N ≤ n.toNat
      · obtain ⟨h1, h2⟩ := h hN
        have h1 := judge_eq_nil.mpr h1
        have h2 := judge_eq_nil.mpr h2
        rw [judge_mismatch hc hs] at h1 h2
        rw [h1, h2]
        refine ⟨rfl, ?_⟩
        rw [if_neg (fun h => nomatch h.1)]
        split
        · split <;> simp
        · simp
      · rw [if_neg (fun h => hN h.2), if_neg (fun h => hN h.2)]; exact ⟨rfl, Iff.rfl⟩
  · rw [judge_error hc, judge_error hc]; exact ⟨rfl, Iff.rfl⟩

theorem Calm.of_append {N : Nat} {k os o} (h : Calm N k (os ++ [o])) :
    Calm N k os ∧ ∀ n, (play N k os).1 = some n → N ≤ n.toNat → ¬o.sends N k n := by
  generalize hl : os ++ [o] = l at h
  cases h with
  | nil => simp at hl
  | snoc h1 h2 =>
    obtain ⟨rfl, h⟩ := List.append_inj' hl rfl
    obtain rfl := List.singleton_inj.mp h
    exact ⟨h1, h2⟩

theorem Calm.play_kind {N : Nat} {os} (hr : Calm N .regist os) (hp : Calm N .propose os) :
    play N .regist os = play N .propose os := by
  induction hr with
  | nil => rfl
  | snoc _ hr ih =>
    obtain ⟨hp₁, hp₂⟩ := hp.of_append
    have heq := ih hp₁
    rw [play_append, play_append, heq]
    unfold playOne
    split
    · rfl
    · rename_i n hn
      rw [heq] at hr
      obtain ⟨h1, h2⟩ := judge_kind fun hN => ⟨hr n hn hN, hp₂ n hn hN⟩
      rw [h1]
      simp only [h2]

/-! ## One verdict -/

/-- An answer for a session whose quorum is full makes nothing be sent. -/
def OnceJudged (cfg : Config) (s : State) (e : Event) : Prop :=
  ∀ a ∈ e.answer, ∀ p ∈ s.core.mapEndorse a.kind a.cltSessionID, ∀ S ∈ s.core.session p,
    cfg.endorsePeerCount ≤ S.succeedRspNum.toNat → ¬(S.sees a).sends cfg.endorsePeerCount a.kind S.succeedRspNum

instance (cfg : Config) (s : State) (e : Event) : Decidable (OnceJudged cfg s e) := by
  delta OnceJudged; infer_instance

def OneVerdict (tr : History) : Prop := ∀ p, (verdictsOf tr p).length ≤ 1

/-- A registration of the one history and a proposal of the other that saw the same got the same verdicts. -/
def SameChoices (tr tr' : History) : Prop :=
  ∀ p q h h' id id', Sent tr h p .regist id → Sent tr' h' q .propose id' → seenBy tr p = seenBy tr' q →
    verdictsOf tr p = verdictsOf tr' q

structure Tracked (cfg : Config) (tr : History) (s : State) (p : Ptr) (k : Kind) : Prop where
  fresh : s.core.next ≤ p → seenBy tr p = [] ∧ ∀ h k id, ¬Sent tr h p k id
  kind : ∀ h k' id, Sent tr h p k' id → k' = k
  verdicts : verdictsOf tr p = (play cfg.endorsePeerCount k (seenBy tr p)).2
  count : ∀ S, s.core.session p = some S →
    S.kind = k ∧ (play cfg.endorsePeerCount k (seenBy tr p)).1 = some S.succeedRspNum
  calm : (∀ en ∈ tr, OnceJudged cfg en.pre en.ev) → Calm cfg.endorsePeerCount k (seenBy tr p)

section
variable {cfg : Config} {C : History → State → Event → Prop} {tr : History} {s s' : State} {e : Event} {outs : List Out}

theorem Tracked.idle {p k} (h : Tracked cfg tr s p k) (hr : Run (step cfg) {} C tr s) (hm : Move cfg s e s' outs)
    (hs : Entry.seen p ⟨s, e, outs⟩ = none) : ∃ k, Tracked cfg (tr ++ [⟨s, e, outs⟩]) s' p k := by
  have hi := run_coreInv hr
  have hseen : seenBy (tr ++ [⟨s, e, outs⟩]) p = seenBy tr p := by rw [seenBy_append, hs]; simp
  have hverd : verdictsOf (tr ++ [⟨s, e, outs⟩]) p = verdictsOf tr p := by
    rw [verdictsOf_append, hm.choices_nil hs]; simp
  have hcalm : (∀ en ∈ tr ++ [⟨s, e, outs⟩], OnceJudged cfg en.pre en.ev) → ∀ en ∈ tr, OnceJudged cfg en.pre en.ev :=
    fun h en hen => h en (List.mem_append_left _ hen)
  by_cases hp : p = s.core.next
  · -- the session is opened in this step, if it is; nothing was seen of it
    obtain ⟨hnil, hnone⟩ := h.fresh (Nat.le_of_eq hp.symm)
    have hv := h.verdicts
    rw [hnil] at hv
    obtain ⟨k', hk'⟩ : ∃ k', ∀ r, e.asks = some r → r.1 = k' := by
      cases e.asks with
      | none => exact ⟨k, fun _ h => by cases h⟩
      | some r => exact ⟨r.1, fun _ h => by rw [Option.some.inj h]⟩
    refine ⟨k', ⟨fun hle => ⟨hseen.trans hnil, fun h₀ k₀ id hsent => ?_⟩, fun h₀ k₀ id hsent => ?_, ?_, fun S hS => ?_,
      fun _ => by rw [hseen, hnil]; exact .nil⟩⟩
    · rcases sent_append hm hsent with hsent | ⟨-, hn, -⟩
      · exact hnone _ _ _ hsent
      · rw [hn, hp] at hle
        exact Nat.not_succ_le_self _ hle
    · rcases sent_append hm hsent with hsent | ⟨-, -, -, r, hask, hrk⟩
      · exact (hnone _ _ _ hsent).elim
      · rw [← hrk, hk' r hask]
    · rw [hverd, hseen, hnil, hv]; rfl
    · rw [hseen, hnil]
      rcases hm.session hi hS with ⟨hS, -⟩ | ⟨-, hask, -, h0, -⟩ | ⟨a, S₀, hd, cs, ha, hma, hS₀, -⟩
      · rw [hp, session_none hi.heap_next] at hS; cases hS
      · exact ⟨hk' _ hask, by rw [h0]; rfl⟩
      · rw [hp, session_none hi.heap_next] at hS₀; cases hS₀
  · refine ⟨k, ⟨fun hle => ?_, fun h₀ k₀ id hsent => ?_, ?_, fun S hS => ?_, fun hc => ?_⟩⟩
    · obtain ⟨h1, h2⟩ := h.fresh (Nat.le_trans hm.next_le hle)
      refine ⟨hseen.trans h1, fun h₀ k₀ id hsent => ?_⟩
      rcases sent_append hm hsent with hsent | ⟨h, -⟩
      · exact h2 _ _ _ hsent
      · exact hp h
    · rcases sent_append hm hsent with hsent | ⟨h, -⟩
      · exact h.kind _ _ _ hsent
      · exact (hp h).elim
    · rw [hverd, hseen]; exact h.verdicts
    · rw [hseen]
      rcases hm.session hi hS with ⟨hS, -⟩ | ⟨h, -⟩ | ⟨a, S₀, hd, cs, ha, hma, hS₀, -⟩
      · exact h.count S hS
      · exact (hp h).elim
      · rw [seen_of ha hma hS₀] at hs; cases hs
    · rw [hseen]; exact h.calm (hcalm hc)

theorem Tracked.answered {p k a S} (h : Tracked cfg tr s p k) (hr : Run (step cfg) {} C tr s)
    (hm : Move cfg s e s' outs) (ha : e.answer = some a) (hma : s.core.mapEndorse a.kind a.cltSessionID = some p)
    (hS : s.core.session p = some S) : Tracked cfg (tr ++ [⟨s, e, outs⟩]) s' p k := by
  have hi := run_coreInv hr
  obtain ⟨S₁, hS₁, hk, -⟩ := hi.endorse _ _ _ hma
  obtain rfl := Option.some.inj (hS.symm.trans (session_eq_some.mpr hS₁))
  obtain ⟨hSk, hcount⟩ := h.count S hS
  have hka : a.kind = k := hk.symm.trans hSk
  have hlt : p < s.core.next := hi.fresh _ _ hS₁
  have hseen : seenBy (tr ++ [⟨s, e, outs⟩]) p = seenBy tr p ++ [S.sees a] := by
    rw [seenBy_append, seen_of ha hma hS]; rfl
  have hsent : ∀ {h₀ k₀ id}, Sent (tr ++ [⟨s, e, outs⟩]) h₀ p k₀ id → Sent tr h₀ p k₀ id := by
    intro h₀ k₀ id hsent
    rcases sent_append hm hsent with hsent | ⟨hp, -⟩
    · exact hsent
    · exact (Nat.ne_of_lt hlt hp).elim
  refine ⟨fun hle => ?_, fun h₀ k₀ id hs => h.kind _ _ _ (hsent hs), ?_, fun S' hS' => ?_, fun hc => ?_⟩
  · exact absurd (Nat.lt_of_lt_of_le hlt hm.next_le) (Nat.not_lt.mpr hle)
  · rw [verdictsOf_append, h.verdicts, hm.choices ha hma hS, hseen, play_append, playOne, hcount, hka]
  · rw [hseen, play_append, playOne, hcount]
    obtain ⟨hd, cs, r, hj, -, ⟨rfl, -, hS₂, -⟩ | ⟨code, -, -, hS₂⟩⟩ := hm.answered ha hma hS
    · obtain rfl := Option.some.inj (hS₂.symm.trans hS')
      refine ⟨hSk, ?_⟩
      rw [hka] at hj
      simp only [hj, if_true]
      rfl
    · rw [hS₂] at hS'; cases hS'
  · rw [hseen]
    apply (h.calm fun en hen => hc en (List.mem_append_left _ hen)).snoc
    intro n hn hN
    obtain rfl := Option.some.inj (hcount.symm.trans hn)
    have := hc ⟨s, e, outs⟩ (by simp) a ha p hma S hS hN
    rwa [hka] at this

theorem run_tracked (h : Run (step cfg) {} C tr s) : ∀ p, ∃ k, Tracked cfg tr s p k := by
  refine h.invariant (fun tr s => ∀ p, ∃ k, Tracked cfg tr s p k) ?_ ?_
  · intro p
    exact ⟨.regist, ⟨fun _ => ⟨rfl, fun _ _ _ ⟨_, h, _⟩ => by cases h⟩, fun _ _ _ ⟨_, h, _⟩ => (by cases h), rfl,
      fun _ h => (by cases h), fun _ => .nil⟩⟩
  · intro tr s e s' outs hr ih _ hst p
    obtain ⟨k, hk⟩ := ih p
    have hm := run_move hr hst
    cases hs : Entry.seen p ⟨s, e, outs⟩ with
    | none => exact hk.idle hr hm hs
    | some o =>
      obtain ⟨a, S, ha, hma, hS, -⟩ := seen_eq_some hs
      exact ⟨k, hk.answered hr hm ha hma hS⟩

theorem oneVerdict_of (h : Run (step cfg) {} C tr s) (hc : ∀ en ∈ tr, OnceJudged cfg en.pre en.ev) : OneVerdict tr := by
  intro p
  obtain ⟨k, hk⟩ := run_tracked h p
  rw [hk.verdicts]
  exact ((hk.calm hc).play_spec cfg.pos cfg.lt).1

theorem onceJudged_of (h : Run (step cfg) {} C tr s) (ho : OneVerdict tr) : ∀ en ∈ tr, OnceJudged cfg en.pre en.ev := by
  induction h with
  | nil => intro en hen; cases hen
  | @snoc tr s e s' outs hr _ hst ih =>
    have hpre : ∀ p, (verdictsOf tr p).length ≤ 1 := by
      intro p
      have := ho p
      rw [verdictsOf_append, List.length_append] at this
      exact Nat.le_trans (Nat.le_add_right _ _) this
    have hc := ih hpre
    intro en hen
    rcases List.mem_append.mp hen with hen | hen
    · exact hc en hen
    obtain rfl := List.mem_singleton.mp hen
    intro a ha p hma S hS hN hsends
    obtain ⟨k, hk⟩ := run_tracked hr p
    have hpo := ho p
    obtain ⟨hSk, hcount⟩ := hk.count S hS
    have hone := ((hk.calm hc).play_spec cfg.pos cfg.lt).2 _ hcount
    rw [if_pos hN] at hone
    rw [verdictsOf_append, hk.verdicts, hone.2, (run_move hr hst).choices ha hma hS, List.length_append] at hpo
    have hne : (judge cfg.endorsePeerCount a.kind S.succeedRspNum (S.sees a)).1 ≠ [] :=
      fun hnil => judge_eq_nil.mp hnil hsends
    have := List.length_pos_iff.mpr hne
    simp only [List.length_singleton] at hpo
    omega

/-- One verdict for each session, exactly when nothing is sent after a full quorum;
and then both kinds decide alike. -/
theorem one_verdict_iff (h : Run (step cfg) {} anyStep tr s) :
    (OneVerdict tr ↔ ∀ en ∈ tr, OnceJudged cfg en.pre en.ev) ∧
      ∀ tr' s', Run (step cfg) {} anyStep tr' s' → (∀ en ∈ tr, OnceJudged cfg en.pre en.ev) →
        (∀ en ∈ tr', OnceJudged cfg en.pre en.ev) → SameChoices tr tr' := by
  refine ⟨⟨onceJudged_of h, oneVerdict_of h⟩, ?_⟩
  intro tr' s' h' hc hc' p q hd hd' id id' hp hq hsee
  obtain ⟨k, hk⟩ := run_tracked h p
  obtain ⟨k', hk'⟩ := run_tracked h' q
  obtain rfl := hk.kind _ _ _ hp
  obtain rfl := hk'.kind _ _ _ hq
  have hcalm := hk.calm hc
  rw [hk.verdicts, hk'.verdicts, hcalm.play_kind (by rw [hsee]; exact hk'.calm hc'), hsee]

end

/-- A third answer makes the service submit again, and on one that differs the propose
path sends a Submit where the register path does not. -/
theorem verdict_repeated :
    (¬∀ (cfg : Config) (tr : History) (s : State), Run (step cfg) {} anyStep tr s → OneVerdict tr) ∧
      ¬∀ (cfg : Config) (tr tr' : History) (s s' : State), Run (step cfg) {} anyStep tr s →
        Run (step cfg) {} anyStep tr' s' → SameChoices tr tr' := by
  constructor
  · intro hall
    have hone := hall twoPeers _ _ (run_trace_any (connectBoth ++
      [registReq 1 {}, registOk firstPeer 0 90 [4] {}, registOk secondPeer 0 91 [4] {}, registOk secondPeer 0 91 [4] {}]))
    exact absurd (hone 0) (by decide)
  · intro hall
    let evs := connectBoth ++ [registReq 1 {}, registOk firstPeer 0 90 [4] {}, registOk secondPeer 0 91 [4] {},
      registOk secondPeer 0 91 [5] {}]
    let evs' := connectBoth ++ [proposeReq 1 {}, proposeOk firstPeer 0 90 [4] {}, proposeOk secondPeer 0 91 [4] {},
      proposeOk secondPeer 0 91 [5] {}]
    have hsame := hall twoPeers _ _ _ _ (run_trace_any evs) (run_trace_any evs')
    let seen : List Seen := [⟨okType, true, {}⟩, ⟨okType, true, {}⟩, ⟨okType, false, {}⟩]
    have hseen : seenBy (trace (step twoPeers) {} evs) 0 = seen := rfl
    have hseen' : seenBy (trace (step twoPeers) {} evs') 0 = seen := rfl
    exact absurd (hsame 0 0 firstPeer firstPeer 0 0 (by decide) (by decide) (hseen.trans hseen'.symm)) (by decide)

theorem one_verdict_two : ∃ tr tr' s s', Run (step twoPeers) {} anyStep tr s ∧ Run (step twoPeers) {} anyStep tr' s' ∧
    OneVerdict tr ∧ SameChoices tr tr' ∧ verdictsOf tr 0 = [.submit] ∧ verdictsOf tr' 0 = [.submit] := by
  let evs := connectBoth ++ [registReq 1 {}, registOk firstPeer 0 90 [4] {}, registOk secondPeer 0 91 [4] {}]
  let evs' := connectBoth ++ [proposeReq 1 {}, proposeOk firstPeer 0 90 [4] {}, proposeOk secondPeer 0 91 [4] {}]
  have hr : Run (step twoPeers) {} anyStep (trace (step twoPeers) {} evs) _ := run_trace_any evs
  have hr' : Run (step twoPeers) {} anyStep (trace (step twoPeers) {} evs') _ := run_trace_any evs'
  have hc : ∀ en ∈ trace (step twoPeers) {} evs, OnceJudged twoPeers en.pre en.ev := by decide
  have hc' : ∀ en ∈ trace (step twoPeers) {} evs', OnceJudged twoPeers en.pre en.ev := by decide
  obtain ⟨h1, h2⟩ := one_verdict_iff hr
  have hsame := h2 _ _ hr' hc hc'
  exact ⟨_, _, _, _, hr, hr', h1.mpr hc, hsame, by decide, by decide⟩

/-! ## The endorser session a verdict names -/

/-- Every Submit and Cancel goes to the selected endorser of its session and carries
the endorser session id of an OK answer that this endorser gave for it. -/
def NamesSelected (tr : History) : Prop :=
  ∀ tr₁ en tr₂, tr = tr₁ ++ en :: tr₂ → ∀ h p m es, .es h p m ∈ en.outs → m.verdict = some es →
    (∃ S, en.pre.core.session p = some S ∧ en.pre.submitHandler S = .ok h) ∧
      ∃ a ∈ credited (tr₁ ++ [en]) p, a.handler = h ∧ a.code = okType ∧ a.esSessionID = es

/-- When something is sent, the selected endorser's OK answer has been counted or is this
answer (or the id of this answer is, by chance, what the session's memory holds). -/
def SelectedFirst (cfg : Config) (tr : History) (s : State) (e : Event) : Prop :=
  ∀ a ∈ e.answer, ∀ p ∈ s.core.mapEndorse a.kind a.cltSessionID, ∀ S ∈ s.core.session p,
    (S.sees a).sends cfg.endorsePeerCount a.kind S.succeedRspNum → ∀ h ∈ (s.submitHandler S).toOption,
      (a.handler = h ∧ a.code = okType ∧ ((S.sees a).same = true ∨ a.esSessionID = S.esSessionID)) ∨
      ∃ b ∈ credited tr p, b.handler = h ∧ b.code = okType

instance (cfg : Config) (tr : History) (s : State) (e : Event) : Decidable (SelectedFirst cfg tr s e) := by
  delta SelectedFirst; infer_instance

/-- Once the selected endorser has answered OK, the session holds the id of such an answer. -/
def Named (tr : History) (s : State) (p : Ptr) (S : EndorseSession) : Prop :=
  ∀ h, s.submitHandler S = .ok h → (∃ a ∈ credited tr p, a.handler = h ∧ a.code = okType) →
    ∃ a ∈ credited tr p, a.handler = h ∧ a.code = okType ∧ a.esSessionID = S.esSessionID

theorem submitHandler_eq_ok {s : State} {S h} :
    s.submitHandler S = .ok h ↔ ∃ hp H, S.submitEs = some hp ∧ s.links.handles hp = some H ∧ H.mcpHandler = h := by
  unfold State.submitHandler
  cases S.submitEs with
  | none => simp
  | some hp =>
    dsimp only
    cases hH : s.links.handles hp with
    | none => simp [hH]
    | some H => simp [hH]

section
variable {cfg : Config} {C : History → State → Event → Prop} {tr : History} {s s' : State} {e : Event} {outs : List Out}

theorem run_named (h : Run (step cfg) {} C tr s) : ∀ p S, s.core.session p = some S → Named tr s p S := by
  apply h.invariant (fun tr s => ∀ p S, s.core.session p = some S → Named tr s p S) (fun _ _ h => by cases h)
  intro tr s e s' outs hr ih _ hst p S' hS' hd hsel hok
  have hi := run_coreInv hr
  have hm := run_move hr hst
  have hsub : tr ⊆ tr ++ [⟨s, e, outs⟩] := List.subset_append_left _ _
  -- the selected endorser is the one it was before
  have hback : ∀ {S}, s.core.session p = some S → S'.submitEs = S.submitEs → s.submitHandler S = .ok hd := by
    intro S hS hsub
    obtain ⟨hp, H', hse, hH', rfl⟩ := submitHandler_eq_ok.mp hsel
    rw [hsub] at hse
    obtain ⟨H, hH, heq⟩ := (hm.links (run_linksInv hr)).2.handler hp H' (submitEs_lt hr p S hp hS hse) hH'
    exact submitHandler_eq_ok.mpr ⟨hp, H, hse, hH, heq⟩
  rcases hm.session hi hS' with ⟨hS, hno⟩ | ⟨hp, -⟩ | ⟨a, S, hd', cs, ha, hma, hS, hh, hj, rfl⟩
  · obtain ⟨b, hb, hbh, hbc⟩ := hok
    rcases mem_credited_append.mp hb with hb | ⟨hb, hbm⟩
    · obtain ⟨b', hb', hrest⟩ := ih p S' hS hd (hback hS rfl) ⟨b, hb, hbh, hbc⟩
      exact ⟨b', credited_mono hsub hb', hrest⟩
    · exact (hno b hb hbm).elim
  · obtain ⟨b, hb, -⟩ := hok
    rcases mem_credited_append.mp hb with hb | ⟨-, hbm⟩
    · exact (Nat.ne_of_lt (credited_lt hr p b hb) hp).elim
    · obtain ⟨S, hS, -⟩ := hi.endorse _ _ _ hbm
      exact (Nat.ne_of_lt (hi.fresh _ _ hS) hp).elim
  · obtain rfl := Except.ok.inj ((hback hS rfl).symm.trans hh)
    by_cases hah : a.handler = hd
    · exact ⟨a, mem_credited_append.mpr (.inr ⟨ha, hma⟩), hah, (judge_none hj).1, by simp [EndorseSession.counted, hah]⟩
    · obtain ⟨b, hb, hbh, hbc⟩ := hok
      rcases mem_credited_append.mp hb with hb | ⟨hb, hbm⟩
      · obtain ⟨b', hb', hrest⟩ := ih p S hS hd hh ⟨b, hb, hbh, hbc⟩
        exact ⟨b', credited_mono hsub hb', by simpa [EndorseSession.counted, hah] using hrest⟩
      · rw [ha] at hb
        obtain rfl := Option.some.inj hb
        exact (hah hbh).elim

/-- An entry of the history names the right endorser sessions. -/
def NamesAt (tr : History) (en : Entry State Event Out) : Prop :=
  ∀ h p m es, .es h p m ∈ en.outs → m.verdict = some es →
    (∃ S, en.pre.core.session p = some S ∧ en.pre.submitHandler S = .ok h) ∧
      ∃ a ∈ credited (tr ++ [en]) p, a.handler = h ∧ a.code = okType ∧ a.esSessionID = es

theorem selectedFirst_of_names (hm : Move cfg s e s' outs) (hn : NamesAt tr ⟨s, e, outs⟩) :
    SelectedFirst cfg tr s e := by
  intro a ha p hma S hS hsends hd hsel
  obtain ⟨hd', cs, r, hj, hh, hcase⟩ := hm.answered ha hma hS
  have hne : cs ≠ [] := by
    intro hnil
    refine judge_eq_nil.mp ?_ hsends
    rw [hj]; exact hnil
  have hsel' : hd' = hd := by
    rw [hh hne] at hsel
    exact Option.some.inj hsel
  subst hsel'
  -- a named answer that is not credited before this step is the answer of this step
  have hlast : ∀ {b}, b ∈ credited (tr ++ [⟨s, e, outs⟩]) p → b ∈ credited tr p ∨ b = a := by
    intro b hb
    rcases mem_credited_append.mp hb with hb | ⟨hb, -⟩
    · exact .inl hb
    · exact .inr (Option.some.inj (hb.symm.trans ha))
  obtain ⟨c, hc⟩ := List.exists_mem_of_ne_nil cs hne
  rcases hcase with ⟨rfl, hout, -, -⟩ | ⟨code, rfl, hout, -⟩
  · obtain ⟨hok, hsame⟩ := judge_none hj
    obtain ⟨-, b, hb, hbh, hbc, -⟩ := hn hd' p (c.msg a.kind (S.counted a hd').esSessionID) _
      (by rw [hout]; exact List.mem_map.mpr ⟨c, hc, rfl⟩) (by cases c <;> rfl)
    rcases hlast hb with hb | rfl
    · exact .inr ⟨b, hb, hbh, hbc⟩
    · exact .inl ⟨hbh, hok, .inl hsame⟩
  · obtain ⟨-, b, hb, hbh, hbc, hbe⟩ := hn hd' p (c.msg a.kind S.esSessionID) S.esSessionID
      (by rw [hout]; exact List.mem_append_left _ (List.mem_map.mpr ⟨c, hc, rfl⟩)) (by cases c <;> rfl)
    rcases hlast hb with hb | rfl
    · exact .inr ⟨b, hb, hbh, hbc⟩
    · exact .inl ⟨hbh, hbc, .inr hbe⟩

theorem names_of_selectedFirst (hr : Run (step cfg) {} anyStep tr s) (hm : Move cfg s e s' outs)
    (hc : SelectedFirst cfg tr s e) : NamesAt tr ⟨s, e, outs⟩ := by
  intro hd p m es ho hv
  rcases hm.es ho with ⟨-, h⟩ | ⟨r, -, -, -, h⟩ | ⟨a, S, cs, r, c, es', ha, hma, hS, hh, hj, hcs, rfl, hes⟩
  · rw [hv] at h; cases h
  · rw [request_of_verdict hv] at h; cases h
  have hS := session_eq_some.mpr hS
  refine ⟨⟨S, hS, hh⟩, ?_⟩
  have hee : es = es' := by cases c <;> exact (Option.some.inj hv).symm
  have hsends : (S.sees a).sends cfg.endorsePeerCount a.kind S.succeedRspNum := by
    by_contra hno
    rw [← judge_eq_nil, hj] at hno
    dsimp only at hno
    rw [hno] at hcs
    cases hcs
  have hcur : a ∈ credited (tr ++ [⟨s, e, outs⟩]) p := mem_credited_append.mpr (.inr ⟨ha, hma⟩)
  have hsub : tr ⊆ tr ++ [⟨s, e, outs⟩] := List.subset_append_left _ _
  -- an earlier OK answer of the selected endorser left its id in the session
  have hearlier : (∃ b ∈ credited tr p, b.handler = hd ∧ b.code = okType) →
      ∃ b ∈ credited (tr ++ [⟨s, e, outs⟩]) p, b.handler = hd ∧ b.code = okType ∧ b.esSessionID = S.esSessionID := by
    intro hb
    obtain ⟨b', hb', hrest⟩ := run_named hr p S hS hd hh hb
    exact ⟨b', credited_mono hsub hb', hrest⟩
  have hcond := hc a ha p hma S hS hsends hd (by rw [hh]; rfl)
  rw [hee, hes]
  cases r with
  | none =>
    obtain ⟨hok, hsame⟩ := judge_none hj
    rw [if_pos rfl]
    by_cases hah : a.handler = hd
    · exact ⟨a, hcur, hah, hok, by simp [EndorseSession.counted, hah]⟩
    · rcases hcond with ⟨h, -⟩ | hcond
      · exact (hah h).elim
      · obtain ⟨b, hb, hbh, hbc, hbe⟩ := hearlier hcond
        exact ⟨b, hb, hbh, hbc, by simp [EndorseSession.counted, hah, hbe]⟩
  | some code =>
    rw [if_neg (by simp)]
    rcases hcond with ⟨hah, hok, hsame | hchance⟩ | hcond
    · -- an agreeing OK answer that ends the session sends nothing
      exfalso
      rw [judge_counted hok hsame] at hj
      split at hj
      · split at hj
        · obtain ⟨rfl, -⟩ := Prod.mk.inj hj; cases hcs
        · cases hj
      · cases hj
    · exact ⟨a, hcur, hah, hok, hchance⟩
    · exact hearlier hcond

/-- A run names the endorser sessions right exactly when the selected endorser's OK
answer never comes after the decision. -/
theorem names_selected_iff (h : Run (step cfg) {} anyStep tr s) :
    NamesSelected tr ↔ ∀ tr₁ en tr₂, tr = tr₁ ++ en :: tr₂ → SelectedFirst cfg tr₁ en.pre en.ev := by
  refine h.each_iff ?_
  intro tr s e s' outs hr _ _ hst
  have hm := run_move hr hst
  exact ⟨selectedFirst_of_names hm, names_of_selectedFirst hr hm⟩

end

/-- An error that comes first makes the service cancel an endorser session nobody named. -/
theorem names_unreceived : ¬∀ (cfg : Config) (tr : History) (s : State),
    Run (step cfg) {} anyStep tr s → NamesSelected tr := by
  intro hall
  let evs := connectBoth ++ [registReq 1 {}, registFailed secondPeer 0 systemErrorType]
  have hn := hall twoPeers _ _ (run_trace_any evs)
  obtain ⟨en, hsplit, htr, hout⟩ := split_map (trace (step twoPeers) {} evs) 3 (·.outs)
    [.es firstPeer 0 (.cancelReq .regist 0), .upper 5 (.registUserRsp false systemErrorType 1 [] [])] rfl
  obtain ⟨-, a, ha, -, hok, -⟩ := hn _ _ _ hsplit firstPeer 0 (.cancelReq .regist 0) 0 (by rw [hout]; simp) rfl
  have hnone : ∀ a ∈ credited (trace (step twoPeers) {} evs) 0, a.code ≠ okType := by decide
  exact hnone a (credited_mono htr ha) hok

theorem names_selected_two : ∃ tr s, Run (step twoPeers) {} anyStep tr s ∧ NamesSelected tr ∧
    tr.getLast?.map (·.outs) = some [.es firstPeer 0 (.submitReq .regist 90)] := by
  let evs := connectBoth ++ [registReq 1 {}, registOk firstPeer 0 90 [4] {}, registOk secondPeer 0 91 [4] {}]
  have hr := run_of_meets (step twoPeers) {} (SelectedFirst twoPeers) evs (by decide)
  refine ⟨_, _, hr.any, (names_selected_iff hr.any).mpr fun tr₁ en tr₂ htr => ?_, rfl⟩
  obtain ⟨-, -, hc, -⟩ := hr.entry htr
  exact hc

end VProtocol.Client
