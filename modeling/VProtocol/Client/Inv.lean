import VProtocol.Client.Moves

/-!
# What holds in every state

`CoreInv` after every run, and what a move does as seen from one register or
propose session: how it comes to be, how it changes, which messages are sent
for it.
-/

namespace VProtocol.Client

open Function (update)

/-! ## Register and propose sessions on the heap -/

def Core.session (c : Core) (p : Ptr) : Option EndorseSession :=
  match c.heap p with
  | some (.endorse S) => some S
  | _ => none

theorem session_eq_some {c : Core} {p S} : c.session p = some S ↔ c.heap p = some (.endorse S) := by
  unfold Core.session
  split
  · rename_i S' h; rw [h]; simp
  · rename_i h
    constructor
    · intro h'; cases h'
    · intro h'; exact absurd h' (h S)

theorem session_single {c : Core} {p S} (h : c.heap p = some (.single S)) : c.session p = none := by
  rw [Core.session, h]

theorem session_none {c : Core} {p} (h : c.heap p = none) : c.session p = none := by
  rw [Core.session, h]

theorem session_congr {c c' : Core} {p} (h : c'.heap p = c.heap p) : c'.session p = c.session p := by
  rw [Core.session, Core.session, h]

section
variable {c : Core} {p q : Ptr} {S : EndorseSession}

theorem put_session (x : EndorseSession) :
    (c.put p (.endorse x)).session q = if q = p then some x else c.session q := by
  by_cases h : q = p
  · subst h; rw [if_pos rfl, session_eq_some]; simp
  · rw [if_neg h]; exact session_congr (by simp [h])

theorem finish_session : (c.finish p).session q = if q = p then none else c.session q := by
  by_cases h : q = p
  · subst h; rw [if_pos rfl]
    exact session_none (by simp [Core.finish])
  · rw [if_neg h]
    exact session_congr (by simp [Core.finish, h])

theorem openEndorse_session : (c.openEndorse S).session q = if q = c.next then some S else c.session q := by
  by_cases h : q = c.next
  · subst h; rw [if_pos rfl, session_eq_some]
    simp [Core.openEndorse]
  · rw [if_neg h]
    exact session_congr (by simp [Core.openEndorse, h])

theorem alloc_session : (c.alloc (.endorse S)).session q = if q = c.next then some S else c.session q := by
  by_cases h : q = c.next
  · subst h; rw [if_pos rfl, session_eq_some]; exact alloc_heap_next _ _
  · rw [if_neg h]; exact session_congr (by simp [h])

theorem openSingle_session (hi : CoreInv c) (W : SingleSession) : (c.openSingle W).session q = c.session q := by
  by_cases h : q = c.next
  · subst h
    rw [session_none hi.heap_next]
    exact session_single (S := W) (by simp [Core.openSingle])
  · exact session_congr (by simp [Core.openSingle, h])

theorem finishSingle_session {W : SingleSession} (hW : c.heap p = some (.single W)) :
    (c.finishSingle p).session q = c.session q := by
  by_cases h : q = p
  · subst h
    rw [session_single hW]
    exact session_none (by simp [Core.finishSingle])
  · exact session_congr (by simp [Core.finishSingle, h])

end

/-! ## The invariant is kept -/

theorem eraseEndorse_eq_some {c : Core} {p q k id} :
    (c.eraseEndorse p).mapEndorse k id = some q ↔ c.mapEndorse k id = some q ∧ q ≠ p := by
  unfold Core.eraseEndorse
  by_cases h : c.mapEndorse k id = some p
  · constructor
    · intro hq; simp only [if_pos h] at hq; cases hq
    · intro hx
      obtain ⟨hq, hp⟩ := hx
      rw [h] at hq
      exact absurd (Option.some.inj hq).symm hp
  · simp only [if_neg h]
    exact ⟨fun hq => ⟨hq, by intro heq; subst heq; exact h hq⟩, And.left⟩

theorem eraseSingle_eq_some {c : Core} {p q k id} :
    (c.eraseSingle p).mapSingle k id = some q ↔ c.mapSingle k id = some q ∧ q ≠ p := by
  unfold Core.eraseSingle
  by_cases h : c.mapSingle k id = some p
  · constructor
    · intro hq; simp only [if_pos h] at hq; cases hq
    · intro hx
      obtain ⟨hq, hp⟩ := hx
      rw [h] at hq
      exact absurd (Option.some.inj hq).symm hp
  · simp only [if_neg h]
    exact ⟨fun hq => ⟨hq, by intro heq; subst heq; exact h hq⟩, And.left⟩

namespace CoreInv
variable {c : Core} (hi : CoreInv c)
include hi

theorem cancelDscTimer (p : Ptr) : CoreInv (c.cancelDscTimer p) where
  fresh := hi.fresh
  endorse := hi.endorse
  single := hi.single
  armed q hq := by
    by_cases h : q = p
    · subst h; simp at hq
    · exact hi.armed q (by simpa [h] using hq)

theorem eraseEndorse (p : Ptr) : CoreInv (c.eraseEndorse p) where
  fresh := hi.fresh
  endorse k id q hq := hi.endorse k id q (eraseEndorse_eq_some.mp hq).1
  single := hi.single
  armed := hi.armed

theorem alloc (x : Session) : CoreInv (c.alloc x) := by
  have hne : ∀ {q y}, c.heap q = some y → (c.alloc x).heap q = some y := by
    intro q y h
    have := Nat.ne_of_lt (hi.fresh _ _ h)
    simp [this, h]
  refine ⟨?_, ?_, ?_, ?_⟩
  · intro q y hq
    by_cases h : q = c.next
    · subst h; exact Nat.lt_succ_self _
    · exact Nat.lt_succ_of_lt (hi.fresh q y (by simpa [h] using hq))
  · intro k id q hq
    obtain ⟨S, hS, h⟩ := hi.endorse k id q hq
    exact ⟨S, hne hS, h⟩
  · intro k id q hq
    obtain ⟨S, hS, h⟩ := hi.single k id q hq
    exact ⟨S, hne hS, h⟩
  · intro q hq
    obtain ⟨y, hy⟩ := hi.armed q hq
    exact ⟨y, hne hy⟩

theorem setDscTimer {p x} (hp : c.heap p = some x) : CoreInv (c.setDscTimer p) where
  fresh := hi.fresh
  endorse := hi.endorse
  single := hi.single
  armed q hq := by
    by_cases h : q = p
    · subst h; exact ⟨x, hp⟩
    · exact hi.armed q (by simpa [h] using hq)

theorem openSingle (W : SingleSession) : CoreInv (c.openSingle W) := by
  have hs := (hi.alloc (.single W)).setDscTimer (alloc_heap_next c (.single W))
  refine ⟨hs.fresh, hs.endorse, ?_, hs.armed⟩
  intro k id q hq
  by_cases hk : k = W.kind ∧ id = W.cltSessionID
  · obtain ⟨rfl, rfl⟩ := hk
    simp only [Core.openSingle, Core.insertSingle, Function.update_self, Option.some.injEq] at hq
    subst hq
    exact ⟨W, alloc_heap_next _ _, rfl, rfl⟩
  · apply hs.single k id q
    rw [← hq]
    by_cases hk' : k = W.kind
    · subst hk'
      have : id ≠ W.cltSessionID := fun h => hk ⟨rfl, h⟩
      simp [Core.openSingle, this]
    · simp [Core.openSingle, hk']

theorem openEndorse (S : EndorseSession) : CoreInv (c.openEndorse S) := by
  have hs := (hi.alloc (.endorse S)).setDscTimer (alloc_heap_next c (.endorse S))
  refine ⟨hs.fresh, ?_, hs.single, hs.armed⟩
  intro k id q hq
  by_cases hk : k = S.kind ∧ id = S.cltSessionID
  · obtain ⟨rfl, rfl⟩ := hk
    simp only [Core.openEndorse, Core.insertEndorse, Function.update_self, Option.some.injEq] at hq
    subst hq
    exact ⟨S, alloc_heap_next _ _, rfl, rfl⟩
  · apply hs.endorse k id q
    rw [← hq]
    by_cases hk' : k = S.kind
    · subst hk'
      have : id ≠ S.cltSessionID := fun h => hk ⟨rfl, h⟩
      simp [Core.openEndorse, this]
    · simp [Core.openEndorse, hk']

theorem finish {p S} (hS : c.heap p = some (.endorse S)) : CoreInv (c.finish p) := by
  have hs := (hi.cancelDscTimer p).eraseEndorse p
  have hne : ∀ {q x}, q ≠ p → c.heap q = some x → (c.finish p).heap q = some x := by
    intro q x h hq
    simp [Core.finish, h, hq]
  refine ⟨?_, ?_, ?_, ?_⟩
  · intro q x hq
    by_cases h : q = p
    · subst h; simp [Core.finish] at hq
    · exact hs.fresh q x (by simpa [Core.finish, h] using hq)
  · intro k id q hq
    obtain ⟨S', hS', hk⟩ := hs.endorse k id q hq
    exact ⟨S', hne (eraseEndorse_eq_some.mp hq).2 hS', hk⟩
  · intro k id q hq
    obtain ⟨W, hW, hk⟩ := hs.single k id q hq
    have h : q ≠ p := by
      intro heq
      subst heq
      have hW : c.heap q = some (.single W) := hW
      rw [hS] at hW; cases hW
    exact ⟨W, hne h hW, hk⟩
  · intro q hq
    have h : q ≠ p := by
      intro heq
      subst heq
      simp [Core.finish] at hq
    obtain ⟨x, hx⟩ := hs.armed q hq
    exact ⟨x, hne h hx⟩

theorem finishSingle {p W} (hW : c.heap p = some (.single W)) : CoreInv (c.finishSingle p) := by
  have hs := hi.cancelDscTimer p
  have hne : ∀ {q x}, q ≠ p → c.heap q = some x → (c.finishSingle p).heap q = some x := by
    intro q x h hq
    simp [Core.finishSingle, h, hq]
  refine ⟨?_, ?_, ?_, ?_⟩
  · intro q x hq
    by_cases h : q = p
    · subst h; simp [Core.finishSingle] at hq
    · apply hs.fresh q x
      rw [← hq]
      simp [Core.finishSingle, h]
  · intro k id q hq
    obtain ⟨S, hS, hk⟩ := hs.endorse k id q hq
    have h : q ≠ p := by
      intro heq
      subst heq
      have hS : c.heap q = some (.endorse S) := hS
      rw [hW] at hS; cases hS
    exact ⟨S, hne h hS, hk⟩
  · intro k id q hq
    have hq := eraseSingle_eq_some.mp hq
    obtain ⟨W', hW', hk⟩ := hs.single k id q hq.1
    exact ⟨W', hne hq.2 hW', hk⟩
  · intro q hq
    have h : q ≠ p := by
      intro heq
      subst heq
      simp [Core.finishSingle] at hq
    obtain ⟨x, hx⟩ := hs.armed q hq
    exact ⟨x, hne h hx⟩

theorem put {p S} (S' : EndorseSession) (hS : c.heap p = some (.endorse S)) (hk : S'.kind = S.kind)
    (hid : S'.cltSessionID = S.cltSessionID) : CoreInv (c.put p (.endorse S')) := by
  have hne : ∀ {q x}, q ≠ p → c.heap q = some x → (c.put p (.endorse S')).heap q = some x := by
    intro q x h hq
    simp [h, hq]
  refine ⟨?_, ?_, ?_, ?_⟩
  · intro q x hq
    by_cases h : q = p
    · subst h; exact hi.fresh _ _ hS
    · exact hi.fresh q x (by simpa [h] using hq)
  · intro k id q hq
    obtain ⟨S₁, hS₁, hk₁, hid₁⟩ := hi.endorse k id q hq
    by_cases h : q = p
    · subst h
      rw [hS] at hS₁
      obtain rfl := Session.endorse.inj (Option.some.inj hS₁)
      exact ⟨S', by simp, hk.trans hk₁, hid.trans hid₁⟩
    · exact ⟨S₁, hne h hS₁, hk₁, hid₁⟩
  · intro k id q hq
    obtain ⟨W, hW, hk₁⟩ := hi.single k id q hq
    have h : q ≠ p := by
      intro heq
      subst heq
      rw [hS] at hW; cases hW
    exact ⟨W, hne h hW, hk₁⟩
  · intro q hq
    obtain ⟨x, hx⟩ := hi.armed q hq
    by_cases h : q = p
    · subst h; exact ⟨.endorse S', by simp⟩
    · exact ⟨x, hne h hx⟩

end CoreInv

theorem CoreInv.init : CoreInv ({} : Core) where
  fresh _ _ h := by cases h
  endorse _ _ _ h := by cases h
  single _ _ _ h := by cases h
  armed _ h := by cases h

theorem Ended.coreInv {s s' : State} {p S} (h : Ended s p S s') (hi : CoreInv s.core) : CoreInv s'.core := by
  obtain ⟨hS, -⟩ := h
  exact hi.finish hS

theorem SingleEnded.coreInv {s s' : State} {p S} (h : SingleEnded s p S s') (hi : CoreInv s.core) :
    CoreInv s'.core := by
  obtain ⟨hS, -⟩ := h
  exact hi.finishSingle hS

theorem Losses.coreInv {s s' : State} {outs} (h : Losses s outs s') (hi : CoreInv s.core) : CoreInv s'.core := by
  induction h with
  | nil => exact hi
  | endorse hend _ ih => exact ih (hend.coreInv hi)
  | single hend _ ih => exact ih (hend.coreInv hi)

theorem Noted.coreInv {s s' : State} {S} (h : Noted s S s') (hi : CoreInv s.core) : CoreInv s'.core := by
  cases h with
  | none => exact hi
  | some => exact hi.openSingle _

theorem Aside.coreInv {cfg : Config} {s s' : State} {e : Event} {outs} (h : Aside cfg s e s' outs)
    (hi : CoreInv s.core) : CoreInv s'.core := by
  cases h with
  | quiet => exact hi
  | refused => exact hi
  | queried =>
    have := hi.openSingle
    exact ⟨(this _).fresh, (this _).endorse, (this _).single, (this _).armed⟩
  | fired => exact hi.cancelDscTimer _
  | ended hend => exact hend.coreInv hi

theorem Move.coreInv {cfg : Config} {s s' : State} {e : Event} {outs} (h : Move cfg s e s' outs)
    (hi : CoreInv s.core) : CoreInv s'.core := by
  cases h with
  | aside _ _ _ h => exact h.coreInv hi
  | refused => exact hi
  | aborted _ _ _ _ _ _ _ _ _ hend => exact hend.coreInv (hi.alloc _)
  | opened => exact hi.openEndorse _
  | kept _ _ hS => exact hi.put _ hS rfl rfl
  | failed _ _ _ _ _ hend => exact hend.coreInv hi
  | orphaned => exact hi.eraseEndorse _
  | submitted _ _ _ hw hend => exact hend.coreInv (hw.coreInv hi)
  | timedOut _ _ hend => exact hend.coreInv hi
  | lost _ _ _ hl =>
    have := hl.coreInv hi
    exact ⟨this.fresh, this.endorse, this.single, this.armed⟩

/-! ## What a history says -/

abbrev History := List (Entry State Event Out)

/-- The request message of session `p` with kind `k` and this id was sent to `h`. -/
def Sent (tr : History) (h : McpHandler) (p : Ptr) (k : Kind) (id : UInt32) : Prop :=
  ∃ en ∈ tr, ∃ o ∈ en.outs, o.request = some (h, p, k, id)

instance (tr h p k id) : Decidable (Sent tr h p k id) := by delta Sent; infer_instance

theorem Sent.mono {tr tr' : History} {h p k id} (hs : Sent tr h p k id) (hsub : tr ⊆ tr') : Sent tr' h p k id := by
  obtain ⟨en, hen, ho⟩ := hs
  exact ⟨en, hsub hen, ho⟩

def credited (tr : History) (p : Ptr) : List Answer :=
  tr.filterMap fun en => en.ev.answer.filter fun a => en.pre.core.mapEndorse a.kind a.cltSessionID = some p

theorem mem_credited {tr : History} {p a} :
    a ∈ credited tr p ↔ ∃ en ∈ tr, en.ev.answer = some a ∧ en.pre.core.mapEndorse a.kind a.cltSessionID = some p := by
  simp only [credited, List.mem_filterMap, Option.filter_eq_some_iff, decide_eq_true_eq]

theorem credited_mono {tr tr' : History} (hsub : tr ⊆ tr') {p a} (h : a ∈ credited tr p) : a ∈ credited tr' p := by
  obtain ⟨en, hen, ha⟩ := mem_credited.mp h
  exact mem_credited.mpr ⟨en, hsub hen, ha⟩

theorem mem_credited_append {tr : History} {en p a} : a ∈ credited (tr ++ [en]) p ↔
    a ∈ credited tr p ∨ (en.ev.answer = some a ∧ en.pre.core.mapEndorse a.kind a.cltSessionID = some p) := by
  simp only [mem_credited, List.mem_append, List.mem_singleton, or_and_right, exists_or, exists_eq_left]

section
variable {cfg : Config} {C : History → State → Event → Prop} {tr : History} {s s' : State} {e : Event} {outs : List Out}

theorem run_coreInv (h : Run (step cfg) {} C tr s) : CoreInv s.core :=
  h.invariant (fun _ s => CoreInv s.core) CoreInv.init fun _ _ _ _ _ _ hi _ hst => (step_move hi hst).coreInv hi

theorem run_move (h : Run (step cfg) {} C tr s) (hst : step cfg s e = .ok (s', outs)) : Move cfg s e s' outs :=
  step_move (run_coreInv h) hst

/-! ## A move as one session sees it -/

theorem Losses.session (h : Losses s outs s') {p S} (hS : s'.core.session p = some S) : s.core.session p = some S := by
  induction h with
  | nil => exact hS
  | endorse hend _ ih =>
    obtain ⟨-, -⟩ := hend
    have := ih hS
    rw [finish_session] at this
    split at this
    · cases this
    · exact this
  | single hend _ ih =>
    obtain ⟨hW, -⟩ := hend
    have := ih hS
    rwa [finishSingle_session hW] at this

theorem Ended.session {p₀ S₀} (h : Ended s p₀ S₀ s') {p} :
    s'.core.session p = if p = p₀ then none else s.core.session p := by
  obtain ⟨-, -⟩ := h
  exact finish_session

theorem Noted.session {S₀} (h : Noted s S₀ s') (hi : CoreInv s.core) {p} : s'.core.session p = s.core.session p := by
  cases h with
  | none => rfl
  | some => exact openSingle_session hi _

theorem Aside.session (h : Aside cfg s e s' outs) (hi : CoreInv s.core) {p} : s'.core.session p = s.core.session p := by
  cases h with
  | quiet => rfl
  | refused => rfl
  | queried => exact (session_congr rfl).trans (openSingle_session hi _)
  | fired => rfl
  | ended hend =>
    obtain ⟨hW, -⟩ := hend
    exact finishSingle_session hW

theorem answer_of_asks {r} (h : e.asks = some r) : e.answer = none := by
  cases e <;> first | rfl | cases h

theorem asks_of_answer {a} (h : e.answer = some a) : e.asks = none := by
  cases e <;> first | rfl | cases h

theorem asks_of_submitRsp {r} (h : e.submitRsp = some r) : e.asks = none := by
  cases e <;> first | rfl | cases h

theorem answer_of_submitRsp {r} (h : e.submitRsp = some r) : e.answer = none := by
  cases e <;> first | rfl | cases h

/-- A session that is there after a step was there before, is the one a request
opened, or counted an answer. -/
theorem Move.session (h : Move cfg s e s' outs) (hi : CoreInv s.core) {p S'} (hS' : s'.core.session p = some S') :
    (s.core.session p = some S' ∧
      ∀ a, e.answer = some a → s.core.mapEndorse a.kind a.cltSessionID ≠ some p) ∨
    (p = s.core.next ∧ e.asks = some S'.tag ∧ S'.cltSessionID = s.core.sessionID ∧ S'.succeedRspNum = 0 ∧
      S'.content = [] ∧ ∃ (hs : List McpHandler) (rand : Nat), s.links.link p hs = .ok (s'.links, S'.arrHandleSession) ∧
        S'.submitEs = S'.arrHandleSession[rand]?) ∨
    (∃ a S hsub cs, e.answer = some a ∧ s.core.mapEndorse a.kind a.cltSessionID = some p ∧
      s.core.session p = some S ∧ s.submitHandler S = .ok hsub ∧
      judge cfg.endorsePeerCount a.kind S.succeedRspNum (S.sees a) = (cs, none) ∧ S' = S.counted a hsub) := by
  have hno : e.answer = none → ∀ a, e.answer = some a → s.core.mapEndorse a.kind a.cltSessionID ≠ some p := by
    intro h a ha; rw [h] at ha; cases ha
  have hsub : ∀ {p₀ S₀ s₁}, (∀ q, s₁.core.session q = s.core.session q) → Ended s₁ p₀ S₀ s' →
      s.core.session p = some S' ∧ p ≠ p₀ := by
    intro p₀ S₀ s₁ h₁ hend
    rw [hend.session, h₁] at hS'
    split at hS'
    · cases hS'
    · rename_i hp; exact ⟨hS', hp⟩
  cases h with
  | aside _ ha _ h => exact .inl ⟨by rwa [h.session hi] at hS', fun a h => by rw [ha a h]; simp⟩
  | refused he => exact .inl ⟨hS', hno (answer_of_asks he)⟩
  | aborted he _ _ _ _ _ _ _ _ hend =>
    rw [hend.session, alloc_session] at hS'
    split at hS'
    · cases hS'
    · exact .inl ⟨hS', hno (answer_of_asks he)⟩
  | opened he ht hid h0 hc _ _ _ _ _ hl _ hse =>
    rw [openEndorse_session] at hS'
    split at hS'
    · rename_i hp
      obtain rfl := Option.some.inj hS'
      exact .inr (.inl ⟨hp, ht ▸ he, hid, h0, hc, _, _, hp ▸ hl, hse⟩)
    · exact .inl ⟨hS', hno (answer_of_asks he)⟩
  | @kept a p₀ S hd cs ha hm hS hh hj =>
    rw [put_session] at hS'
    split at hS'
    · rename_i hp
      subst hp
      exact .inr (.inr ⟨_, _, _, _, ha, hm, session_eq_some.mpr hS, hh, hj, (Option.some.inj hS').symm⟩)
    · rename_i hp
      refine .inl ⟨hS', fun b hb hbm => hp ?_⟩
      rw [ha] at hb
      obtain rfl := Option.some.inj hb
      exact Option.some.inj (hbm.symm.trans hm)
  | failed ha hm _ _ _ hend =>
    obtain ⟨hS, hp⟩ := hsub (fun _ => rfl) hend
    refine .inl ⟨hS, fun b hb hbm => hp ?_⟩
    rw [ha] at hb
    obtain rfl := Option.some.inj hb
    exact Option.some.inj (hbm.symm.trans hm)
  | orphaned he => exact .inl ⟨hS', hno (answer_of_submitRsp he)⟩
  | submitted he _ _ hw hend => exact .inl ⟨(hsub (fun _ => hw.session hi) hend).1, hno (answer_of_submitRsp he)⟩
  | timedOut he _ hend => exact .inl ⟨(hsub (fun _ => rfl) hend).1, hno (by rw [he]; rfl)⟩
  | lost he _ _ hl => exact .inl ⟨hl.session hS', hno (by rw [he]; rfl)⟩

/-! ## Addresses are not used again -/

theorem Losses.next (h : Losses s outs s') : s'.core.next = s.core.next := by
  induction h with
  | nil => rfl
  | endorse hend _ ih => obtain ⟨-, -⟩ := hend; exact ih
  | single hend _ ih => obtain ⟨-, -⟩ := hend; exact ih

theorem Move.next_le (h : Move cfg s e s' outs) : s.core.next ≤ s'.core.next := by
  cases h with
  | aside _ _ _ h =>
    cases h with
    | quiet => exact Nat.le_refl _
    | refused => exact Nat.le_refl _
    | queried => exact Nat.le_succ _
    | fired => exact Nat.le_refl _
    | ended hend => obtain ⟨-, -⟩ := hend; exact Nat.le_refl _
  | refused => exact Nat.le_refl _
  | aborted _ _ _ _ _ _ _ _ _ hend => obtain ⟨-, -⟩ := hend; exact Nat.le_succ _
  | opened => exact Nat.le_succ _
  | kept => exact Nat.le_refl _
  | failed _ _ _ _ _ hend => obtain ⟨-, -⟩ := hend; exact Nat.le_refl _
  | orphaned => exact Nat.le_refl _
  | submitted _ _ _ hw hend =>
    obtain ⟨-, -⟩ := hend
    cases hw with
    | none => exact Nat.le_refl _
    | some => exact Nat.le_succ _
  | timedOut _ _ hend => obtain ⟨-, -⟩ := hend; exact Nat.le_refl _
  | lost _ _ _ hl => exact Nat.le_of_eq hl.next.symm

theorem credited_lt (h : Run (step cfg) {} C tr s) : ∀ p, ∀ a ∈ credited tr p, p < s.core.next := by
  apply h.invariant (fun tr s => ∀ p, ∀ a ∈ credited tr p, p < s.core.next) (fun _ _ h => by cases h)
  intro tr s e s' outs hr ih _ hst p a ha
  have hle := (run_move hr hst).next_le
  rcases mem_credited_append.mp ha with ha | ⟨-, hm⟩
  · exact Nat.lt_of_lt_of_le (ih p a ha) hle
  · obtain ⟨S, hS, -⟩ := (run_coreInv hr).endorse _ _ _ hm
    exact Nat.lt_of_lt_of_le ((run_coreInv hr).fresh _ _ hS) hle

/-! ## Messages to endorsers -/

theorem mem_requests {p rand msg} : ∀ {hs idx h q m}, Out.es h q m ∈ requests p rand msg idx hs →
    q = p ∧ ∃ b, m = msg b := by
  intro hs
  induction hs with
  | nil => intro idx h q m hm; cases hm
  | cons h₀ hs ih =>
    intro idx h q m hm
    rcases List.mem_cons.mp hm with heq | hm
    · injection heq with _ hp hmsg
      exact ⟨hp, _, hmsg⟩
    · exact ih hm

theorem Losses.isUpper (h : Losses s outs s') : ∀ o ∈ outs, o.isUpper = true := by
  induction h with
  | nil => intro o ho; cases ho
  | endorse _ _ ih => intro o ho; rcases List.mem_cons.mp ho with rfl | ho; exacts [onResponse_isUpper _ _, ih o ho]
  | single _ _ ih => intro o ho; rcases List.mem_cons.mp ho with rfl | ho; exacts [rfl, ih o ho]

theorem Move.es (h : Move cfg s e s' outs) {hd p m} (hm : Out.es hd p m ∈ outs) :
    (m.request = none ∧ m.verdict = none) ∨
    (∃ r, e.asks = some r ∧ p = s.core.next ∧ s'.core.next = s.core.next + 1 ∧
      m.request = some (r.1, s.core.sessionID)) ∨
    (∃ a S cs r c es, e.answer = some a ∧ s.core.mapEndorse a.kind a.cltSessionID = some p ∧
      s.core.heap p = some (.endorse S) ∧ s.submitHandler S = .ok hd ∧
      judge cfg.endorsePeerCount a.kind S.succeedRspNum (S.sees a) = (cs, r) ∧ c ∈ cs ∧ m = c.msg a.kind es ∧
      es = if r = none then (S.counted a hd).esSessionID else S.esSessionID) := by
  have hup : ∀ {o : Out}, o.isUpper = true → Out.es hd p m = o → False := by
    intro o ho heq; subst heq; cases ho
  cases h with
  | aside _ _ _ h =>
    cases h with
    | quiet => cases hm
    | refused _ ho => exact (hup ho (List.mem_singleton.mp hm)).elim
    | queried _ _ _ _ hr hv =>
      injection List.mem_singleton.mp hm with _ _ hmsg
      exact .inl ⟨hmsg ▸ hr, hmsg ▸ hv⟩
    | fired => cases hm
    | ended _ ho => exact (hup ho (List.mem_singleton.mp hm)).elim
  | refused _ _ ho => exact (hup ho (List.mem_singleton.mp hm)).elim
  | aborted he _ _ _ _ _ hreq _ _ hend ho =>
    rcases List.mem_append.mp hm with hm | hm
    · obtain ⟨rfl, b, rfl⟩ := mem_requests hm
      obtain ⟨-, -⟩ := hend
      exact .inr (.inl ⟨_, he, rfl, rfl, hreq b⟩)
    · simp only [List.mem_cons, List.not_mem_nil, or_false] at hm
      rcases hm with hm | hm
      · exact (hup (onResponse_isUpper _ _) hm).elim
      · exact (hup ho hm).elim
  | opened he _ _ _ _ _ _ _ hreq =>
    obtain ⟨rfl, b, rfl⟩ := mem_requests hm
    exact .inr (.inl ⟨_, he, rfl, rfl, hreq b⟩)
  | kept ha hmap hS hh hj =>
    obtain ⟨c, hc, heq⟩ := List.mem_map.mp hm
    injection heq with h1 h2 h3
    subst h1 h2 h3
    exact .inr (.inr ⟨_, _, _, _, c, _, ha, hmap, hS, hh, hj, hc, rfl, by rw [if_pos rfl]⟩)
  | failed ha hmap hS hh hj =>
    rcases List.mem_append.mp hm with hm | hm
    · obtain ⟨c, hc, heq⟩ := List.mem_map.mp hm
      injection heq with h1 h2 h3
      subst h1 h2 h3
      exact .inr (.inr ⟨_, _, _, _, c, _, ha, hmap, hS, hh (List.ne_nil_of_mem hc), hj, hc, rfl,
        by rw [if_neg (by simp)]⟩)
    · exact (hup (onResponse_isUpper _ _) (List.mem_singleton.mp hm)).elim
  | orphaned => cases hm
  | submitted _ _ _ _ _ ho => exact (hup ho (List.mem_singleton.mp hm)).elim
  | timedOut => exact (hup (onResponse_isUpper _ _) (List.mem_singleton.mp hm)).elim
  | lost _ _ _ hl => exact (hup (hl.isUpper _ hm) rfl).elim

theorem request_of_verdict {m : EsMsg} {es} (h : m.verdict = some es) : m.request = none := by
  cases m <;> first | rfl | cases h

theorem sent_append (h : Move cfg s e s' outs) {hd p k id} (hs : Sent (tr ++ [⟨s, e, outs⟩]) hd p k id) :
    Sent tr hd p k id ∨
      (p = s.core.next ∧ s'.core.next = s.core.next + 1 ∧ id = s.core.sessionID ∧ ∃ r, e.asks = some r ∧ r.1 = k) := by
  obtain ⟨en, hen, o, ho, hr⟩ := hs
  rcases List.mem_append.mp hen with hen | hen
  · exact .inl ⟨en, hen, o, ho, hr⟩
  obtain rfl := List.mem_singleton.mp hen
  cases o with
  | upper => cases hr
  | es h₀ q m =>
    obtain ⟨r', hr', heq⟩ := Option.map_eq_some_iff.mp hr
    obtain ⟨rfl, rfl, rfl⟩ : h₀ = hd ∧ q = p ∧ r' = (k, id) := by simpa only [Prod.mk.injEq] using heq
    rcases h.es ho with ⟨hn, -⟩ | ⟨r, hask, hp, hn, hreq⟩ | ⟨a, S, cs, r, c, es, -, -, -, -, -, -, hmsg, -⟩
    · rw [hr'] at hn; cases hn
    · rw [hr'] at hreq
      obtain ⟨h1, h2⟩ := Prod.mk.inj (Option.some.inj hreq)
      exact .inr ⟨hp, hn, h2, r, hask, h1.symm⟩
    · rw [hmsg] at hr'
      cases c <;> cases hr'

end

end VProtocol.Client
