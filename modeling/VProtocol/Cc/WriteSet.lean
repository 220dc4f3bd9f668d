import VProtocol.Cc.Moves

/-!
# What a proposal writes

The transaction content holds one entry for each key that was set, with the value
of the last set and the version of the committer increased once. Value, version and
the set mark of an item are written by the answers of the committer and by the sets,
so the order of the two matters: an answer that comes after the set overwrites it.
-/

namespace VProtocol.Cc

abbrev History := List (Entry State Event Out)

/-! ## The history of one session -/

/-- What a step sets in session `p`: a set counts when it returns 0. -/
def setAt (path : Path) (p : Ptr) (en : Entry State Event Out) : Option (Blob × Blob) :=
  en.ev.sets.bind fun w =>
    if w.path = path ∧ en.pre.find w.ccSessionID = some p ∧ en.outs = [.ret 0] then some (w.key, w.value) else none

def createdAt (p : Ptr) (en : Entry State Event Out) : Option VbhOnCreateInformation :=
  en.ev.creates.bind fun c => if en.pre.find c.1 = some p ∧ en.outs = [.ret 0] then some c.2 else none

/-- The OK answer that comes for session `p`, whether or not it is taken for an item. -/
def replyAt (path : Path) (p : Ptr) (en : Entry State Event Out) : Option Reply :=
  en.ev.reply.filter fun r => r.path = path ∧ r.returnCode = okType ∧ en.pre.find r.ccSessionID = some p

def hitAt (path : Path) (p : Ptr) (en : Entry State Event Out) : Option Item :=
  (replyAt path p en).bind fun r => en.pre.hit r p

def lastSet (tr : History) (path : Path) (p : Ptr) (key : Blob) : Option Blob :=
  (tr.filterMap (setAt path p)).reverse.lookup key

def createdOf (tr : History) (p : Ptr) : List VbhOnCreateInformation := tr.filterMap (createdAt p)

/-- An answer of the committer for an item with this key. -/
def Returned (tr : History) (path : Path) (p : Ptr) (key : OrderGenerateKey) (version : UInt32) : Prop :=
  ∃ en ∈ tr, ∃ r ∈ replyAt path p en, r.sysIndex = key.systemID ∧ r.version = version

def Taken (tr : History) (path : Path) (p : Ptr) (key : Blob) : Prop :=
  ∃ en ∈ tr, ∃ it ∈ hitAt path p en, it.strKey = key

/-! ## The property -/

/-- The entry of a key: its value is the last one set, and its version comes right
after one that the committer returned for the key. -/
structure Written (cfg : Config) (tr : History) (path : Path) (p : Ptr) (strKey : Blob) (key : OrderGenerateKey)
    (version : UInt32) (value : Blob) : Prop where
  decode : cfg.decode path strKey = some key
  value : lastSet tr path p strKey = some value
  version : ∃ v, Returned tr path p key v ∧ version = increaseVersion v

/-- The content has one entry for each key that was set, and no others. An entry of a user
has the decoded key only, so `usr` lists the keys as they were given. -/
structure WriteSet (cfg : Config) (tr : History) (p : Ptr) (w : TransContent) : Prop where
  users : ∃ usr : List Blob, usr.Nodup ∧ (∀ k, k ∈ usr ↔ (lastSet tr .user p k).isSome) ∧
    List.Forall₂ (fun k u => Written cfg tr .user p k u.genUserKey u.version u.userInfo) usr w.vecUpdateUser
  infos : (w.vecUpdateInfo.map (·.key)).Nodup ∧
    (∀ k, k ∈ w.vecUpdateInfo.map (·.key) ↔ (lastSet tr .info p k).isSome) ∧
    ∀ i ∈ w.vecUpdateInfo, ∃ key, Written cfg tr .info p i.key key i.version i.value
  created : w.vecOnCreateInfo = createdOf tr p ∧ (w.vecOnCreateInfo.map (·.key)).Nodup

def WritesRight (cfg : Config) (tr : History) : Prop :=
  ∀ tr₁ en tr₂, tr = tr₁ ++ en :: tr₂ → ∀ h result p, en.ev = .call (.porposalRsp okType h result true) →
    en.pre.find h = some p → ∃ S w, en.pre.session p = some S ∧ WriteSet cfg tr₁ p w ∧
      w.proposal = S.proposal ∧ w.transProcessResult = result ∧
      en.outs = [.es S.esAddr (.submitProposalRsp okType S.esSessionID (some w)), .ret 0]

/-- An answer that is taken for an item is the answer to its key, and comes before the
item is set; the first set of an item comes after such an answer. -/
def ReadFirst (tr : History) (s : State) (e : Event) : Prop :=
  (∀ r ∈ e.reply, ∀ p ∈ s.find r.ccSessionID, ∀ it ∈ s.hit r p,
    it.setted = false ∧ r.sysIndex = it.key.systemID) ∧
  ∀ w ∈ e.sets, ∀ p ∈ s.find w.ccSessionID, ∀ S ∈ s.session p,
    ∀ it ∈ (S.lst w.path).find? (·.strKey = w.key), it.setted = false → Taken tr w.path p w.key

instance (tr : History) (path : Path) (p : Ptr) (key : Blob) : Decidable (Taken tr path p key) := by
  delta Taken; infer_instance

instance (tr : History) (s : State) (e : Event) : Decidable (ReadFirst tr s e) := by
  delta ReadFirst; infer_instance

/-! ## The history over a step -/

section
variable {cfg : Config} {s s' : State} {e : Event} {outs : List Out} {tr : History} {path : Path} {p q : Ptr}

theorem lastSet_append {en : Entry State Event Out} {key : Blob} : lastSet (tr ++ [en]) path p key =
    if ((setAt path p en).map Prod.fst) = some key then (setAt path p en).map Prod.snd else lastSet tr path p key := by
  unfold lastSet
  rw [List.filterMap_append, List.reverse_append]
  cases h : setAt path p en with
  | none => simp [h]
  | some x =>
    obtain ⟨k, v⟩ := x
    by_cases hk : key = k
    · simp [h, hk]
    · simp [h, List.lookup_cons, beq_eq_false_iff_ne.mpr hk, Ne.symm hk]

theorem lastSet_quiet {en : Entry State Event Out} (h : setAt path p en = none) (key : Blob) :
    lastSet (tr ++ [en]) path p key = lastSet tr path p key := by
  rw [lastSet_append, h]
  simp

theorem createdOf_append {en : Entry State Event Out} :
    createdOf (tr ++ [en]) p = createdOf tr p ++ (createdAt p en).toList := by
  unfold createdOf
  rw [List.filterMap_append]
  cases h : createdAt p en with
  | none => simp [h]
  | some c => simp [h]

theorem Returned.append {en : Entry State Event Out} {key : OrderGenerateKey} {v : UInt32}
    (h : Returned tr path p key v) : Returned (tr ++ [en]) path p key v := by
  obtain ⟨en', hen, hr⟩ := h
  exact ⟨en', List.mem_append_left _ hen, hr⟩

theorem taken_append {en : Entry State Event Out} {key : Blob} :
    Taken (tr ++ [en]) path p key ↔ Taken tr path p key ∨ ∃ it ∈ hitAt path p en, it.strKey = key := by
  unfold Taken
  simp only [List.mem_append, List.mem_singleton, or_and_right, exists_or, exists_eq_left]

/-! ## One list of items over a step -/

/-- How a step changes the items that session `p` has on a path, and what the step means for them. -/
inductive Turn (cfg : Config) (path : Path) (p : Ptr) (en : Entry State Event Out) : List Item → List Item → Prop
  | same {l} : setAt path p en = none → hitAt path p en = none → Turn cfg path p en l l
  | got {l key genKey} : setAt path p en = none → hitAt path p en = none → l.find? (·.strKey = key) = none →
      cfg.decode path key = some genKey → Turn cfg path p en l (l ++ [{ key := genKey, strKey := key }])
  | set {l key value it} : setAt path p en = some (key, value) → hitAt path p en = none →
      l.find? (·.strKey = key) = some it → Turn cfg path p en l (updateFirst (·.strKey = key) (Item.set value) l)
  | answered {l r it} : setAt path p en = none → replyAt path p en = some r → hitAt path p en = some it →
      l.find? (·.key.systemID = r.matched) = some it →
      Turn cfg path p en l (updateFirst (·.key.systemID = r.matched) (Item.answered r) l)

inductive Creation (p : Ptr) (en : Entry State Event Out) :
    List VbhOnCreateInformation → List VbhOnCreateInformation → Prop
  | same {l} : createdAt p en = none → Creation p en l l
  | created {l c} : createdAt p en = some c → (∀ d ∈ l, d.key ≠ c.key) → Creation p en l (l ++ [c])

theorem setAt_plain {en : Entry State Event Out} (h : en.ev.sets = none) : setAt path p en = none := by
  unfold setAt; rw [h]; rfl

theorem setAt_quiet {en : Entry State Event Out} (h : en.ev.sets ≠ none → en.outs ≠ [.ret 0]) :
    setAt path p en = none := by
  unfold setAt
  cases hw : en.ev.sets with
  | none => rfl
  | some w => exact if_neg fun hret => h (by simp [hw]) hret.2.2

theorem createdAt_quiet {en : Entry State Event Out} (h : en.ev.creates ≠ none → en.outs ≠ [.ret 0]) :
    createdAt p en = none := by
  unfold createdAt
  cases hc : en.ev.creates with
  | none => rfl
  | some c => exact if_neg fun hret => h (by simp [hc]) hret.2

theorem setAt_eq {w : Setting} (hw : e.sets = some w) (hp : s.find w.ccSessionID = some p) :
    setAt path q ⟨s, e, [.ret 0]⟩ = if w.path = path ∧ p = q then some (w.key, w.value) else none := by
  unfold setAt
  rw [hw]
  simp [hp]

theorem createdAt_eq {h c} (hc : e.creates = some (h, c)) (hp : s.find h = some p) :
    createdAt q ⟨s, e, [.ret 0]⟩ = if p = q then some c else none := by
  unfold createdAt
  rw [hc]
  simp [hp]

theorem hitAt_plain {en : Entry State Event Out} (h : en.ev.reply = none) : hitAt path p en = none := by
  unfold hitAt replyAt; rw [h]; rfl

theorem createdAt_plain {en : Entry State Event Out} (h : en.ev.creates = none) : createdAt p en = none := by
  unfold createdAt; rw [h]; rfl

theorem reply_of_sets {w : Setting} (h : e.sets = some w) : e.reply = none := by
  cases e <;> first | rfl | cases h

theorem sets_of_reply {r : Reply} (h : e.reply = some r) : e.sets = none := by
  cases e <;> first | rfl | cases h

theorem plain_of_creates {c} (h : e.creates = some c) : e.sets = none ∧ e.reply = none := by
  cases e with
  | call c => cases c <;> first | exact ⟨rfl, rfl⟩ | cases h
  | _ => cases h

theorem replyAt_eq {r : Reply} (h : e.reply = some r) : replyAt path p ⟨s, e, outs⟩ =
    if r.path = path ∧ r.returnCode = okType ∧ s.find r.ccSessionID = some p then some r else none := by
  unfold replyAt
  rw [h, Option.filter_some]
  simp only [decide_eq_true_eq]

theorem hitAt_eq {r : Reply} (h : e.reply = some r) :
    hitAt path p ⟨s, e, outs⟩ = if r.path = path then s.hit r p else none := by
  unfold hitAt
  rw [replyAt_eq h]
  by_cases hr : r.returnCode = okType ∧ s.find r.ccSessionID = some p
  · by_cases hp : r.path = path
    · rw [if_pos ⟨hp, hr⟩, if_pos hp]; rfl
    · rw [if_neg fun h => hp h.1, if_neg hp]; rfl
  · rw [if_neg fun h => hr h.2]
    unfold State.hit
    rw [if_neg hr]
    split <;> rfl

theorem creates_of_sets {w : Setting} (h : e.sets = some w) : e.creates = none := by
  cases e with
  | call c => cases c <;> first | rfl | cases h
  | _ => cases h

theorem creates_of_reply {r : Reply} (h : e.reply = some r) : e.creates = none := by
  cases e <;> first | rfl | cases h

theorem Event.Plain.turn (h : e.Plain) {l} : Turn cfg path q ⟨s, e, outs⟩ l l :=
  .same (setAt_plain h.sets) (hitAt_plain h.reply)

theorem Event.Plain.creation (h : e.Plain) {l} : Creation q ⟨s, e, outs⟩ l l := .same (createdAt_plain h.creates)

theorem put_session {S₁ S' : ProcessProposalSession} (h : (s.put p (.processProposal S₁)).session q = some S') :
    q = p ∧ S' = S₁ ∨ q ≠ p ∧ s.session q = some S' := by
  rw [session_put] at h
  split at h
  · exact .inl ⟨‹_›, (Option.some.inj h).symm⟩
  · exact .inr ⟨‹_›, h⟩

theorem turn_put {en : Entry State Event Out} {path' l'} {S S' : ProcessProposalSession} (hS : s.session p = some S)
    (hS' : (s.put p (.processProposal (S.setLst path' l'))).session q = some S') (hc : createdAt q en = none)
    (hself : Turn cfg path' p en (S.lst path') l')
    (hother : path ≠ path' ∨ q ≠ p → setAt path q en = none ∧ hitAt path q en = none) :
    ∃ S, s.session q = some S ∧ Turn cfg path q en (S.lst path) (S'.lst path) ∧
      Creation q en S.lstCreatedInfo S'.lstCreatedInfo := by
  rcases put_session hS' with ⟨rfl, rfl⟩ | ⟨hq, hS'⟩
  · refine ⟨S, hS, ?_, by rw [S.lstCreatedInfo_setLst]; exact .same hc⟩
    by_cases hpath : path = path'
    · subst hpath
      rw [S.lst_setLst_self]
      exact hself
    · obtain ⟨hs, hh⟩ := hother (.inl hpath)
      rw [S.lst_setLst_ne hpath]
      exact .same hs hh
  · obtain ⟨hs, hh⟩ := hother (.inr hq)
    exact ⟨S', hS', .same hs hh, .same hc⟩

/-- What the step makes of the lists of the session at `q`. -/
def Took (cfg : Config) (path : Path) (q : Ptr) (s : State) (e : Event) (outs : List Out) (S' : ProcessProposalSession) :
    Prop :=
  ∃ S, s.session q = some S ∧ Turn cfg path q ⟨s, e, outs⟩ (S.lst path) (S'.lst path) ∧
    Creation q ⟨s, e, outs⟩ S.lstCreatedInfo S'.lstCreatedInfo

theorem Event.Plain.took (h : e.Plain) {S' : ProcessProposalSession} (hS' : s.session q = some S') :
    Took cfg path q s e outs S' :=
  ⟨S', hS', h.turn, h.creation⟩

theorem took_set {w : Setting} {S S' : ProcessProposalSession} {it : Item} (hw : e.sets = some w)
    (hp : s.find w.ccSessionID = some p) (hS : s.session p = some S)
    (hit : (S.lst w.path).find? (·.strKey = w.key) = some it)
    (hS' : (s.put p (.processProposal (S.setLst w.path
      (updateFirst (·.strKey = w.key) (Item.set w.value) (S.lst w.path))))).session q = some S') :
    Took cfg path q s e [.ret 0] S' := by
  have hnohit : ∀ {path q}, hitAt path q ⟨s, e, [.ret 0]⟩ = none := hitAt_plain (reply_of_sets hw)
  refine turn_put hS hS' (createdAt_plain (creates_of_sets hw)) (.set ?_ hnohit hit) fun hne => ⟨?_, hnohit⟩
  · rw [setAt_eq hw hp, if_pos ⟨rfl, rfl⟩]
  · rw [setAt_eq hw hp, if_neg fun h => ?_]
    rcases hne with hne | hne
    · exact hne h.1.symm
    · exact hne h.2.symm

theorem took_created {h : UInt64} {c : VbhOnCreateInformation} {S S' : ProcessProposalSession}
    (hc : e.creates = some (h, c))
    (hp : s.find h = some p) (hS : s.session p = some S) (hnew : ∀ d ∈ S.lstCreatedInfo, d.key ≠ c.key)
    (hS' : (s.put p (.processProposal { S with lstCreatedInfo := S.lstCreatedInfo ++ [c] })).session q = some S') :
    Took cfg path q s e [.ret 0] S' := by
  obtain ⟨hsets, hreply⟩ := plain_of_creates hc
  rcases put_session hS' with ⟨rfl, rfl⟩ | ⟨hq, hS'⟩
  · refine ⟨S, hS, ?_, .created (by rw [createdAt_eq hc hp, if_pos rfl]) hnew⟩
    cases path <;> exact .same (setAt_plain hsets) (hitAt_plain hreply)
  · refine ⟨S', hS', .same (setAt_plain hsets) (hitAt_plain hreply), .same ?_⟩
    rw [createdAt_eq hc hp, if_neg fun h => hq h.symm]

theorem took_answered {r : Reply} {S S' : ProcessProposalSession} {it : Item} (hr : e.reply = some r)
    (hit : s.hit r p = some it) (hS : s.session p = some S)
    (hS' : (s.put p (.processProposal (S.setLst r.path
      (updateFirst (·.key.systemID = r.matched) (Item.answered r) (S.lst r.path))))).session q = some S') :
    Took cfg path q s e outs S' := by
  obtain ⟨hok, hp, S₁, hS₁, hfind⟩ := hit_eq_some.mp hit
  obtain rfl := Option.some.inj (hS.symm.trans hS₁)
  have hnoset : ∀ {path q outs}, setAt path q ⟨s, e, outs⟩ = none := setAt_plain (sets_of_reply hr)
  refine turn_put hS hS' (createdAt_plain (creates_of_reply hr)) (.answered hnoset ?_ ?_ hfind) fun hne => ⟨hnoset, ?_⟩
  · rw [replyAt_eq hr, if_pos ⟨rfl, hok, hp⟩]
  · rw [hitAt_eq hr, if_pos rfl, hit]
  · rw [hitAt_eq hr, ite_eq_right_iff]
    intro hpath
    refine Option.eq_none_iff_forall_ne_some.mpr fun x hx => ?_
    obtain ⟨-, hq, -⟩ := hit_eq_some.mp hx
    rcases hne with hne | hne
    · exact hne hpath.symm
    · exact hne (Option.some.inj (hp.symm.trans hq)).symm

/-- A session is new with empty lists, or each of its lists took a turn. -/
theorem Move.turn (path : Path) (h : Move cfg s e s' outs) {S' : ProcessProposalSession}
    (hS' : s'.session q = some S') :
    (q = s.next ∧ s'.next = q + 1 ∧ S'.lst path = [] ∧ S'.lstCreatedInfo = []) ∨ Took cfg path q s e outs S' := by
  cases h with
  | registered he =>
    subst he
    have hq : q ≠ s.next := by
      intro hq
      subst hq
      simp [onDscMsgRegistUserEsCcReq, State.session, State.put, State.setDscTimer] at hS'
    refine .inr (Event.Plain.took ⟨rfl, rfl, rfl⟩ ?_)
    simpa [onDscMsgRegistUserEsCcReq, State.session, State.put, State.setDscTimer, hq] using hS'
  | proposed he =>
    subst he
    by_cases hq : q = s.next
    · subst hq
      refine .inl ⟨rfl, rfl, ?_⟩
      simp only [onDscMsgSubmitProposalEsCcReq, State.session, State.put, State.setDscTimer, Function.update_self,
        Option.some.injEq] at hS'
      subst hS'
      exact ⟨by cases path <;> rfl, rfl⟩
    · refine .inr (Event.Plain.took ⟨rfl, rfl, rfl⟩ ?_)
      simpa [onDscMsgSubmitProposalEsCcReq, State.session, State.put, State.setDscTimer, hq] using hS'
  | returned he =>
    subst he
    exact .inr (Event.Plain.took ⟨rfl, rfl, rfl⟩ hS')
  | quiet hset hcreate hhit =>
    refine .inr ⟨S', hS', .same (setAt_quiet hset) ?_, .same (createdAt_quiet hcreate)⟩
    cases hr : e.reply with
    | none => exact hitAt_plain hr
    | some r =>
      rw [hitAt_eq hr, hhit r q hr]
      split <;> rfl
  | got hplain hp hS hnone hdec =>
    refine .inr (turn_put hS hS' (createdAt_plain hplain.creates) ?_ fun _ => ⟨?_, ?_⟩)
    · exact .got (setAt_plain hplain.sets) (hitAt_plain hplain.reply) hnone hdec
    · exact setAt_plain hplain.sets
    · exact hitAt_plain hplain.reply
  | set hw hp hS hit => exact .inr (took_set hw hp hS hit hS')
  | created hc hp hS hnew => exact .inr (took_created hc hp hS hnew hS')
  | answered hr hit hS => exact .inr (took_answered hr hit hS hS')
  | @responded code h result encodes p S he hp hS =>
    subst he
    refine .inr (Event.Plain.took ⟨rfl, rfl, rfl⟩ ?_)
    have hq : q ≠ p := by
      intro hq
      subst hq
      simp [State.session, State.free] at hS'
    simpa [State.session, State.free, State.cancelDscTimer, State.eraseProcessProposalKey, hq] using hS'
  | @ended p _ _ hplain hheap _ _ _ =>
    refine .inr (hplain.took ?_)
    unfold State.session at hS' ⊢
    rw [hheap] at hS'
    by_cases hq : q = p
    · subst hq; simp at hS'
    · simpa [hq] using hS'

theorem Move.next_le (h : Move cfg s e s' outs) : s.next ≤ s'.next := by
  cases h with
  | registered => exact Nat.le_succ _
  | proposed => exact Nat.le_succ _
  | ended _ _ hnext => exact Nat.le_of_eq hnext.symm
  | _ => exact Nat.le_refl _

theorem Move.untouched (h : Move cfg s e s' outs) (hp : s.session p = none) :
    createdAt p ⟨s, e, outs⟩ = none ∧ ∀ path, setAt path p ⟨s, e, outs⟩ = none ∧ hitAt path p ⟨s, e, outs⟩ = none := by
  have hhit : ∀ path, hitAt path p ⟨s, e, outs⟩ = none := by
    intro path
    cases hr : e.reply with
    | none => exact hitAt_plain hr
    | some r =>
      rw [hitAt_eq hr, ite_eq_right_iff]
      intro _
      refine Option.eq_none_iff_forall_ne_some.mpr fun it hit => ?_
      obtain ⟨-, -, S, hS, -⟩ := hit_eq_some.mp hit
      cases hp.symm.trans hS
  have hset : e.sets = none → ∀ path, setAt path p ⟨s, e, outs⟩ = none := fun h _ => setAt_plain h
  cases h with
  | registered he => subst he; exact ⟨rfl, fun path => ⟨rfl, hhit path⟩⟩
  | proposed he => subst he; exact ⟨rfl, fun path => ⟨rfl, hhit path⟩⟩
  | returned he => subst he; exact ⟨rfl, fun path => ⟨rfl, hhit path⟩⟩
  | quiet hsets hcreates => exact ⟨createdAt_quiet hcreates, fun path => ⟨setAt_quiet hsets, hhit path⟩⟩
  | got hplain => exact ⟨createdAt_plain hplain.creates, fun path => ⟨hset hplain.sets path, hhit path⟩⟩
  | set hw hq hS =>
    refine ⟨createdAt_plain (creates_of_sets hw), fun path => ⟨?_, hhit path⟩⟩
    rw [setAt_eq hw hq]
    apply if_neg
    intro h
    obtain ⟨-, rfl⟩ := h
    cases hp.symm.trans hS
  | created hc hq hS =>
    refine ⟨?_, fun path => ⟨hset (plain_of_creates hc).1 path, hhit path⟩⟩
    rw [createdAt_eq hc hq]
    apply if_neg
    intro h
    subst h
    cases hp.symm.trans hS
  | answered hr =>
    exact ⟨createdAt_plain (creates_of_reply hr), fun path => ⟨hset (sets_of_reply hr) path, hhit path⟩⟩
  | responded he => subst he; exact ⟨rfl, fun path => ⟨rfl, hhit path⟩⟩
  | ended hplain => exact ⟨createdAt_plain hplain.creates, fun path => ⟨hset hplain.sets path, hhit path⟩⟩

/-! ## The items agree with the history -/

structure ItemInv (cfg : Config) (tr : History) (path : Path) (p : Ptr) (it : Item) : Prop where
  decode : cfg.decode path it.strKey = some it.key
  unset : it.setted = false → lastSet tr path p it.strKey = none
  read : it.setted = false → Taken tr path p it.strKey → Returned tr path p it.key it.version
  set : it.setted = true → Written cfg tr path p it.strKey it.key it.version it.value

structure ListInv (cfg : Config) (tr : History) (path : Path) (p : Ptr) (l : List Item) : Prop where
  nodup : (l.map (·.strKey)).Nodup
  item : ∀ it ∈ l, ItemInv cfg tr path p it
  known : ∀ key, (lastSet tr path p key).isSome → key ∈ l.map (·.strKey)
  taken : ∀ key, Taken tr path p key → key ∈ l.map (·.strKey)

theorem Written.append {en : Entry State Event Out} {strKey key version value}
    (h : Written cfg tr path p strKey key version value) (hset : (setAt path p en).map Prod.fst ≠ some strKey) :
    Written cfg (tr ++ [en]) path p strKey key version value := by
  obtain ⟨v, hv, hver⟩ := h.version
  refine ⟨h.decode, ?_, v, hv.append, hver⟩
  rw [lastSet_append, if_neg hset]
  exact h.value

theorem ItemInv.append {en : Entry State Event Out} {it : Item} (h : ItemInv cfg tr path p it)
    (hset : (setAt path p en).map Prod.fst ≠ some it.strKey) (hhit : ∀ x ∈ hitAt path p en, x.strKey ≠ it.strKey) :
    ItemInv cfg (tr ++ [en]) path p it := by
  refine ⟨h.decode, fun hu => ?_, fun hu ht => ?_, fun hs => (h.set hs).append hset⟩
  · rw [lastSet_append, if_neg hset]
    exact h.unset hu
  · rcases taken_append.mp ht with ht | ⟨x, hx, heq⟩
    · exact (h.read hu ht).append
    · exact absurd heq (hhit x hx)

theorem taken_of_append {en : Entry State Event Out} {key : Blob} (hh : hitAt path p en = none)
    (h : Taken (tr ++ [en]) path p key) : Taken tr path p key := by
  rcases taken_append.mp h with h | ⟨x, hx, -⟩
  · exact h
  · rw [hh] at hx
    cases hx

section
variable {en : Entry State Event Out} {l : List Item} {key : Blob}

theorem ListInv.same (hi : ListInv cfg tr path p l) (hs : setAt path p en = none) (hh : hitAt path p en = none) :
    ListInv cfg (tr ++ [en]) path p l where
  nodup := hi.nodup
  item it hit := (hi.item it hit).append (by simp [hs]) (by simp [hh])
  known key hk := hi.known key (lastSet_quiet hs key ▸ hk)
  taken key hk := hi.taken key (taken_of_append hh hk)

theorem ListInv.got {genKey} (hi : ListInv cfg tr path p l) (hnone : l.find? (·.strKey = key) = none)
    (hdec : cfg.decode path key = some genKey) :
    ListInv cfg tr path p (l ++ [{ key := genKey, strKey := key }]) := by
  have hnot : key ∉ l.map (·.strKey) := find?_key_none hnone
  refine ⟨?_, fun it hit => ?_, fun k hk => ?_, fun k hk => ?_⟩
  · rw [List.map_append]
    refine List.nodup_append.mpr ⟨hi.nodup, List.nodup_singleton _, ?_⟩
    intro k hk k' hk' heq
    subst heq
    have hkey : k = key := List.mem_singleton.mp hk'
    exact hnot (hkey ▸ hk)
  · rcases List.mem_append.mp hit with hit | hit
    · exact hi.item it hit
    · obtain rfl := List.mem_singleton.mp hit
      refine ⟨hdec, fun _ => ?_, fun _ h => absurd (hi.taken key h) hnot, nofun⟩
      cases hl : lastSet tr path p key with
      | none => rfl
      | some v => exact absurd (hi.known key (by rw [hl]; rfl)) hnot
  · rw [List.map_append]
    exact List.mem_append_left _ (hi.known k hk)
  · rw [List.map_append]
    exact List.mem_append_left _ (hi.taken k hk)

theorem ListInv.set {value : Blob} {it : Item} (hi : ListInv cfg tr path p l) (hs : setAt path p en = some (key, value))
    (hh : hitAt path p en = none) (hfind : l.find? (·.strKey = key) = some it)
    (hread : it.setted = false → Taken tr path p key) :
    ListInv cfg (tr ++ [en]) path p (updateFirst (·.strKey = key) (Item.set value) l) := by
  obtain ⟨hmem, rfl⟩ := find?_key_some hfind
  have hmap : (updateFirst (·.strKey = it.strKey) (Item.set value) l).map (·.strKey) = l.map (·.strKey) :=
    map_updateFirst _ fun _ => rfl
  have hitem := hi.item it hmem
  refine ⟨by rw [hmap]; exact hi.nodup, fun x hx => ?_, fun k hk => ?_, fun k hk => ?_⟩
  · rcases (mem_updateFirst hi.nodup hfind).mp hx with rfl | ⟨hx, hne⟩
    · refine ⟨hitem.decode, nofun, nofun, fun _ => ⟨hitem.decode, ?_, ?_⟩⟩
      · rw [lastSet_append, hs]
        exact if_pos rfl
      · cases hit : it.setted with
        | true =>
          obtain ⟨v, hv, hver⟩ := (hitem.set hit).version
          exact ⟨v, hv.append, by simp only [Item.set, hit, if_true, hver]⟩
        | false =>
          have hret := hitem.read hit (hread hit)
          exact ⟨it.version, hret.append, by simp [Item.set, hit]⟩
    · exact (hi.item x hx).append (by simpa [hs] using Ne.symm hne) (by simp [hh])
  · rw [hmap]
    rw [lastSet_append, hs] at hk
    split at hk
    · rename_i hkey
      obtain rfl : it.strKey = k := by simpa using hkey
      exact List.mem_map_of_mem hmem
    · exact hi.known k hk
  · rw [hmap]
    exact hi.taken k (taken_of_append hh hk)

theorem ListInv.answered {r : Reply} {it : Item} (hi : ListInv cfg tr path p l) (hs : setAt path p en = none)
    (hr : replyAt path p en = some r) (hh : hitAt path p en = some it)
    (hfind : l.find? (·.key.systemID = r.matched) = some it) (hun : it.setted = false)
    (hsys : r.sysIndex = it.key.systemID) :
    ListInv cfg (tr ++ [en]) path p (updateFirst (·.key.systemID = r.matched) (Item.answered r) l) := by
  have hmem := List.mem_of_find?_eq_some hfind
  have hmap : (updateFirst (·.key.systemID = r.matched) (Item.answered r) l).map (·.strKey) = l.map (·.strKey) :=
    map_updateFirst _ fun _ => rfl
  refine ⟨by rw [hmap]; exact hi.nodup, fun x hx => ?_, fun k hk => ?_, fun k hk => ?_⟩
  · rcases (mem_updateFirst hi.nodup hfind).mp hx with rfl | ⟨hx, hne⟩
    · refine ⟨(hi.item it hmem).decode, fun _ => ?_, fun _ _ => ?_, fun h => ?_⟩
      · rw [lastSet_quiet hs]
        exact (hi.item it hmem).unset hun
      · exact ⟨en, List.mem_append_right _ List.mem_cons_self, r, hr, hsys, rfl⟩
      · exact absurd (hun.symm.trans h) (by decide)
    · apply (hi.item x hx).append (by simp [hs])
      intro y hy heq
      obtain rfl := Option.some.inj (hh.symm.trans hy)
      exact hne heq.symm
  · rw [hmap]
    rw [lastSet_quiet hs] at hk
    exact hi.known k hk
  · rw [hmap]
    rcases taken_append.mp hk with hk | ⟨x, hx, rfl⟩
    · exact hi.taken k hk
    · obtain rfl := Option.some.inj (hh.symm.trans hx)
      exact List.mem_map_of_mem hmem

end

theorem ListInv.turn {en : Entry State Event Out} {l l' : List Item} (hi : ListInv cfg tr path p l)
    (ht : Turn cfg path p en l l')
    (hset : ∀ key value it, setAt path p en = some (key, value) → l.find? (·.strKey = key) = some it →
      it.setted = false → Taken tr path p key)
    (hans : ∀ r it, replyAt path p en = some r → hitAt path p en = some it →
      it.setted = false ∧ r.sysIndex = it.key.systemID) : ListInv cfg (tr ++ [en]) path p l' := by
  cases ht with
  | same hs hh => exact hi.same hs hh
  | got hs hh hnone hdec => exact (hi.got hnone hdec).same hs hh
  | set hs hh hfind => exact hi.set hs hh hfind (hset _ _ _ hs hfind)
  | answered hs hr hh hfind =>
    obtain ⟨hun, hsys⟩ := hans _ _ hr hh
    exact hi.answered hs hr hh hfind hun hsys

/-! ## The sessions agree with the history -/

structure SessionInv (cfg : Config) (tr : History) (p : Ptr) (S : ProcessProposalSession) : Prop where
  items : ∀ path, ListInv cfg tr path p (S.lst path)
  created : S.lstCreatedInfo = createdOf tr p
  keys : (S.lstCreatedInfo.map (·.key)).Nodup

structure HistInv (cfg : Config) (tr : History) (s : State) : Prop where
  session : ∀ p S, s.session p = some S → SessionInv cfg tr p S
  fresh : ∀ p, s.next ≤ p → s.session p = none
  untouched : ∀ p, s.next ≤ p → ∀ en ∈ tr,
    createdAt p en = none ∧ ∀ path, setAt path p en = none ∧ hitAt path p en = none

theorem SessionInv.new {S : ProcessProposalSession} (hl : ∀ path, S.lst path = []) (hc : S.lstCreatedInfo = [])
    (hu : ∀ en ∈ tr, createdAt p en = none ∧ ∀ path, setAt path p en = none ∧ hitAt path p en = none) :
    SessionInv cfg tr p S := by
  refine ⟨fun path => ?_, ?_, by rw [hc]; exact List.nodup_nil⟩
  · rw [hl]
    refine ⟨List.nodup_nil, nofun, fun key hk => ?_, fun key hk => ?_⟩
    · have hnil : tr.filterMap (setAt path p) = [] := List.filterMap_eq_nil_iff.mpr fun en hen => ((hu en hen).2 path).1
      unfold lastSet at hk
      rw [hnil] at hk
      cases hk
    · obtain ⟨en, hen, it, hit, -⟩ := hk
      rw [((hu en hen).2 path).2] at hit
      cases hit
  · rw [hc]
    exact (List.filterMap_eq_nil_iff.mpr fun en hen => (hu en hen).1).symm

theorem SessionInv.creation {en : Entry State Event Out} {l l' : List VbhOnCreateInformation} (h : Creation p en l l')
    (hl : l = createdOf tr p) (hn : (l.map (·.key)).Nodup) :
    l' = createdOf (tr ++ [en]) p ∧ (l'.map (·.key)).Nodup := by
  rw [createdOf_append, ← hl]
  cases h with
  | same hc =>
    rw [hc]
    exact ⟨(List.append_nil _).symm, hn⟩
  | created hc hnew =>
    rw [hc]
    refine ⟨rfl, ?_⟩
    rw [List.map_append]
    refine List.nodup_append.mpr ⟨hn, List.nodup_singleton _, ?_⟩
    intro k hk k' hk'
    obtain ⟨d, hd, rfl⟩ := List.mem_map.mp hk
    rw [List.map_singleton, List.mem_singleton] at hk'
    rw [hk']
    exact hnew d hd

theorem ReadFirst.list (path : Path) (outs : List Out) (hc : ReadFirst tr s e) {S : ProcessProposalSession}
    (hS : s.session p = some S) :
    (∀ key value it, setAt path p ⟨s, e, outs⟩ = some (key, value) → (S.lst path).find? (·.strKey = key) = some it →
      it.setted = false → Taken tr path p key) ∧
    (∀ r it, replyAt path p ⟨s, e, outs⟩ = some r → hitAt path p ⟨s, e, outs⟩ = some it →
      it.setted = false ∧ r.sysIndex = it.key.systemID) := by
  constructor
  · intro key value it hset hfind
    obtain ⟨w, hw, hif⟩ := Option.bind_eq_some_iff.mp hset
    split at hif
    · rename_i hwp
      obtain ⟨rfl, hp, -⟩ := hwp
      obtain ⟨rfl, rfl⟩ := Prod.mk.inj (Option.some.inj hif)
      exact hc.2 w hw p hp S hS it hfind
    · cases hif
  · intro r it hr hit
    unfold hitAt at hit
    rw [hr] at hit
    obtain ⟨he, hif⟩ := Option.filter_eq_some_iff.mp hr
    exact hc.1 r he p (by simpa using (of_decide_eq_true hif).2.2) it hit

theorem HistInv.step (hi : HistInv cfg tr s) (hm : Move cfg s e s' outs) (hc : ReadFirst tr s e) :
    HistInv cfg (tr ++ [⟨s, e, outs⟩]) s' := by
  have hun : ∀ p, s.next ≤ p → ∀ en ∈ tr ++ [⟨s, e, outs⟩],
      createdAt p en = none ∧ ∀ path, setAt path p en = none ∧ hitAt path p en = none := by
    intro p hp en hen
    rcases List.mem_append.mp hen with hen | hen
    · exact hi.untouched p hp en hen
    · rw [List.mem_singleton.mp hen]
      exact hm.untouched (hi.fresh p hp)
  refine ⟨fun p S' hS' => ?_, fun p hp => ?_, fun p hp => hun p (Nat.le_trans hm.next_le hp)⟩
  · rcases hm.turn .user hS' with ⟨rfl, -, hu, hcr⟩ | ⟨S, hS, hu, hcr⟩
    · refine .new (fun path => ?_) hcr (hun _ (Nat.le_refl _))
      rcases hm.turn path hS' with ⟨-, -, hl, -⟩ | ⟨S, hS, -, -⟩
      · exact hl
      · rw [hi.fresh _ (Nat.le_refl _)] at hS
        cases hS
    · have hold := hi.session p S hS
      obtain ⟨hcr, hkeys⟩ := SessionInv.creation hcr hold.created hold.keys
      refine ⟨fun path => ?_, hcr, hkeys⟩
      rcases hm.turn path hS' with ⟨rfl, -, -, -⟩ | ⟨S₂, hS₂, ht, -⟩
      · rw [hi.fresh _ (Nat.le_refl _)] at hS
        cases hS
      · obtain rfl := Option.some.inj (hS.symm.trans hS₂)
        obtain ⟨hset, hans⟩ := hc.list path outs hS
        exact (hold.items path).turn ht hset hans
  · cases hS : s'.session p with
    | none => rfl
    | some S' =>
      rcases hm.turn .user hS with ⟨rfl, hn, -, -⟩ | ⟨S, hS', -, -⟩
      · rw [hn] at hp
        exact absurd hp (Nat.not_succ_le_self _)
      · rw [hi.fresh p (Nat.le_trans hm.next_le hp)] at hS'
        cases hS'

theorem run_histInv (h : Run (step cfg) {} ReadFirst tr s) : HistInv cfg tr s := by
  apply h.invariant (HistInv cfg) ⟨(fun _ _ h => by cases h), fun _ _ => rfl, nofun⟩
  intro tr s e s' outs _ hi hc hst
  exact hi.step (step_move hst) hc

/-! ## The content -/

theorem ListInv.written {l : List Item} (hi : ListInv cfg tr path p l) :
    ((l.filter (·.setted)).map (·.strKey)).Nodup ∧
    (∀ key, key ∈ (l.filter (·.setted)).map (·.strKey) ↔ (lastSet tr path p key).isSome) ∧
    ∀ it ∈ l.filter (·.setted), Written cfg tr path p it.strKey it.key it.version it.value := by
  have hw : ∀ it ∈ l.filter (·.setted), Written cfg tr path p it.strKey it.key it.version it.value := by
    intro it hit
    obtain ⟨hit, hset⟩ := List.mem_filter.mp hit
    exact (hi.item it hit).set hset
  refine ⟨hi.nodup.sublist (List.filter_sublist.map _), fun key => ⟨fun hk => ?_, fun hk => ?_⟩, hw⟩
  · obtain ⟨it, hit, rfl⟩ := List.mem_map.mp hk
    rw [(hw it hit).value]
    rfl
  · obtain ⟨it, hit, rfl⟩ := List.mem_map.mp (hi.known key hk)
    refine List.mem_map_of_mem (List.mem_filter.mpr ⟨hit, ?_⟩)
    cases hset : it.setted with
    | true => rfl
    | false =>
      rw [(hi.item it hit).unset hset] at hk
      cases hk

theorem SessionInv.writeSet {S : ProcessProposalSession} (hi : SessionInv cfg tr p S) (result : Blob) :
    WriteSet cfg tr p (S.content result) := by
  obtain ⟨hun, huk, huw⟩ := (hi.items .user).written
  obtain ⟨hin, hik, hiw⟩ := (hi.items .info).written
  have hkeys : (S.content result).vecUpdateInfo.map (·.key) = ((S.lst .info).filter (·.setted)).map (·.strKey) :=
    List.map_map
  refine ⟨⟨(S.lstUser.filter (·.setted)).map (·.strKey), hun, huk, ?_⟩, ⟨?_, ?_, ?_⟩, hi.created, hi.keys⟩
  · refine List.forall₂_map_left_iff.mpr (List.forall₂_map_right_iff.mpr (List.forall₂_same.mpr ?_))
    exact huw
  · rw [hkeys]
    exact hin
  · rw [hkeys]
    exact hik
  · intro i hmem
    obtain ⟨it, hit, rfl⟩ := List.mem_map.mp hmem
    exact ⟨it.key, hiw it hit⟩

/-- No lost update, for runs in which every item is read before it is set, and only then. -/
theorem writes_right (h : Run (Cc.step cfg) {} ReadFirst tr s) : WritesRight cfg tr := by
  intro tr₁ en tr₂ htr hd result p hev hp
  obtain ⟨s', hr, -, hst⟩ := h.entry htr
  obtain ⟨pre, ev, outs⟩ := en
  subst hev
  have hst : porposalRsp pre okType hd result true = .ok (s', outs) := hst
  unfold porposalRsp at hst
  rw [hp] at hst
  obtain ⟨S, hS, hst⟩ := Except.bind_eq_ok.mp hst
  rw [processProposal_eq_ok] at hS
  obtain ⟨-, rfl⟩ := Prod.mk.inj (Except.ok.inj hst)
  exact ⟨S, S.content result, hS, ((run_histInv hr).session p S hS).writeSet result, rfl, rfl, rfl⟩

end

/-! ## An answer after the set -/

def userKey : Blob := List.replicate 24 65
def infoKey : Blob := List.replicate 14 1

/-- Two keys whose encodings are the same in either byte order. -/
def oneChannel : Config where
  getXcsAddr _ := some 3
  decodeGenerateUserKey key := if key = userKey then some (0, ⟨0, 0, 0⟩) else none
  decodeInfoKey key := if key = infoKey then some ⟨0x0101, 0x01010101, 0x0101010101010101⟩ else none

def handle : UInt64 := combineUserCCSessionID 0 processProposalSessionType

def propose : List Event := [.submitProposalReq ⟨8, 1, 0, [9]⟩ 5, .procReturn 0]

def infoRsp (version : UInt32) (value : Blob) : Event :=
  .queryInformationRsp ⟨okType, version, handle, 0x0101010101010101, value⟩

def userRsp (version : UInt32) (userInfo : Blob) : Event := .queryUserInfoRsp ⟨okType, version, handle, 0, userInfo⟩

/-- The answer of the committer comes a second time after the information was set: the
content has the value and the version that were read. -/
theorem update_lost : ¬∀ (cfg : Config) (tr : History) (s : State),
    Run (step cfg) {} anyStep tr s → WritesRight cfg tr := by
  intro hall
  let evs := propose ++ [.call (.getVbhInformation handle infoKey 0), infoRsp 5 [1],
    .call (.setVbhInformation handle infoKey [2]), infoRsp 5 [1], .call (.porposalRsp okType handle [7] true)]
  have hr := hall oneChannel _ _ (run_trace_any evs)
  obtain ⟨en, hsplit, -, hen⟩ := split_map (trace (step oneChannel) {} evs) 6
    (fun en => (en.ev, en.pre.find handle, en.outs.filterMap Out.content))
    (.call (.porposalRsp okType handle [7] true), some 0, [⟨[9], [7], [], [], [⟨5, infoKey, [1]⟩]⟩]) rfl
  obtain ⟨hev, hen⟩ := Prod.mk.inj hen
  obtain ⟨hfind, hcontent⟩ := Prod.mk.inj hen
  obtain ⟨S, w, -, hw, -, -, houts⟩ := hr _ _ _ hsplit _ _ _ hev hfind
  rw [houts] at hcontent
  obtain rfl : w = ⟨[9], [7], [], [], [⟨5, infoKey, [1]⟩]⟩ := List.singleton_inj.mp hcontent
  obtain ⟨key, hwritten⟩ := hw.infos.2.2 _ List.mem_cons_self
  have hlast : lastSet ((trace (step oneChannel) {} evs).take 6) .info 0 infoKey = some [2] := by decide
  exact absurd (hlast.symm.trans hwritten.value) (by decide)

theorem writes_right_two : ∃ tr s, Run (step oneChannel) {} ReadFirst tr s ∧ WritesRight oneChannel tr ∧
    (tr.flatMap (·.outs)).filterMap Out.content =
      [⟨[9], [7], [⟨1, ⟨0, 0, 0⟩, [3]⟩], [⟨[6], [5]⟩], [⟨6, infoKey, [4]⟩]⟩] := by
  let evs := propose ++ [.call (.getVbhInformation handle infoKey 0), .call (.getVbhUser handle userKey 0),
    userRsp 0 [2], infoRsp 5 [1], .call (.setVbhUser handle userKey [3]), .call (.setVbhInformation handle infoKey [2]),
    .call (.setVbhInformation handle infoKey [4]), .call (.createVbhInformation handle [6] [5]),
    .call (.porposalRsp okType handle [7] true)]
  have hr := run_of_meets (step oneChannel) {} ReadFirst evs (by decide)
  exact ⟨_, _, hr, writes_right hr, by decide⟩

end VProtocol.Cc
