import VProtocol.Cc.Lookup

/-!
# What a read reports

An entry is in the list from the moment its key is asked for, and that it is there is all
that the lookups and the sets look at. So a lookup of a key that is not answered yet
reports an empty value as an OK answer, and a set of such a key succeeds.
-/

namespace VProtocol.Cc

/-! ## The property -/

/-- The committer gave `value` in an OK answer to a lookup of `key` by session `p`. -/
def Received (cfg : Config) (tr : History) (path : Path) (p : Ptr) (key value : Blob) : Prop :=
  ∃ tr₁ en r, tr₁ ++ [en] <+: tr ∧ Answers cfg tr₁ en.pre en.ev r p key ∧ r.path = path ∧ r.value = value

def SetTo (tr : History) (path : Path) (p : Ptr) (key value : Blob) : Prop :=
  ∃ en ∈ tr, setAt path p en = some (key, value)

/-- The value comes from the committer or from a set of the key in this session. -/
def Known (cfg : Config) (tr : History) (path : Path) (p : Ptr) (key value : Blob) : Prop :=
  Received cfg tr path p key value ∨ SetTo tr path p key value

/-- The chaincode is told in session `p` that the key has the value. -/
def Reported (en : Entry State Event Out) (path : Path) (p : Ptr) (key value : Blob) : Prop :=
  ∃ h, Out.up (.onGetVbhRsp path okType h key value) ∈ en.outs ∧ en.pre.find h = some p

/-- A reported value was received or set before, and both a reported key and a key that
is set were answered with OK. -/
structure ReadRight (cfg : Config) (tr : History) (en : Entry State Event Out) : Prop where
  read : ∀ path p key value, Reported en path p key value → Known cfg (tr ++ [en]) path p key value
  present : ∀ path p key value, Reported en path p key value → ∃ v, Received cfg (tr ++ [en]) path p key v
  set : ∀ path p key value, setAt path p en = some (key, value) → ∃ v, Received cfg tr path p key v

def ReadsRight (cfg : Config) (tr : History) : Prop := ∀ tr₁ en tr₂, tr = tr₁ ++ en :: tr₂ → ReadRight cfg tr₁ en

/-! ## The condition -/

/-- The entry of the key has a value that was given to it: an answer was taken for it, or it was set. -/
def Heard (tr : History) (path : Path) (p : Ptr) (key : Blob) : Prop :=
  Taken tr path p key ∨ ∃ value, SetTo tr path p key value

def State.lists (s : State) (path : Path) (h : UInt64) (p : Ptr) (key : Blob) : Prop :=
  s.find h = some p ∧ ∃ S, s.session p = some S ∧ key ∈ (S.lst path).map (·.strKey)

/-- A key that is listed is looked up again only after its entry was given a value, or where the
committer answered with the empty value for it; an answer is taken for the entry it answers, or
for one of a key known to have its value; a key that is listed is set only after its OK answer. -/
structure ReadsTrue (cfg : Config) (tr : History) (s : State) (e : Event) : Prop where
  get : ∀ path h key p, e.gets = some (path, h, key) → s.lists path h p key →
    Heard tr path p key ∨ Received cfg tr path p key []
  reply : ∀ r p it, e.reply = some r → s.hit r p = some it →
    Answers cfg tr s e r p it.strKey ∨ Known cfg tr r.path p it.strKey r.value
  set : ∀ w p, e.sets = some w → s.lists w.path w.ccSessionID p w.key → ∃ v, Received cfg tr w.path p w.key v

section
variable {cfg : Config} {s s' : State} {e : Event} {outs : List Out} {tr : History} {path : Path} {p : Ptr}
variable {en : Entry State Event Out} {key value : Blob}

/-! ## The history over a step -/

theorem received_append : Received cfg (tr ++ [en]) path p key value ↔ Received cfg tr path p key value ∨
    ∃ r, Answers cfg tr en.pre en.ev r p key ∧ r.path = path ∧ r.value = value := by
  unfold Received
  constructor
  · intro ⟨tr₁, en', r, hpre, ha⟩
    rcases List.prefix_concat_iff.mp hpre with heq | hpre
    · obtain ⟨rfl, hen⟩ := List.append_inj' heq rfl
      obtain rfl := List.singleton_inj.mp hen
      exact .inr ⟨r, ha⟩
    · exact .inl ⟨tr₁, en', r, hpre, ha⟩
  · intro h
    rcases h with ⟨tr₁, en', r, hpre, ha⟩ | ⟨r, ha⟩
    · exact ⟨tr₁, en', r, hpre.trans (List.prefix_append _ _), ha⟩
    · exact ⟨tr, en, r, List.prefix_refl _, ha⟩

theorem setTo_append : SetTo (tr ++ [en]) path p key value ↔
    SetTo tr path p key value ∨ setAt path p en = some (key, value) := by
  unfold SetTo
  simp only [List.mem_append, List.mem_singleton, or_and_right, exists_or, exists_eq_left]

theorem Received.append (h : Received cfg tr path p key value) : Received cfg (tr ++ [en]) path p key value :=
  received_append.mpr (.inl h)

theorem Known.append (h : Known cfg tr path p key value) : Known cfg (tr ++ [en]) path p key value :=
  h.imp Received.append fun h => setTo_append.mpr (.inl h)

theorem heard_append : Heard (tr ++ [en]) path p key ↔ Heard tr path p key ∨
    (∃ it ∈ hitAt path p en, it.strKey = key) ∨ ∃ value, setAt path p en = some (key, value) := by
  unfold Heard
  simp only [taken_append, setTo_append, exists_or]
  constructor
  · intro h
    rcases h with (h | h) | (h | h)
    · exact .inl (.inl h)
    · exact .inr (.inl h)
    · exact .inl (.inr h)
    · exact .inr (.inr h)
  · intro h
    rcases h with (h | h) | (h | h)
    · exact .inl (.inl h)
    · exact .inr (.inl h)
    · exact .inl (.inr h)
    · exact .inr (.inr h)

theorem reply_of_gets {x} (h : e.gets = some x) : e.reply = none ∧ e.sets = none := by
  cases e with
  | call c => cases c <;> first | exact ⟨rfl, rfl⟩ | cases h
  | _ => cases h

theorem known_append (hr : e.reply = none) (hs : e.sets = none) :
    Known cfg (tr ++ [⟨s, e, outs⟩]) path p key value ↔ Known cfg tr path p key value := by
  refine ⟨fun h => ?_, Known.append⟩
  rcases h with h | h
  · rcases received_append.mp h with h | ⟨r, ha, -⟩
    · exact .inl h
    · cases hr.symm.trans ha.reply
  · rcases setTo_append.mp h with h | h
    · exact .inr h
    · rw [setAt_plain hs] at h
      cases h

theorem known_reply {r : Reply} (hr : e.reply = some r) : Known cfg (tr ++ [⟨s, e, outs⟩]) r.path p key r.value ↔
    Answers cfg tr s e r p key ∨ Known cfg tr r.path p key r.value := by
  constructor
  · intro h
    rcases h with h | h
    · rcases received_append.mp h with h | ⟨r', ha, -⟩
      · exact .inr (.inl h)
      · obtain rfl := Option.some.inj (hr.symm.trans ha.reply)
        exact .inl ha
    · rcases setTo_append.mp h with h | h
      · exact .inr (.inr h)
      · rw [setAt_plain (sets_of_reply hr)] at h
        cases h
  · intro h
    rcases h with ha | h
    · exact .inl (received_append.mpr (.inr ⟨r, ha, rfl, rfl⟩))
    · exact h.append

/-! ## What a step reports and sets -/

/-- The value of the entry that a lookup finds. -/
def CachedAt (s : State) (e : Event) (path : Path) (p : Ptr) (key value : Blob) : Prop :=
  ∃ h S it, e.gets = some (path, h, key) ∧ s.find h = some p ∧ s.session p = some S ∧
    (S.lst path).find? (·.strKey = key) = some it ∧ it.value = value

/-- The value of the answer that is taken for the entry. -/
def TakenAt (s : State) (e : Event) (path : Path) (p : Ptr) (key value : Blob) : Prop :=
  ∃ r it, e.reply = some r ∧ s.hit r p = some it ∧ r.path = path ∧ it.strKey = key ∧ r.value = value

theorem not_reported (ho : ∀ u, Out.up u ∉ outs) : ¬Reported ⟨s, e, outs⟩ path p key value :=
  fun ⟨_, hup, _⟩ => ho _ hup

theorem getVbh_reported {path' noSession h key' sendRet} (he : e.gets = some (path', h, key'))
    (hst : getVbh cfg s path' noSession h key' sendRet = .ok (s', outs)) :
    Reported ⟨s, e, outs⟩ path p key value ↔ CachedAt s e path p key value := by
  have hgets : ∀ {h₁}, e.gets = some (path, h₁, key) → path' = path ∧ h = h₁ ∧ key' = key := by
    intro h₁ he₁
    simpa using he.symm.trans he₁
  unfold getVbh at hst
  split at hst
  · rename_i hnone
    obtain ⟨rfl, rfl⟩ := Prod.mk.inj (Except.ok.inj hst)
    refine iff_of_false (not_reported (by simp)) ?_
    intro ⟨h₁, S, it, he₁, hp, _⟩
    obtain ⟨rfl, rfl, rfl⟩ := hgets he₁
    cases hnone.symm.trans hp
  rename_i q hq
  obtain ⟨S, hS, hst⟩ := Except.bind_eq_ok.mp hst
  rw [processProposal_eq_ok] at hS
  have hcached : CachedAt s e path p key value ↔ q = p ∧ path' = path ∧ key' = key ∧
      ∃ it, (S.lst path').find? (·.strKey = key') = some it ∧ it.value = value := by
    constructor
    · intro ⟨h₁, S₁, it, he₁, hp, hS₁, hit⟩
      obtain ⟨rfl, rfl, rfl⟩ := hgets he₁
      obtain rfl := Option.some.inj (hq.symm.trans hp)
      obtain rfl := Option.some.inj (hS.symm.trans hS₁)
      exact ⟨rfl, rfl, rfl, it, hit⟩
    · intro ⟨hqp, hpath, hkey, it, hit⟩
      subst hqp hpath hkey
      exact ⟨h, S, it, he, hq, hS, hit⟩
  rw [hcached]
  split at hst
  · rename_i it hit
    obtain ⟨rfl, rfl⟩ := Prod.mk.inj (Except.ok.inj hst)
    constructor
    · intro ⟨h₁, ho, hp⟩
      obtain ⟨rfl, rfl, rfl, rfl⟩ : path = path' ∧ h₁ = h ∧ key = key' ∧ value = it.value := by simpa using ho
      exact ⟨Option.some.inj (hq.symm.trans hp), rfl, rfl, it, hit, rfl⟩
    · intro ⟨hqp, hpath, hkey, it₁, hit₁, hvalue⟩
      obtain rfl := Option.some.inj (hit.symm.trans hit₁)
      subst hqp hpath hkey hvalue
      exact ⟨h, List.mem_cons_self, hq⟩
  rename_i hnone
  have hmiss : ¬∃ it, (S.lst path').find? (·.strKey = key') = some it ∧ it.value = value := by
    intro ⟨it, hit, _⟩
    cases hnone.symm.trans hit
  refine iff_of_false (not_reported fun u hu => ?_) fun h => hmiss h.2.2.2
  split at hst
  · obtain ⟨rfl, rfl⟩ := Prod.mk.inj (Except.ok.inj hst)
    simp at hu
  split at hst
  · obtain ⟨rfl, rfl⟩ := Prod.mk.inj (Except.ok.inj hst)
    simp at hu
  · obtain ⟨rfl, rfl⟩ := Prod.mk.inj (Except.ok.inj hst)
    split at hu <;> simp at hu

theorem onQueryRsp_reported {r : Reply} (he : e.reply = some r) (hst : onQueryRsp s r = .ok (s', outs)) :
    Reported ⟨s, e, outs⟩ path p key value ↔ TakenAt s e path p key value := by
  have htaken : TakenAt s e path p key value ↔
      ∃ it, s.hit r p = some it ∧ r.path = path ∧ it.strKey = key ∧ r.value = value := by
    constructor
    · intro ⟨r₁, it, he₁, hit⟩
      obtain rfl := Option.some.inj (he.symm.trans he₁)
      exact ⟨it, hit⟩
    · intro ⟨it, hit⟩
      exact ⟨r, it, he, hit⟩
  rw [htaken]
  simp only [hit_eq_some]
  unfold onQueryRsp at hst
  split at hst
  · rename_i hnone
    obtain ⟨rfl, rfl⟩ := Prod.mk.inj (Except.ok.inj hst)
    refine iff_of_false (not_reported (by simp)) ?_
    intro ⟨it, ⟨_, hp, _⟩, _⟩
    cases hnone.symm.trans hp
  rename_i q hq
  obtain ⟨S, hS, hst⟩ := Except.bind_eq_ok.mp hst
  rw [processProposal_eq_ok] at hS
  split at hst
  · rename_i hok
    split at hst
    · rename_i hnone
      obtain ⟨rfl, rfl⟩ := Prod.mk.inj (Except.ok.inj hst)
      refine iff_of_false (not_reported (by simp)) ?_
      intro ⟨it, ⟨_, hp, S₁, hS₁, hit⟩, _⟩
      obtain rfl := Option.some.inj (hq.symm.trans hp)
      obtain rfl := Option.some.inj (hS.symm.trans hS₁)
      cases hnone.symm.trans hit
    · rename_i it hfind
      obtain ⟨rfl, rfl⟩ := Prod.mk.inj (Except.ok.inj hst)
      constructor
      · intro ⟨h, ho, hp⟩
        obtain ⟨rfl, rfl, rfl, rfl⟩ : path = r.path ∧ h = r.ccSessionID ∧ key = it.strKey ∧ value = r.value := by
          simpa using ho
        obtain rfl := Option.some.inj (hq.symm.trans hp)
        exact ⟨it, ⟨hok, hq, S, hS, hfind⟩, rfl, rfl, rfl⟩
      · intro ⟨it₁, ⟨_, hp, S₁, hS₁, hit₁⟩, hpath, hkey, hvalue⟩
        obtain rfl := Option.some.inj (hq.symm.trans hp)
        obtain rfl := Option.some.inj (hS.symm.trans hS₁)
        obtain rfl := Option.some.inj (hfind.symm.trans hit₁)
        subst hpath hkey hvalue
        exact ⟨r.ccSessionID, List.mem_cons_self, hq⟩
  · rename_i hbad
    obtain ⟨rfl, rfl⟩ := Prod.mk.inj (Except.ok.inj hst)
    refine iff_of_false ?_ fun ⟨it, ⟨hok, _⟩, _⟩ => hbad hok
    intro ⟨h, ho, _⟩
    obtain ⟨-, hcode, -⟩ : path = r.path ∧ okType = r.returnCode ∧ _ := by simpa using ho
    exact hbad hcode.symm

theorem setVbh_outs {noSession h key value} (hn : noSession ≠ 0)
    (hst : setVbh s path noSession h key value = .ok (s', outs)) :
    (outs = [.ret 0] ↔ ∃ p, s.lists path h p key) ∧ ∀ u, Out.up u ∉ outs := by
  unfold setVbh at hst
  split at hst
  · rename_i hnone
    obtain ⟨rfl, rfl⟩ := Prod.mk.inj (Except.ok.inj hst)
    refine ⟨iff_of_false (by simpa using hn) ?_, by simp⟩
    intro ⟨p, hp, _⟩
    cases hnone.symm.trans hp
  rename_i q hq
  obtain ⟨S, hS, hst⟩ := Except.bind_eq_ok.mp hst
  rw [processProposal_eq_ok] at hS
  split at hst
  · rename_i hnone
    obtain ⟨rfl, rfl⟩ := Prod.mk.inj (Except.ok.inj hst)
    refine ⟨iff_of_false (by simp) ?_, by simp⟩
    intro ⟨p, hp, S₁, hS₁, hkey⟩
    obtain rfl := Option.some.inj (hq.symm.trans hp)
    obtain rfl := Option.some.inj (hS.symm.trans hS₁)
    exact find?_key_none hnone hkey
  · rename_i it hit
    obtain ⟨rfl, rfl⟩ := Prod.mk.inj (Except.ok.inj hst)
    refine ⟨iff_of_true rfl ⟨q, hq, S, hS, ?_⟩, by simp⟩
    obtain ⟨hmem, rfl⟩ := find?_key_some hit
    exact List.mem_map_of_mem hmem

theorem step_sets {w : Setting} (hw : e.sets = some w) (hst : step cfg s e = .ok (s', outs)) :
    outs = [.ret 0] ↔ ∃ p, s.lists w.path w.ccSessionID p w.key := by
  cases e with
  | call c =>
    cases c with
    | setVbhUser h key value =>
      obtain rfl := Option.some.inj hw
      exact (setVbh_outs (by decide) hst).1
    | setVbhInformation h key value =>
      obtain rfl := Option.some.inj hw
      exact (setVbh_outs (by decide) hst).1
    | _ => cases hw
  | _ => cases hw

theorem step_setAt (hst : step cfg s e = .ok (s', outs)) : setAt path p ⟨s, e, outs⟩ = some (key, value) ↔
    ∃ h, e.sets = some ⟨path, h, key, value⟩ ∧ s.lists path h p key := by
  unfold setAt
  cases hw : e.sets with
  | none => simp
  | some w =>
    rw [Option.bind_some, Option.ite_none_right_eq_some, step_sets hw hst]
    constructor
    · intro ⟨⟨hpath, hp, q, hl⟩, hkv⟩
      obtain rfl := Option.some.inj (hp.symm.trans hl.1)
      obtain ⟨rfl, rfl⟩ := Prod.mk.inj (Option.some.inj hkv)
      subst hpath
      exact ⟨w.ccSessionID, rfl, hl⟩
    · intro ⟨h, hw', hl⟩
      obtain rfl := Option.some.inj hw'
      exact ⟨⟨rfl, hl.1, p, hl⟩, rfl⟩

section
variable {code : Int} {h : UInt64} {key value : Blob}

theorem createVbhInformation_quiet {h' key' value'} (hst : createVbhInformation s h' key' value' = .ok (s', outs)) :
    Out.up (.onGetVbhRsp path code h key value) ∉ outs := by
  unfold createVbhInformation at hst
  split at hst
  · obtain ⟨rfl, rfl⟩ := Prod.mk.inj (Except.ok.inj hst)
    simp
  obtain ⟨S, -, hst⟩ := Except.bind_eq_ok.mp hst
  split at hst
  · obtain ⟨rfl, rfl⟩ := Prod.mk.inj (Except.ok.inj hst)
    simp
  · obtain ⟨rfl, rfl⟩ := Prod.mk.inj (Except.ok.inj hst)
    simp

theorem registUserRsp_quiet {code' h' allow info} (hst : registUserRsp s code' h' allow info = .ok (s', outs)) :
    Out.up (.onGetVbhRsp path code h key value) ∉ outs := by
  unfold registUserRsp at hst
  simp only at hst
  split at hst
  · split at hst
    · obtain ⟨rfl, rfl⟩ := Prod.mk.inj (Except.ok.inj hst)
      simp
    obtain ⟨S, -, hst⟩ := Except.bind_eq_ok.mp hst
    obtain ⟨rfl, rfl⟩ := Prod.mk.inj (Except.ok.inj hst)
    simp
  · obtain ⟨rfl, rfl⟩ := Prod.mk.inj (Except.ok.inj hst)
    simp

theorem porposalRsp_quiet {code' h' result encodes} (hst : porposalRsp s code' h' result encodes = .ok (s', outs)) :
    Out.up (.onGetVbhRsp path code h key value) ∉ outs := by
  unfold porposalRsp at hst
  split at hst
  · obtain ⟨rfl, rfl⟩ := Prod.mk.inj (Except.ok.inj hst)
    simp
  obtain ⟨S, -, hst⟩ := Except.bind_eq_ok.mp hst
  obtain ⟨rfl, rfl⟩ := Prod.mk.inj (Except.ok.inj hst)
  simp

theorem onProcReturn_quiet {pr ret} (hst : onProcReturn s pr ret = .ok (s', outs)) :
    Out.up (.onGetVbhRsp path code h key value) ∉ outs := by
  unfold onProcReturn at hst
  simp only at hst
  split at hst
  · obtain ⟨rfl, rfl⟩ := Prod.mk.inj (Except.ok.inj hst)
    simp
  split at hst
  · obtain ⟨S, -, hst⟩ := Except.bind_eq_ok.mp hst
    obtain ⟨rfl, rfl⟩ := Prod.mk.inj (Except.ok.inj hst)
    simp
  · obtain ⟨S, -, hst⟩ := Except.bind_eq_ok.mp hst
    obtain ⟨rfl, rfl⟩ := Prod.mk.inj (Except.ok.inj hst)
    simp

theorem onTimer_quiet {q : Ptr} (hst : onTimer s q = .ok (s', outs)) :
    Out.up (.onGetVbhRsp path code h key value) ∉ outs := by
  unfold onTimer at hst
  split at hst
  · split at hst
    · cases hst
    · obtain ⟨rfl, rfl⟩ := Prod.mk.inj (Except.ok.inj hst)
      simp
    · obtain ⟨rfl, rfl⟩ := Prod.mk.inj (Except.ok.inj hst)
      simp
  · obtain ⟨rfl, rfl⟩ := Prod.mk.inj (Except.ok.inj hst)
    simp

theorem step_quiet (hg : e.gets = none) (hr : e.reply = none) (hst : step cfg s e = .ok (s', outs)) :
    Out.up (.onGetVbhRsp path code h key value) ∉ outs := by
  unfold step at hst
  split at hst
  · rename_i c
    cases c with
    | getVbhUser => cases hg
    | getVbhInformation => cases hg
    | setVbhUser => exact (setVbh_outs (by decide) hst).2 _
    | setVbhInformation => exact (setVbh_outs (by decide) hst).2 _
    | createVbhInformation => exact createVbhInformation_quiet hst
    | registUserRsp => exact registUserRsp_quiet hst
    | porposalRsp => exact porposalRsp_quiet hst
  · exact onProcReturn_quiet hst
  · cases hst
  · cases hst
  · obtain ⟨rfl, rfl⟩ := Prod.mk.inj (Except.ok.inj hst)
    simp
  · obtain ⟨rfl, rfl⟩ := Prod.mk.inj (Except.ok.inj hst)
    simp
  · cases hr
  · cases hr
  · exact onTimer_quiet hst

end

theorem turn_of_reply {r : Reply} (he : e.reply = some r) (hst : step cfg s e = .ok (s', outs)) : s.proc = none := by
  cases hpr : s.proc with
  | none => rfl
  | some pr =>
    unfold step at hst
    rw [hpr] at hst
    cases e with
    | queryUserInfoRsp rsp => cases hst
    | queryInformationRsp rsp => cases hst
    | _ => cases he

theorem step_reported (hst : step cfg s e = .ok (s', outs)) : Reported ⟨s, e, outs⟩ path p key value ↔
    CachedAt s e path p key value ∨ TakenAt s e path p key value := by
  have hcached : e.gets = none → ¬CachedAt s e path p key value := by
    intro hg ⟨h, S, it, hg', _⟩
    cases hg.symm.trans hg'
  have htaken : e.reply = none → ¬TakenAt s e path p key value := by
    intro hr ⟨r, it, hr', _⟩
    cases hr.symm.trans hr'
  cases hg : e.gets with
  | some x =>
    rw [or_iff_left (htaken (reply_of_gets hg).1)]
    cases e with
    | call c =>
      cases c with
      | getVbhUser h key' sendRet => exact getVbh_reported rfl hst
      | getVbhInformation h key' sendRet => exact getVbh_reported rfl hst
      | _ => cases hg
    | _ => cases hg
  | none =>
    rw [or_iff_right (hcached hg)]
    cases hr : e.reply with
    | none => exact iff_of_false (fun ⟨_, ho, _⟩ => step_quiet hg hr hst ho) (htaken hr)
    | some r =>
      rw [step_reply hr (turn_of_reply hr hst)] at hst
      exact onQueryRsp_reported hr hst

/-! ## The values of the entries -/

/-- An entry that was given a value has a known one, and the others have the empty value. -/
structure ReadList (cfg : Config) (tr : History) (path : Path) (p : Ptr) (l : List Item) : Prop where
  heard : ∀ it ∈ l, Heard tr path p it.strKey → Known cfg tr path p it.strKey it.value
  unheard : ∀ it ∈ l, ¬Heard tr path p it.strKey → it.value = []
  listed : ∀ key, Heard tr path p key → key ∈ l.map (·.strKey)

structure ReadInv (cfg : Config) (tr : History) (s : State) : Prop where
  list : ∀ p S, s.session p = some S → ∀ path, ReadList cfg tr path p (S.lst path)
  fresh : ∀ path p key, Heard tr path p key → p < s.next

section
variable {l l' : List Item} {it : Item}

theorem heard_quiet (hs : setAt path p en = none) (hh : hitAt path p en = none) :
    Heard (tr ++ [en]) path p key ↔ Heard tr path p key := by
  rw [heard_append, hs, hh]
  simp

theorem ReadList.same (hi : ReadList cfg tr path p l) (hs : setAt path p en = none) (hh : hitAt path p en = none) :
    ReadList cfg (tr ++ [en]) path p l where
  heard it hit h := (hi.heard it hit ((heard_quiet hs hh).mp h)).append
  unheard it hit h := hi.unheard it hit fun h' => h ((heard_quiet hs hh).mpr h')
  listed key h := hi.listed key ((heard_quiet hs hh).mp h)

theorem ReadList.got {genKey} (hi : ReadList cfg tr path p l) (hnone : l.find? (·.strKey = key) = none) :
    ReadList cfg tr path p (l ++ [{ key := genKey, strKey := key }]) := by
  have hnot : ¬Heard tr path p key := fun h => find?_key_none hnone (hi.listed key h)
  refine ⟨fun it hit h => ?_, fun it hit h => ?_, fun k h => ?_⟩
  · rcases List.mem_append.mp hit with hit | hit
    · exact hi.heard it hit h
    · rw [List.mem_singleton.mp hit] at h
      exact absurd h hnot
  · rcases List.mem_append.mp hit with hit | hit
    · exact hi.unheard it hit h
    · rw [List.mem_singleton.mp hit]
  · rw [List.map_append]
    exact List.mem_append_left _ (hi.listed k h)

/-- The entry that changes is the only one that is heard of in the step, and its new value is known. -/
theorem ReadList.updateFirst {c : Item → Bool} {f : Item → Item} (hi : ReadList cfg tr path p l)
    (hn : (l.map (·.strKey)).Nodup) (hf : ∀ it, (f it).strKey = it.strKey) (hfind : l.find? c = some it)
    (hheard : ∀ key, Heard (tr ++ [en]) path p key ↔ Heard tr path p key ∨ it.strKey = key)
    (hknown : Known cfg (tr ++ [en]) path p it.strKey (f it).value) :
    ReadList cfg (tr ++ [en]) path p (updateFirst c f l) := by
  refine ⟨fun x hx h => ?_, fun x hx h => ?_, fun key h => ?_⟩
  · rcases (mem_updateFirst hn hfind).mp hx with rfl | ⟨hx, hne⟩
    · rw [hf]
      exact hknown
    · rcases (hheard _).mp h with h | h
      · exact (hi.heard x hx h).append
      · exact absurd h.symm hne
  · rcases (mem_updateFirst hn hfind).mp hx with rfl | ⟨hx, -⟩
    · exact absurd ((hheard _).mpr (.inr (hf it).symm)) h
    · exact hi.unheard x hx fun h' => h ((hheard _).mpr (.inl h'))
  · rw [map_updateFirst _ hf]
    rcases (hheard key).mp h with h | rfl
    · exact hi.listed key h
    · exact List.mem_map_of_mem (List.mem_of_find?_eq_some hfind)

theorem ReadList.turn (hi : ReadList cfg tr path p l) (hn : (l.map (·.strKey)).Nodup) (ht : Turn cfg path p en l l')
    (hans : ∀ r it, replyAt path p en = some r → hitAt path p en = some it →
      Known cfg (tr ++ [en]) path p it.strKey r.value) : ReadList cfg (tr ++ [en]) path p l' := by
  cases ht with
  | same hs hh => exact hi.same hs hh
  | got hs hh hnone => exact (hi.got hnone).same hs hh
  | @set key value it hs hh hfind =>
    obtain ⟨-, rfl⟩ := find?_key_some hfind
    refine hi.updateFirst hn (fun _ => rfl) hfind (fun k => ?_) (.inr (setTo_append.mpr (.inr hs)))
    rw [heard_append, hs, hh]
    simp
  | @answered r it hs hr hh hfind =>
    refine hi.updateFirst hn (fun _ => rfl) hfind (fun k => ?_) (hans r it hr hh)
    rw [heard_append, hs, hh]
    simp

end

theorem heard_lt (hm : MapInv s) (hst : step cfg s e = .ok (s', outs))
    (hf : ∀ path p key, Heard tr path p key → p < s.next)
    (h : Heard (tr ++ [⟨s, e, outs⟩]) path p key) : p < s.next := by
  rcases heard_append.mp h with h | ⟨it, hit, -⟩ | ⟨value, hset⟩
  · exact hf path p key h
  · obtain ⟨r, hr, -⟩ := Option.bind_eq_some_iff.mp hit
    obtain ⟨-, hif⟩ := Option.filter_eq_some_iff.mp hr
    exact find_lt hm (of_decide_eq_true hif).2.2
  · obtain ⟨_, -, hl⟩ := (step_setAt hst).mp hset
    exact find_lt hm hl.1

theorem ReadsTrue.answered (hc : ReadsTrue cfg tr s e) {r : Reply} {it : Item}
    (hr : replyAt path p ⟨s, e, outs⟩ = some r) (hit : hitAt path p ⟨s, e, outs⟩ = some it) :
    Known cfg (tr ++ [⟨s, e, outs⟩]) path p it.strKey r.value := by
  unfold hitAt at hit
  rw [hr] at hit
  obtain ⟨he, hif⟩ := Option.filter_eq_some_iff.mp hr
  obtain ⟨rfl, -⟩ := of_decide_eq_true hif
  exact (known_reply he).mpr (hc.reply r p it he hit)

theorem ReadInv.step (hi : ReadInv cfg tr s) (hl : LookupInv cfg tr s) (hm : MapInv s) (hc : ReadsTrue cfg tr s e)
    (hst : step cfg s e = .ok (s', outs)) : ReadInv cfg (tr ++ [⟨s, e, outs⟩]) s' := by
  have hmove := step_move hst
  have hfresh : ∀ path p key, Heard (tr ++ [⟨s, e, outs⟩]) path p key → p < s.next :=
    fun _ _ _ h => heard_lt hm hst hi.fresh h
  refine ⟨fun p S' hS' path => ?_, fun path p key h => Nat.lt_of_lt_of_le (hfresh path p key h) hmove.next_le⟩
  rcases hmove.turn path hS' with ⟨rfl, -, hnil, -⟩ | ⟨S, hS, ht, -⟩
  · rw [hnil]
    exact ⟨nofun, nofun, fun key h => absurd (hfresh path _ key h) (Nat.lt_irrefl _)⟩
  · exact (hi.list p S hS path).turn (hl.decoded p S hS path).nodup ht fun r it hr hit => hc.answered hr hit

theorem run_readInv (h : Run (step cfg) {} (ReadsTrue cfg) tr s) : ReadInv cfg tr s := by
  have hnone : ∀ path p key, ¬Heard [] path p key := by
    intro path p key h
    rcases h with ⟨_, h, _⟩ | ⟨_, _, h, _⟩
    · cases h
    · cases h
  refine h.invariant (ReadInv cfg) ⟨(fun _ _ h => by cases h), fun path p key h => absurd h (hnone path p key)⟩ ?_
  intro tr s e s' outs hr hi hc hst
  exact hi.step (run_lookupInv hr) (run_mapInv hr) hc hst

/-! ## Reads are right if and only if each step meets the condition -/

theorem Known.received (hk : Known cfg tr path p key value)
    (hs : ∀ tr₁ en tr₂, tr = tr₁ ++ en :: tr₂ → ∀ value, setAt path p en = some (key, value) →
      ∃ v, Received cfg tr₁ path p key v) : ∃ v, Received cfg tr path p key v := by
  rcases hk with hk | ⟨en, hen, hset⟩
  · exact ⟨value, hk⟩
  · obtain ⟨tr₁, tr₂, rfl⟩ := List.append_of_mem hen
    obtain ⟨v, tr₀, en₀, r, hpre, ha⟩ := hs _ _ _ rfl value hset
    exact ⟨v, tr₀, en₀, r, hpre.trans (List.prefix_append _ _), ha⟩

/-- A lookup of a listed key reports a known value if and only if the entry was given one, or the
committer answered with the empty value. -/
theorem cached_known (hi : ReadInv cfg tr s) {S : ProcessProposalSession} {it : Item} (hS : s.session p = some S)
    (hit : it ∈ S.lst path) : Known cfg tr path p it.strKey it.value ↔
      Heard tr path p it.strKey ∨ Received cfg tr path p it.strKey [] := by
  have hl := hi.list p S hS path
  by_cases hh : Heard tr path p it.strKey
  · exact iff_of_true (hl.heard it hit hh) (.inl hh)
  · rw [or_iff_right hh, hl.unheard it hit hh]
    constructor
    · intro hk
      rcases hk with hk | hk
      · exact hk
      · exact absurd (.inr ⟨_, hk⟩) hh
    · exact .inl

theorem step_read_iff (hi : ReadInv cfg tr s) (hst : step cfg s e = .ok (s', outs)) :
    (∀ path p key value, Reported ⟨s, e, outs⟩ path p key value →
      Known cfg (tr ++ [⟨s, e, outs⟩]) path p key value) ↔
    (∀ path h key p, e.gets = some (path, h, key) → s.lists path h p key →
      Heard tr path p key ∨ Received cfg tr path p key []) ∧
    ∀ r p it, e.reply = some r → s.hit r p = some it →
      Answers cfg tr s e r p it.strKey ∨ Known cfg tr r.path p it.strKey r.value := by
  constructor
  · intro hread
    constructor
    · intro path h key p hg ⟨hp, S, hS, hkey⟩
      obtain ⟨hr, hs⟩ := reply_of_gets hg
      obtain ⟨it, hit⟩ := find?_key_of_mem hkey
      have hk := hread path p key it.value ((step_reported hst).mpr (.inl ⟨h, S, it, hg, hp, hS, hit, rfl⟩))
      obtain ⟨hmem, rfl⟩ := find?_key_some hit
      exact (cached_known hi hS hmem).mp ((known_append hr hs).mp hk)
    · intro r p it hr hit
      have hk := hread r.path p it.strKey r.value ((step_reported hst).mpr (.inr ⟨r, it, hr, hit, rfl, rfl, rfl⟩))
      exact (known_reply hr).mp hk
  · intro ⟨hget, hreply⟩ path p key value hrep
    rcases (step_reported hst).mp hrep with ⟨h, S, it, hg, hp, hS, hit, rfl⟩ | ⟨r, it, hr, hit, rfl, rfl, rfl⟩
    · obtain ⟨hmem, rfl⟩ := find?_key_some hit
      have hheard := hget path h it.strKey p hg ⟨hp, S, hS, List.mem_map_of_mem hmem⟩
      exact ((cached_known hi hS hmem).mpr hheard).append
    · exact (known_reply hr).mpr (hreply r p it hr hit)

theorem step_set_iff (hst : step cfg s e = .ok (s', outs)) :
    (∀ path p key value, setAt path p ⟨s, e, outs⟩ = some (key, value) → ∃ v, Received cfg tr path p key v) ↔
    ∀ w p, e.sets = some w → s.lists w.path w.ccSessionID p w.key → ∃ v, Received cfg tr w.path p w.key v := by
  constructor
  · intro hset w p hw hl
    exact hset w.path p w.key w.value ((step_setAt hst).mpr ⟨w.ccSessionID, hw, hl⟩)
  · intro hset path p key value h
    obtain ⟨h, hw, hl⟩ := (step_setAt hst).mp h
    exact hset _ p hw hl

/-- The reads of a run are right if and only if each of its steps is: a key is looked up again or
set only after its answer, and the answer is taken for its own entry. -/
theorem reads_right_iff (h : Run (Cc.step cfg) {} anyStep tr s) : ReadsRight cfg tr ↔ Each (ReadsTrue cfg) tr := by
  refine Run.each_iff ?_ h
  intro tr s e s' outs hr he _ hst
  have hi := run_readInv ((hr.of_each he).mono fun _ _ _ h => h.2)
  constructor
  · intro hR
    obtain ⟨hget, hreply⟩ := (step_read_iff hi hst).mp hR.read
    exact ⟨hget, hreply, (step_set_iff hst).mp hR.set⟩
  · intro hC
    have hread := (step_read_iff hi hst).mpr ⟨hC.get, hC.reply⟩
    have hset := (step_set_iff hst).mpr hC.set
    refine ⟨hread, fun path p key value hrep => ?_, hset⟩
    refine (hread path p key value hrep).received ?_
    intro tr₁ en tr₂ htr value hs
    obtain ⟨s₁, -, -, hst₁⟩ := (hr.snoc trivial hst).entry htr
    have hC₁ := each_append.mpr ⟨he, hC⟩ tr₁ en tr₂ htr
    exact (step_set_iff hst₁).mpr hC₁.set path p key value hs

end

/-! ## A key that is asked for twice -/

/-- The second lookup of a key comes before the answer, and it reports an empty value. -/
theorem reads_invented : ¬∀ (cfg : Config) (tr : History) (s : State),
    Run (step cfg) {} anyStep tr s → ReadsRight cfg tr := by
  intro hall
  let evs := propose ++ [.call (.getVbhInformation handle infoKey 0), .call (.getVbhInformation handle infoKey 0)]
  have hr := hall oneChannel _ _ (run_trace_any evs)
  obtain ⟨en, hsplit, hsub, hen⟩ := split_map (trace (step oneChannel) {} evs) 3
    (fun en => (en.pre.find handle, en.outs)) (some 0, [.up (.onGetVbhRsp .info okType handle infoKey []), .ret 0]) rfl
  obtain ⟨hfind, houts⟩ := Prod.mk.inj hen
  have hrep : Reported en .info 0 infoKey [] := ⟨handle, by rw [houts]; exact List.mem_cons_self, hfind⟩
  obtain ⟨v, tr₁, en₁, r, hpre, ha, -⟩ := (hr _ _ _ hsplit).present _ _ _ _ hrep
  have hquiet : ∀ en ∈ trace (step oneChannel) {} evs, en.ev.reply.isNone = true := by decide
  have hmem : en₁ ∈ trace (step oneChannel) {} evs := hsub (hpre.subset (List.mem_append_right _ List.mem_cons_self))
  have hnone := hquiet en₁ hmem
  rw [ha.reply] at hnone
  cases hnone

theorem ReadsTrue.plain {cfg : Config} {tr : History} {s : State} {e : Event} (hg : e.gets = none) (hr : e.reply = none)
    (hs : e.sets = none) : ReadsTrue cfg tr s e := by
  refine ⟨fun _ _ _ _ h => ?_, fun _ _ _ h => ?_, fun _ _ h => ?_⟩
  · cases hg.symm.trans h
  · cases hr.symm.trans h
  · cases hs.symm.trans h

def asks : List Event := propose ++ [.call (.getVbhInformation handle infoKey 0)]

theorem reads_right_two : ∃ tr s, Run (step oneChannel) {} anyStep tr s ∧ ReadsRight oneChannel tr ∧
    (tr.flatMap (·.outs)).filter (· ≠ .ret 0) = [
      .up (.proposalProc 0 0 1 [9]), .query 3 .info ⟨0x0101, 0x01010101, 0x0101010101010101⟩ handle,
      .up (.onGetVbhRsp .info okType handle infoKey [1]), .up (.onGetVbhRsp .info okType handle infoKey [2])] := by
  have ha : Answers oneChannel (trace (step oneChannel) {} asks) (final (step oneChannel) {} asks) (infoRsp 5 [1])
      ⟨.info, okType, handle, 0x0101010101010101, 0x0101010101010101, 5, [1]⟩ 0 infoKey := by
    refine ⟨rfl, rfl, rfl, rfl, ?_, ⟨0x0101, 0x01010101, 0x0101010101010101⟩, rfl, rfl⟩
    exact ⟨_, List.mem_of_getElem? (i := 2) rfl, handle, rfl, rfl, 3, ⟨0x0101, 0x01010101, 0x0101010101010101⟩, by decide⟩
  have h₂ : Run (step oneChannel) {} (ReadsTrue oneChannel) _ _ :=
    (Run.nil.snoc (e := .submitProposalReq ⟨8, 1, 0, [9]⟩ 5) (.plain rfl rfl rfl) rfl).snoc (e := .procReturn 0)
      (.plain rfl rfl rfl) rfl
  have h₃ : Run (step oneChannel) {} (ReadsTrue oneChannel) (trace (step oneChannel) {} asks)
      (final (step oneChannel) {} asks) := by
    refine h₂.snoc ⟨fun path h key p hg hl => ?_, nofun, nofun⟩ rfl
    cases hg
    obtain ⟨hp, S, hS, hkey⟩ := hl
    cases hp
    cases hS
    cases hkey
  have h₄ := h₃.snoc (e := infoRsp 5 [1]) (by
    refine ⟨nofun, fun r p it hr hit => .inl ?_, nofun⟩
    cases hr
    obtain ⟨-, hp, -⟩ := hit_eq_some.mp hit
    cases hp
    cases hit
    exact ha) rfl
  have h₅ := h₄.snoc (e := .call (.setVbhInformation handle infoKey [2])) (by
    refine ⟨nofun, nofun, fun w p hw hl => ?_⟩
    cases hw
    cases hl.1
    exact ⟨[1], received_append.mpr (.inr ⟨_, ha, rfl, rfl⟩)⟩) rfl
  have h₆ := h₅.snoc (e := .call (.getVbhInformation handle infoKey 0)) (by
    refine ⟨fun path h key p hg hl => ?_, nofun, nofun⟩
    cases hg
    cases hl.1
    exact .inl (.inr ⟨[2], setTo_append.mpr (.inr rfl)⟩)) rfl
  exact ⟨_, _, h₆.any, (reads_right_iff h₆.any).mpr h₆.each, by decide⟩

end VProtocol.Cc
