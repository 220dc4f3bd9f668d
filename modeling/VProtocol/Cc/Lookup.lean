import VProtocol.Cc.Life
import VProtocol.Cc.WriteSet

/-!
# Answers and the lookups they are for

The committer echoes the system id of the key that was asked for. The service looks for
the first entry whose system id is the member it compares: for information that is the
echoed one, for users it is the version, so the answer is taken for the entry of the key
only where the two agree and no entry before it has the same system id.
-/

namespace VProtocol.Cc

/-! ## The property -/

def Event.gets : Event → Option (Path × UInt64 × Blob)
  | .call (.getVbhUser h key _) => some (.user, h, key)
  | .call (.getVbhInformation h key _) => some (.info, h, key)
  | _ => none

/-- Session `p` looked the key up, and the query went out. -/
def Asked (tr : History) (path : Path) (p : Ptr) (key : Blob) : Prop :=
  ∃ en ∈ tr, ∃ h, en.ev.gets = some (path, h, key) ∧ en.pre.find h = some p ∧
    ∃ addr genKey, Out.query addr path genKey h ∈ en.outs

/-- An OK answer to a lookup of `key` by session `p`. -/
structure Answers (cfg : Config) (tr : History) (s : State) (e : Event) (r : Reply) (p : Ptr) (key : Blob) : Prop where
  reply : e.reply = some r
  ok : r.returnCode = okType
  turn : s.proc = none
  find : s.find r.ccSessionID = some p
  asked : Asked tr r.path p key
  echo : ∃ genKey, cfg.decode r.path key = some genKey ∧ r.sysIndex = genKey.systemID

/-- The entry of the key takes version and value, the others stay, and the chaincode is called once, for this key. -/
def AnswerRight (cfg : Config) (s : State) (e : Event) (r : Reply) (p : Ptr) (key : Blob) : Prop :=
  ∃ S, s.session p = some S ∧ key ∈ (S.lst r.path).map (·.strKey) ∧
    step cfg s e = .ok
      (s.put p (.processProposal (S.setLst r.path
        ((S.lst r.path).map fun it => if it.strKey = key then it.answered r else it))),
      [.up (.onGetVbhRsp r.path okType r.ccSessionID key r.value)])

def FoundFirst (s : State) (r : Reply) (p : Ptr) (key : Blob) : Prop :=
  r.matched = r.sysIndex ∧ ∀ S, s.session p = some S →
    ∀ it ∈ (S.lst r.path).takeWhile (·.strKey ≠ key), it.key.systemID ≠ r.sysIndex

/-! ## The entries of a session -/

/-- The keys are different, and each entry has what its key decodes to. -/
structure Decoded (cfg : Config) (path : Path) (l : List Item) : Prop where
  nodup : (l.map (·.strKey)).Nodup
  key : ∀ it ∈ l, cfg.decode path it.strKey = some it.key

structure LookupInv (cfg : Config) (tr : History) (s : State) : Prop where
  decoded : ∀ p S, s.session p = some S → ∀ path, Decoded cfg path (S.lst path)
  asked : ∀ p S, s.session p = some S → ∀ path key, Asked tr path p key → key ∈ (S.lst path).map (·.strKey)
  fresh : ∀ path p key, Asked tr path p key → p < s.next

section
variable {cfg : Config} {s s' : State} {e : Event} {outs : List Out} {tr : History} {path : Path} {p : Ptr}
variable {l l' : List Item} {r : Reply} {key : Blob}

theorem asked_append {en : Entry State Event Out} : Asked (tr ++ [en]) path p key ↔
    Asked tr path p key ∨ ∃ h, en.ev.gets = some (path, h, key) ∧ en.pre.find h = some p ∧
      ∃ addr genKey, Out.query addr path genKey h ∈ en.outs := by
  unfold Asked
  simp only [List.mem_append, List.mem_singleton, or_and_right, exists_or, exists_eq_left]

theorem Decoded.updateFirst {c : Item → Bool} {f : Item → Item} (hi : Decoded cfg path l)
    (hf : ∀ it, (f it).strKey = it.strKey ∧ (f it).key = it.key) {it : Item} (h : l.find? c = some it) :
    Decoded cfg path (updateFirst c f l) := by
  refine ⟨by rw [map_updateFirst _ fun it => (hf it).1]; exact hi.nodup, ?_⟩
  intro x hx
  rcases (mem_updateFirst hi.nodup h).mp hx with rfl | ⟨hx, -⟩
  · rw [(hf it).1, (hf it).2]
    exact hi.key it (List.mem_of_find?_eq_some h)
  · exact hi.key x hx

theorem Decoded.turn {en : Entry State Event Out} (hi : Decoded cfg path l) (h : Turn cfg path p en l l') :
    Decoded cfg path l' ∧ l.map (·.strKey) ⊆ l'.map (·.strKey) := by
  cases h with
  | same => exact ⟨hi, List.Subset.refl _⟩
  | @got key genKey _ _ hnone hdec =>
    refine ⟨⟨?_, ?_⟩, ?_⟩
    · rw [List.map_append]
      refine List.nodup_append.mpr ⟨hi.nodup, List.nodup_singleton _, ?_⟩
      intro k hk k' hk' heq
      rw [List.map_singleton, List.mem_singleton] at hk'
      rw [heq, hk'] at hk
      exact find?_key_none hnone hk
    · intro it hit
      rcases List.mem_append.mp hit with hit | hit
      · exact hi.key it hit
      · rw [List.mem_singleton.mp hit]
        exact hdec
    · rw [List.map_append]
      exact List.subset_append_left _ _
  | set _ _ hfind =>
    refine ⟨hi.updateFirst (fun _ => ⟨rfl, rfl⟩) hfind, ?_⟩
    rw [map_updateFirst (f := Item.set _) _ fun _ => rfl]
    exact List.Subset.refl _
  | answered _ _ _ hfind =>
    refine ⟨hi.updateFirst (fun _ => ⟨rfl, rfl⟩) hfind, ?_⟩
    rw [map_updateFirst (f := Item.answered _) _ fun _ => rfl]
    exact List.Subset.refl _

theorem getVbh_asked {noSession h sendRet} (hst : getVbh cfg s path noSession h key sendRet = .ok (s', outs))
    (hp : s.find h = some p) {addr genKey} (ho : Out.query addr path genKey h ∈ outs) {S' : ProcessProposalSession}
    (hS' : s'.session p = some S') : key ∈ (S'.lst path).map (·.strKey) := by
  unfold getVbh at hst
  rw [hp] at hst
  obtain ⟨S, hS, hst⟩ := Except.bind_eq_ok.mp hst
  split at hst
  · obtain ⟨rfl, rfl⟩ := Prod.mk.inj (Except.ok.inj hst)
    simp at ho
  split at hst
  · obtain ⟨rfl, rfl⟩ := Prod.mk.inj (Except.ok.inj hst)
    simp at ho
  split at hst
  · obtain ⟨rfl, rfl⟩ := Prod.mk.inj (Except.ok.inj hst)
    simp at ho
  · obtain ⟨rfl, rfl⟩ := Prod.mk.inj (Except.ok.inj hst)
    rw [session_put, if_pos rfl] at hS'
    obtain rfl := Option.some.inj hS'
    rw [S.lst_setLst_self, List.map_append]
    exact List.mem_append_right _ List.mem_cons_self

theorem step_asked (hst : step cfg s e = .ok (s', outs)) {h} (he : e.gets = some (path, h, key))
    (hp : s.find h = some p) {addr genKey} (ho : Out.query addr path genKey h ∈ outs) {S' : ProcessProposalSession}
    (hS' : s'.session p = some S') : key ∈ (S'.lst path).map (·.strKey) := by
  cases e with
  | call c =>
    cases c with
    | getVbhUser h key sendRet => cases he; exact getVbh_asked hst hp ho hS'
    | getVbhInformation h key sendRet => cases he; exact getVbh_asked hst hp ho hS'
    | _ => cases he
  | _ => cases he

theorem find_lt (hm : MapInv s) {h} (hp : s.find h = some p) : p < s.next :=
  hm.bound _ _ _ (named_eq_some (s.find_eq h ▸ hp)).2

theorem LookupInv.step (hi : LookupInv cfg tr s) (hm : MapInv s) (hst : step cfg s e = .ok (s', outs)) :
    LookupInv cfg (tr ++ [⟨s, e, outs⟩]) s' := by
  have hmove := step_move hst
  have hfresh : ∀ path p key, Asked (tr ++ [⟨s, e, outs⟩]) path p key → p < s.next := by
    intro path p key ha
    rcases asked_append.mp ha with ha | ⟨h, -, hp, -⟩
    · exact hi.fresh path p key ha
    · exact find_lt hm hp
  refine ⟨fun p S' hS' path => ?_, fun p S' hS' path key ha => ?_,
    fun path p key ha => Nat.lt_of_lt_of_le (hfresh path p key ha) hmove.next_le⟩
  · rcases hmove.turn path hS' with ⟨-, -, hl, -⟩ | ⟨S, hS, ht, -⟩
    · rw [hl]
      exact ⟨List.nodup_nil, nofun⟩
    · exact ((hi.decoded p S hS path).turn ht).1
  · rcases asked_append.mp ha with ha | ⟨h, he, hp, addr, genKey, ho⟩
    · rcases hmove.turn path hS' with ⟨rfl, -, -, -⟩ | ⟨S, hS, ht, -⟩
      · exact absurd (hi.fresh path _ key ha) (Nat.lt_irrefl _)
      · exact ((hi.decoded p S hS path).turn ht).2 (hi.asked p S hS path key ha)
    · exact step_asked hst he hp ho hS'

theorem run_lookupInv {C} (h : Run (step cfg) {} C tr s) : LookupInv cfg tr s := by
  refine h.invariant (LookupInv cfg) ⟨(fun _ _ h => by cases h), (fun _ _ h => by cases h), nofun⟩ ?_
  intro tr s e s' outs hr hi _ hst
  exact hi.step (run_mapInv hr) hst

/-! ## Which entry an answer is taken for -/

theorem step_reply (he : e.reply = some r) (ht : s.proc = none) : Cc.step cfg s e = onQueryRsp s r := by
  cases e with
  | queryUserInfoRsp rsp =>
    obtain rfl := Option.some.inj he
    unfold Cc.step
    rw [ht]
    rfl
  | queryInformationRsp rsp =>
    obtain rfl := Option.some.inj he
    unfold Cc.step
    rw [ht]
    rfl
  | _ => cases he

/-- An answer reaches the entry that asked if and only if that entry is the first with the compared id. -/
theorem answer_reaches_iff (h : Run (Cc.step cfg) {} anyStep tr s) (ha : Answers cfg tr s e r p key) :
    AnswerRight cfg s e r p key ↔ FoundFirst s r p key := by
  have hi := run_lookupInv h
  obtain ⟨S, hok⟩ := (run_mapInv h).find ha.find
  have hS : s.session p = some S := processProposal_eq_ok.mp hok
  have hdec := hi.decoded p S hS r.path
  obtain ⟨it, hit, hkey⟩ := List.mem_map.mp (hi.asked p S hS r.path key ha.asked)
  have hid : r.sysIndex = it.key.systemID := by
    obtain ⟨genKey, hgen, hecho⟩ := ha.echo
    have hitdec := hdec.key it hit
    rw [hkey, hgen] at hitdec
    rw [hecho, Option.some.inj hitdec]
  have hfirst : FoundFirst s r p key ↔ (S.lst r.path).find? (·.key.systemID = r.matched) = some it := by
    rw [find?_eq_some_iff_takeWhile hit hdec.nodup]
    simp only [FoundFirst, hS, Option.some.injEq, forall_eq', hkey, hid, decide_eq_true_eq, decide_eq_false_iff_not]
    constructor
    · intro ⟨heq, hbefore⟩
      rw [heq]
      exact ⟨rfl, hbefore⟩
    · intro ⟨heq, hbefore⟩
      rw [← heq] at hbefore
      exact ⟨heq.symm, hbefore⟩
  have hstep : Cc.step cfg s e = onQueryRsp s r := step_reply ha.reply ha.turn
  unfold onQueryRsp at hstep
  rw [ha.find] at hstep
  simp only [hok, Except.ok_bind, if_pos ha.ok] at hstep
  rw [hfirst]
  constructor
  · intro ⟨S', hS', hin, hst⟩
    obtain rfl := Option.some.inj (hS.symm.trans hS')
    rw [hst] at hstep
    split at hstep
    · cases (Prod.mk.inj (Except.ok.inj hstep)).2
    · rename_i x hx
      have hupcall := (Prod.mk.inj (Except.ok.inj hstep)).2
      have hxkey : key = x.strKey := by simpa using hupcall
      rw [hx]
      refine congrArg some (List.inj_on_of_nodup_map hdec.nodup (List.mem_of_find?_eq_some hx) hit ?_)
      rw [hkey, hxkey]
  · intro hfind
    refine ⟨S, hS, hkey ▸ List.mem_map_of_mem hit, ?_⟩
    rw [hstep, hfind]
    simp only [updateFirst_eq_map hdec.nodup hfind, hkey]

end

/-! ## Users are looked for by the version -/

def lookups : List Event :=
  propose ++ [.call (.getVbhInformation handle infoKey 0), .call (.getVbhUser handle userKey 0)]

/-- The answer to a lookup of a user: its version is not the system id of the key, so no
entry takes it and the chaincode is not called. -/
theorem answer_missed : ¬∀ (cfg : Config) (tr : History) (s : State) (e : Event) (r : Reply) (p : Ptr) (key : Blob),
    Run (step cfg) {} anyStep tr s → Answers cfg tr s e r p key → AnswerRight cfg s e r p key := by
  intro hall
  have ha : Answers oneChannel (trace (step oneChannel) {} lookups) (final (step oneChannel) {} lookups)
      (userRsp 5 [2]) ⟨.user, okType, handle, 5, 0, 5, [2]⟩ 0 userKey := by
    refine ⟨rfl, rfl, rfl, rfl, ?_, ⟨0, 0, 0⟩, rfl, rfl⟩
    exact ⟨_, List.mem_of_getElem? (i := 3) rfl, handle, rfl, rfl, 3, ⟨0, 0, 0⟩, by decide⟩
  obtain ⟨S, -, -, hst⟩ := hall _ _ _ _ _ _ _ (run_trace_any lookups) ha
  have hquiet : step oneChannel (final (step oneChannel) {} lookups) (userRsp 5 [2]) =
    .ok (final (step oneChannel) {} lookups, []) := rfl
  cases (Prod.mk.inj (Except.ok.inj (hquiet.symm.trans hst))).2

theorem answer_reaches_two : ∃ tr s r, Run (step oneChannel) {} anyStep tr s ∧
    AnswerRight oneChannel s (infoRsp 5 [1]) r 0 infoKey := by
  have ha : Answers oneChannel (trace (step oneChannel) {} lookups) (final (step oneChannel) {} lookups)
      (infoRsp 5 [1]) ⟨.info, okType, handle, 0x0101010101010101, 0x0101010101010101, 5, [1]⟩ 0 infoKey := by
    refine ⟨rfl, rfl, rfl, rfl, ?_, ⟨0x0101, 0x01010101, 0x0101010101010101⟩, rfl, rfl⟩
    exact ⟨_, List.mem_of_getElem? (i := 2) rfl, handle, rfl, rfl, 3, ⟨0x0101, 0x01010101, 0x0101010101010101⟩, by decide⟩
  have hr : Run (step oneChannel) {} anyStep (trace (step oneChannel) {} lookups) _ := run_trace_any lookups
  refine ⟨_, _, _, hr, (answer_reaches_iff hr ha).mpr ⟨rfl, ?_⟩⟩
  intro S hS
  cases hS
  exact nofun

end VProtocol.Cc
