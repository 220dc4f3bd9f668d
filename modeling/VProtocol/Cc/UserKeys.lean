import VProtocol.Cc.Lookup
import VProtocol.Common.KeyCodec

/-!
# One write for each user

A session finds a user by the bytes of the key, and the write set names it by the decoded
key. The two agree as long as the session does not set two encodings of one key.
-/

namespace VProtocol.Cc

/-! ## The property -/

/-- The service with a decoder of user keys. -/
def keyConfig (d : KeyDecoder) (getXcsAddr : UInt32 → Option MsgAddr) (decodeInfoKey : Blob → Option OrderGenerateKey) :
    Config where
  getXcsAddr := getXcsAddr
  decodeGenerateUserKey := VProtocol.decodeGenerateUserKey d
  decodeInfoKey := decodeInfoKey

def OneWrite (tr : History) : Prop :=
  ∀ en ∈ tr, ∀ w ∈ en.outs.filterMap Out.content, (w.vecUpdateUser.map (·.genUserKey)).Nodup

/-- The keys, as they were given, of the users that session `p` set. -/
def setUsers (tr : History) (p : Ptr) : List Blob := (tr.filterMap (setAt .user p)).map Prod.fst

def Event.responds : Event → Option UInt64
  | .call (.porposalRsp code h _ encodes) => if code = okType ∧ encodes then some h else none
  | _ => none

/-- A session that responds did not set two encodings of one user key. -/
def DistinctUsers (cfg : Config) (tr : History) (s : State) (e : Event) : Prop :=
  ∀ h ∈ e.responds, ∀ p ∈ s.find h, ∀ key ∈ setUsers tr p, ∀ key' ∈ setUsers tr p,
    cfg.decode .user key = cfg.decode .user key' → key = key'

instance (cfg : Config) (tr : History) (s : State) (e : Event) : Decidable (DistinctUsers cfg tr s e) :=
  -- named, since the instance for finite types would go through all handles
  Option.decidableForallMem e.responds

/-! ## The items that are set -/

/-- An item is marked if its key was set. -/
structure MarkInv (tr : History) (path : Path) (p : Ptr) (l : List Item) : Prop where
  mark : ∀ it ∈ l, it.setted = (lastSet tr path p it.strKey).isSome
  known : ∀ key, (lastSet tr path p key).isSome → key ∈ l.map (·.strKey)

section
variable {cfg : Config} {s s' : State} {e : Event} {outs : List Out} {tr : History} {path : Path} {p : Ptr}
variable {l l' : List Item}

theorem mem_setUsers {key : Blob} : key ∈ setUsers tr p ↔ (lastSet tr .user p key).isSome := by
  unfold setUsers lastSet
  rw [List.lookup_isSome_iff, List.mem_map]
  simp only [List.mem_reverse, beq_iff_eq, eq_comm (a := key)]

theorem MarkInv.turn {en : Entry State Event Out} (hi : MarkInv tr path p l) (hd : Decoded cfg path l)
    (h : Turn cfg path p en l l') : MarkInv (tr ++ [en]) path p l' := by
  cases h with
  | same hs =>
    refine ⟨fun it hit => ?_, fun key hk => ?_⟩
    · rw [lastSet_quiet hs]
      exact hi.mark it hit
    · rw [lastSet_quiet hs] at hk
      exact hi.known key hk
  | @got key genKey hs _ hnone _ =>
    have hunset : lastSet tr path p key = none := by
      by_contra hne
      exact find?_key_none hnone (hi.known key (Option.isSome_iff_ne_none.mpr hne))
    refine ⟨fun it hit => ?_, fun k hk => ?_⟩
    · rw [lastSet_quiet hs]
      rcases List.mem_append.mp hit with hit | hit
      · exact hi.mark it hit
      · simp [List.mem_singleton.mp hit, hunset]
    · rw [lastSet_quiet hs] at hk
      simpa using Or.inl (List.mem_map.mp (hi.known k hk))
  | @set key value it hs _ hfind =>
    obtain ⟨-, hkey⟩ := find?_key_some hfind
    have hmap : (updateFirst (·.strKey = key) (Item.set value) l).map (·.strKey) = l.map (·.strKey) :=
      map_updateFirst _ fun _ => rfl
    refine ⟨fun x hx => ?_, fun k hk => ?_⟩
    · rcases (mem_updateFirst hd.nodup hfind).mp hx with rfl | ⟨hx, hne⟩
      · simp [lastSet_append, hs, Item.set, hkey]
      · rw [hkey] at hne
        rw [lastSet_append, hs, if_neg (by simpa using Ne.symm hne)]
        exact hi.mark x hx
    · rw [hmap]
      by_cases hk' : k = key
      · exact hk' ▸ hkey ▸ List.mem_map_of_mem (List.mem_of_find?_eq_some hfind)
      · rw [lastSet_append, hs, if_neg (by simpa using Ne.symm hk')] at hk
        exact hi.known k hk
  | @answered r it hs _ _ hfind =>
    have hmap : (updateFirst (·.key.systemID = r.matched) (Item.answered r) l).map (·.strKey) = l.map (·.strKey) :=
      map_updateFirst _ fun _ => rfl
    refine ⟨fun x hx => ?_, fun k hk => ?_⟩
    · rw [lastSet_quiet hs]
      rcases (mem_updateFirst hd.nodup hfind).mp hx with rfl | ⟨hx, -⟩
      · exact hi.mark it (List.mem_of_find?_eq_some hfind)
      · exact hi.mark x hx
    · rw [hmap]
      rw [lastSet_quiet hs] at hk
      exact hi.known k hk

theorem session_fresh (hm : MapInv s) (hp : s.next ≤ p) : s.session p = none := by
  cases hS : s.session p with
  | none => rfl
  | some S =>
    have hc := hm.fresh p hp
    rw [session_card hS] at hc
    cases hc

theorem run_markInv {C} (h : Run (step cfg) {} C tr s) :
    (∀ p S, s.session p = some S → ∀ path, MarkInv tr path p (S.lst path)) ∧
      ∀ p, s.next ≤ p → ∀ path key, lastSet tr path p key = none := by
  refine h.invariant (fun tr s => (∀ p S, s.session p = some S → ∀ path, MarkInv tr path p (S.lst path)) ∧
    ∀ p, s.next ≤ p → ∀ path key, lastSet tr path p key = none)
    ⟨(fun _ _ h => by cases h), fun _ _ _ _ => by simp [lastSet]⟩ ?_
  intro tr s e s' outs hr ⟨hmark, hfresh⟩ _ hst
  have hm := run_mapInv hr
  have hmove := step_move hst
  have hnew : ∀ p, s.next ≤ p → ∀ path key, lastSet (tr ++ [⟨s, e, outs⟩]) path p key = none := by
    intro p hp path key
    rw [lastSet_quiet ((hmove.untouched (session_fresh hm hp)).2 path).1]
    exact hfresh p hp path key
  refine ⟨fun p S' hS' path => ?_, fun p hp => hnew p (Nat.le_trans hmove.next_le hp)⟩
  rcases hmove.turn path hS' with ⟨rfl, -, hl, -⟩ | ⟨S, hS, ht, -⟩
  · rw [hl]
    refine ⟨nofun, fun key hk => ?_⟩
    simp [hnew _ (Nat.le_refl _)] at hk
  · exact (hmark p S hS path).turn ((run_lookupInv hr).decoded p S hS path) ht

/-! ## The keys of the write set -/

theorem nodup_iff (hi : MarkInv tr path p l) (hd : Decoded cfg path l) :
    ((l.filter (·.setted)).map (·.key)).Nodup ↔ ∀ key key', (lastSet tr path p key).isSome →
      (lastSet tr path p key').isSome → cfg.decode path key = cfg.decode path key' → key = key' := by
  have hset : ∀ key, (lastSet tr path p key).isSome ↔ ∃ it ∈ l.filter (·.setted), it.strKey = key := by
    intro key
    refine ⟨fun hk => ?_, fun hk => ?_⟩
    · obtain ⟨it, hit, rfl⟩ := List.mem_map.mp (hi.known key hk)
      exact ⟨it, List.mem_filter.mpr ⟨hit, (hi.mark it hit).trans hk⟩, rfl⟩
    · obtain ⟨it, hit, rfl⟩ := hk
      obtain ⟨hit, hs⟩ := List.mem_filter.mp hit
      exact (hi.mark it hit).symm.trans hs
  have hdec : ∀ it ∈ l.filter (·.setted), cfg.decode path it.strKey = some it.key :=
    fun it hit => hd.key it (List.mem_of_mem_filter hit)
  rw [List.nodup_map_iff_inj_on ((hd.nodup.of_map _).filter _)]
  refine ⟨fun hinj key key' hk hk' heq => ?_, fun hinj x hx y hy hxy => ?_⟩
  · obtain ⟨x, hx, rfl⟩ := (hset key).mp hk
    obtain ⟨y, hy, rfl⟩ := (hset key').mp hk'
    rw [hdec x hx, hdec y hy] at heq
    rw [hinj x hx y hy (Option.some.inj heq)]
  · apply List.inj_on_of_nodup_map hd.nodup (List.mem_of_mem_filter hx) (List.mem_of_mem_filter hy)
    apply hinj
    · exact (hset _).mpr ⟨x, hx, rfl⟩
    · exact (hset _).mpr ⟨y, hy, rfl⟩
    · rw [hdec x hx, hdec y hy, hxy]

theorem content_responds (h : Move cfg s e s' outs) {w : TransContent} (hw : w ∈ outs.filterMap Out.content) :
    ∃ hd p S result, e.responds = some hd ∧ s.find hd = some p ∧ s.session p = some S ∧ w = S.content result := by
  obtain ⟨o, ho, how⟩ := List.mem_filterMap.mp hw
  have hnone : (∀ o ∈ outs, o.content = none) → False := fun h => by simp [h o ho] at how
  cases h with
  | registered => simp [onDscMsgRegistUserEsCcReq, Out.content] at hw
  | proposed => simp [onDscMsgSubmitProposalEsCcReq, Out.content] at hw
  | returned => cases hw
  | quiet _ _ _ hq => exact (hnone hq).elim
  | got _ _ _ _ _ hq => exact (hnone hq).elim
  | set => simp [Out.content] at hw
  | created => simp [Out.content] at hw
  | answered => simp [Out.content] at hw
  | @responded code hd result encodes p S he hp hS =>
    subst he
    by_cases hok : code = okType
    · cases encodes with
      | false => simp [hok, Out.content] at hw
      | true => exact ⟨hd, p, S, result, by simp [Event.responds, hok], hp, hS, by simpa [hok, Out.content] using hw⟩
    · simp [hok, Out.content] at hw
  | ended _ _ _ _ hq => exact (hnone hq).elim

theorem responds_content {hd} (he : e.responds = some hd) (hp : s.find hd = some p)
    (hst : step cfg s e = .ok (s', outs)) :
    ∃ S result, s.session p = some S ∧ S.content result ∈ outs.filterMap Out.content := by
  cases e with
  | call c =>
    cases c with
    | porposalRsp code h result encodes =>
      simp only [Event.responds] at he
      split at he
      · rename_i hok
        obtain rfl := Option.some.inj he
        have hst : porposalRsp s code h result encodes = .ok (s', outs) := hst
        unfold porposalRsp at hst
        rw [hp] at hst
        obtain ⟨S, hS, hst⟩ := Except.bind_eq_ok.mp hst
        rw [processProposal_eq_ok] at hS
        obtain ⟨-, rfl⟩ := Prod.mk.inj (Except.ok.inj hst)
        exact ⟨S, result, hS, by simp [hok.1, hok.2, Out.content]⟩
      · cases he
    | _ => cases he
  | _ => cases he

theorem run_oneWrite (h : Run (step cfg) {} anyStep tr s) : OneWrite tr ↔ Each (DistinctUsers cfg) tr := by
  -- the state before a step, and what the list of users says about the history
  have hkeys : ∀ tr s, Run (step cfg) {} anyStep tr s → ∀ p S, s.session p = some S → ∀ result,
      (((S.content result).vecUpdateUser.map (·.genUserKey)).Nodup ↔ ∀ key ∈ setUsers tr p,
        ∀ key' ∈ setUsers tr p, cfg.decode .user key = cfg.decode .user key' → key = key') := by
    intro tr s hr p S hS result
    have hmap : (S.content result).vecUpdateUser.map (·.genUserKey) = ((S.lst .user).filter (·.setted)).map (·.key) := by
      simp [ProcessProposalSession.content, ProcessProposalSession.lst, Function.comp_def]
    rw [hmap, nodup_iff ((run_markInv hr).1 p S hS .user) ((run_lookupInv hr).decoded p S hS .user)]
    simp only [mem_setUsers]
    exact ⟨fun h key hk key' hk' => h key key' hk hk', fun h key key' hk hk' => h key hk key' hk'⟩
  refine ⟨fun hone tr₁ en tr₂ htr hd he p hp => ?_, fun hall en hen w hw => ?_⟩
  · obtain ⟨s', hr, -, hst⟩ := h.entry htr
    obtain ⟨S, result, hS, hw⟩ := responds_content he hp hst
    apply (hkeys tr₁ en.pre hr p S hS result).mp
    exact hone en (htr ▸ List.mem_append_right _ List.mem_cons_self) _ hw
  · obtain ⟨tr₁, tr₂, htr⟩ := List.append_of_mem hen
    obtain ⟨s', hr, -, hst⟩ := h.entry htr
    obtain ⟨hd, p, S, result, he, hp, hS, rfl⟩ := content_responds (step_move hst) hw
    exact (hkeys tr₁ en.pre hr p S hS result).mpr (hall tr₁ en tr₂ htr hd he p hp)

end

/-- Every write set has one entry for each user, if and only if no session that responds
set two encodings of one key. -/
theorem one_write_iff (d : KeyDecoder) (getXcsAddr : UInt32 → Option MsgAddr)
    (decodeInfoKey : Blob → Option OrderGenerateKey) {tr : History} {s : State}
    (h : Run (step (keyConfig d getXcsAddr decodeInfoKey)) {} anyStep tr s) :
    OneWrite tr ↔ Each (DistinctUsers (keyConfig d getXcsAddr decodeInfoKey)) tr :=
  run_oneWrite h

/-- A session that sets a key and the same key with anything after its Base64 text sets two encodings. -/
theorem encodings_not_distinct (d : KeyDecoder) (getXcsAddr : UInt32 → Option MsgAddr)
    (decodeInfoKey : Blob → Option OrderGenerateKey) {tr : History} {s : State} {e : Event} {h : UInt64} {p : Ptr}
    {key rest : Blob} {c : UInt8} (he : e.responds = some h) (hp : s.find h = some p) (hk : key ≠ [])
    (hc : isBase64 c = false) (hs : key ∈ setUsers tr p) (hs' : key ++ c :: rest ∈ setUsers tr p) :
    ¬DistinctUsers (keyConfig d getXcsAddr decodeInfoKey) tr s e := by
  intro hd
  have heq := hd h he p hp _ hs _ hs' (by simp [Config.decode, keyConfig, decodeGenerateUserKey_append d hk hc])
  simpa using congrArg List.length heq

/-! ## Two encodings -/

/-- It decodes the text of zeros as Base64 does, and reads a key of zeros. -/
def zeroDecoder : KeyDecoder where
  base64decode key := List.replicate ((key.takeWhile isBase64).length * 3 / 4) 0
  decode buffer := if 18 ≤ buffer.length then some (0, ⟨0, 0, 0⟩) else none
  stops key c rest hc := by
    have htake : (key ++ c :: rest).takeWhile isBase64 = key.takeWhile isBase64 := by
      induction key with
      | nil => simp [hc]
      | cons b key ih => simp [List.takeWhile_cons, ih]
    rw [htake]

def zeroConfig : Config := keyConfig zeroDecoder (fun _ => some 3) fun _ => none

/-- A session that sets two users and responds. -/
def setBoth (key key' : Blob) : List Event :=
  propose ++ [.call (.getVbhUser handle key 0), .call (.getVbhUser handle key' 0), .call (.setVbhUser handle key [1]),
    .call (.setVbhUser handle key' [2]), .call (.porposalRsp okType handle [7] true)]

/-- The second key is the first with a zero byte after it: the user is written twice. -/
theorem user_written_twice : ¬∀ (d : KeyDecoder) (getXcsAddr : UInt32 → Option MsgAddr)
    (decodeInfoKey : Blob → Option OrderGenerateKey) (tr : History) (s : State),
    Run (step (keyConfig d getXcsAddr decodeInfoKey)) {} anyStep tr s → OneWrite tr := by
  intro hall
  let evs := setBoth userKey (userKey ++ [0])
  have hr : Run (step zeroConfig) {} anyStep (trace (step zeroConfig) {} evs) _ := run_trace_any evs
  have hone := hall zeroDecoder _ _ _ _ hr _ (List.mem_of_getElem? (i := 6) rfl)
    ⟨[9], [7], [⟨1, ⟨0, 0, 0⟩, [1]⟩, ⟨1, ⟨0, 0, 0⟩, [2]⟩], [], []⟩ (by decide)
  exact absurd hone (by decide)

theorem one_write_two : ∃ tr s, Run (step zeroConfig) {} anyStep tr s ∧ OneWrite tr ∧
    (tr.flatMap (·.outs)).filterMap Out.content = [⟨[9], [7], [⟨1, ⟨0, 0, 0⟩, [2]⟩], [], []⟩] := by
  let evs := setBoth userKey userKey
  have hr : Run (step zeroConfig) {} anyStep (trace (step zeroConfig) {} evs) _ := run_trace_any evs
  have hs := run_of_meets (step zeroConfig) {} (DistinctUsers zeroConfig) evs (by decide)
  exact ⟨_, _, hr, (one_write_iff zeroDecoder _ _ hr).mpr hs.each, by decide⟩

end VProtocol.Cc
