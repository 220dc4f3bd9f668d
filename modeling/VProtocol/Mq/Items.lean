import Mathlib.Tactic.Basic
import VProtocol.Lib.Update
import VProtocol.Mq.Forwarder

/-!
# Items, arrays and lists

Whatever the two maps of sessions do, an item is in the array of its topic and in the list
of one session, each topic that is there has an item, and the items of a session have its
client and its handler. The loops over lists and topics keep this with every item.
-/

namespace VProtocol.Mq

open Function (update)

/-- The topics, the items with their indices, the sessions, and the next address. -/
structure Filed (topics : UInt32 → Option TopicSession) (ix : Indices) (items : Ptr → Option HandlerSessionItem)
    (sessions : Ptr → Option HandlerSession) (next : Ptr) : Prop where
  topic : ∀ t T, topics t = some T → T.topicID = t ∧ T.handlerSessionArray.elems ≠ [] ∧
    T.handlerSessionArray.Placed ix
  member : ∀ t T i, topics t = some T → i ∈ T.handlerSessionArray.elems → ∃ I, items i = some I ∧ I.topicSession = t
  item : ∀ i I, items i = some I → ∃ T, topics I.topicSession = some T ∧ i ∈ T.handlerSessionArray.elems
  list : ∀ p S, sessions p = some S → S.lstHandlerSessionItem.Nodup ∧
    ∀ i ∈ S.lstHandlerSessionItem, ∃ I, items i = some I ∧ I.clientID = S.clientID ∧ I.mcpHandler = S.mcpHandler
  owner : ∀ i I, items i = some I → ∃ p S, sessions p = some S ∧ i ∈ S.lstHandlerSessionItem
  owner_eq : ∀ {p p' S S' i}, sessions p = some S → sessions p' = some S' → i ∈ S.lstHandlerSessionItem →
    i ∈ S'.lstHandlerSessionItem → p = p'
  item_lt : ∀ i I, items i = some I → i < next
  session_lt : ∀ p S, sessions p = some S → p < next

/-- What the topics and the indices say of the items. -/
structure InArrays (topics : UInt32 → Option TopicSession) (ix : Indices)
    (items : Ptr → Option HandlerSessionItem) : Prop where
  topic : ∀ t T, topics t = some T → T.topicID = t ∧ T.handlerSessionArray.elems ≠ [] ∧
    T.handlerSessionArray.Placed ix
  member : ∀ t T i, topics t = some T → i ∈ T.handlerSessionArray.elems → ∃ I, items i = some I ∧ I.topicSession = t
  item : ∀ i I, items i = some I → ∃ T, topics I.topicSession = some T ∧ i ∈ T.handlerSessionArray.elems

/-- What the sessions say of the items. -/
structure InLists (items : Ptr → Option HandlerSessionItem) (sessions : Ptr → Option HandlerSession) : Prop where
  list : ∀ p S, sessions p = some S → S.lstHandlerSessionItem.Nodup ∧
    ∀ i ∈ S.lstHandlerSessionItem, ∃ I, items i = some I ∧ I.clientID = S.clientID ∧ I.mcpHandler = S.mcpHandler
  owner : ∀ i I, items i = some I → ∃ p S, sessions p = some S ∧ i ∈ S.lstHandlerSessionItem
  owner_eq : ∀ {p p' S S' i}, sessions p = some S → sessions p' = some S' → i ∈ S.lstHandlerSessionItem →
    i ∈ S'.lstHandlerSessionItem → p = p'

def HandlerSession.setList (l : List Ptr) (S : HandlerSession) : HandlerSession := { S with lstHandlerSessionItem := l }

def Forwarder.Core {κ : Type} (s : Forwarder κ) : Prop :=
  Filed s.mapTopicSession s.itemIndex s.items s.sessions s.next

section
variable {topics : UInt32 → Option TopicSession} {ix : Indices} {items : Ptr → Option HandlerSessionItem}
  {sessions : Ptr → Option HandlerSession} {next : Ptr} {p i : Ptr} {S : HandlerSession} {I : HandlerSessionItem}
  {T : TopicSession} {l : List Ptr}

theorem filed_empty : Filed (fun _ => none) ix (fun _ => none) (fun _ => none) next :=
  ⟨nofun, nofun, nofun, nofun, nofun, nofun, nofun, nofun⟩

theorem Filed.inArrays (h : Filed topics ix items sessions next) : InArrays topics ix items :=
  ⟨h.topic, h.member, h.item⟩

theorem Filed.inLists (h : Filed topics ix items sessions next) : InLists items sessions :=
  ⟨h.list, h.owner, h.owner_eq⟩

theorem Filed.fresh (h : Filed topics ix items sessions next) : items next = none := by
  cases hI : items next with
  | none => rfl
  | some I => exact absurd (h.item_lt next I hI) (Nat.lt_irrefl next)

theorem InArrays.topic_of_item (h : InArrays topics ix items) {t : UInt32} (hT : topics t = some T)
    (hi : i ∈ T.handlerSessionArray.elems) (hI : items i = some I) : I.topicSession = t := by
  obtain ⟨J, hJ, ht⟩ := h.member t T i hT hi
  obtain rfl := Option.some.inj (hI.symm.trans hJ)
  exact ht

/-! ## Sessions without items -/

theorem Filed.remove (h : Filed topics ix items (update sessions p (some (S.setList []))) next) :
    Filed topics ix items (update sessions p none) next := by
  have hkept : ∀ q R, update sessions p none q = some R → q ≠ p ∧
      update sessions p (some (S.setList [])) q = some R := by
    intro q R hq
    obtain ⟨hne, hq⟩ := update_none_eq_some.mp hq
    exact ⟨hne, by rw [Function.update_of_ne hne]; exact hq⟩
  refine ⟨h.topic, h.member, h.item, fun q R hq => h.list q R (hkept q R hq).2, fun i I hI => ?_,
    fun {q q' R R' i} hq hq' hi hi' => h.owner_eq (hkept q R hq).2 (hkept q' R' hq').2 hi hi', h.item_lt,
    fun q R hq => h.session_lt q R (hkept q R hq).2⟩
  obtain ⟨q, R, hq, hi⟩ := h.owner i I hI
  refine ⟨q, R, ?_, hi⟩
  rcases update_eq_some.mp hq with ⟨rfl, rfl⟩ | ⟨hne, hq⟩
  · cases hi
  · rw [Function.update_of_ne hne]
    exact hq

theorem Filed.create (h : Filed topics ix items sessions next) (S : HandlerSession)
    (hl : S.lstHandlerSessionItem = []) : Filed topics ix items (update sessions next (some S)) (next + 1) := by
  have hold : ∀ {q R}, update sessions next (some S) q = some R → ∀ {i}, i ∈ R.lstHandlerSessionItem →
      sessions q = some R := by
    intro q R hq i hi
    rcases update_eq_some.mp hq with ⟨-, rfl⟩ | ⟨-, hq⟩
    · rw [hl] at hi
      cases hi
    · exact hq
  refine ⟨h.topic, h.member, h.item, fun q R hq => ?_, fun i I hI => ?_,
    fun hq hq' hi hi' => h.owner_eq (hold hq hi) (hold hq' hi') hi hi',
    fun i I hI => Nat.lt_succ_of_lt (h.item_lt i I hI), fun q R hq => ?_⟩
  · rcases update_eq_some.mp hq with ⟨-, rfl⟩ | ⟨-, hq⟩
    · rw [hl]
      exact ⟨List.nodup_nil, fun i hi => absurd hi List.not_mem_nil⟩
    · exact h.list q R hq
  · obtain ⟨q, R, hq, hi⟩ := h.owner i I hI
    have hne : q ≠ next := Nat.ne_of_lt (h.session_lt q R hq)
    exact ⟨q, R, by rw [Function.update_of_ne hne]; exact hq, hi⟩
  · rcases update_eq_some.mp hq with ⟨rfl, -⟩ | ⟨-, hq⟩
    · exact Nat.lt_succ_self q
    · exact Nat.lt_succ_of_lt (h.session_lt q R hq)

theorem Filed.turn (h : Filed topics ix items sessions next) {t : UInt32} {a : TypeArray} (hT : topics t = some T)
    (ha : a.elems = T.handlerSessionArray.elems) :
    Filed (update topics t (some { T with handlerSessionArray := a })) ix items sessions next := by
  have hcases : ∀ {t' T'}, update topics t (some { T with handlerSessionArray := a }) t' = some T' →
      ∃ T₀, topics t' = some T₀ ∧ T'.topicID = T₀.topicID ∧
        T'.handlerSessionArray.elems = T₀.handlerSessionArray.elems := by
    intro t' T' hT'
    rcases update_eq_some.mp hT' with ⟨rfl, rfl⟩ | ⟨-, hT'⟩
    · exact ⟨T, hT, rfl, ha⟩
    · exact ⟨T', hT', rfl, rfl⟩
  refine ⟨fun t' T' hT' => ?_, fun t' T' i hT' hi => ?_, fun i I hI => ?_, h.list, h.owner, h.owner_eq, h.item_lt,
    h.session_lt⟩
  · obtain ⟨T₀, hT₀, hid, helems⟩ := hcases hT'
    obtain ⟨hid', hne, hplaced⟩ := h.topic t' T₀ hT₀
    exact ⟨hid.trans hid', by rw [helems]; exact hne, hplaced.of_elems helems⟩
  · obtain ⟨T₀, hT₀, -, helems⟩ := hcases hT'
    rw [helems] at hi
    exact h.member t' T₀ i hT₀ hi
  · obtain ⟨T', hT', hi⟩ := h.item i I hI
    by_cases ht : I.topicSession = t
    · rw [ht, hT] at hT'
      obtain rfl := Option.some.inj hT'
      rw [← ha] at hi
      exact ⟨_, by rw [ht]; exact Function.update_self _ _ _, hi⟩
    · exact ⟨T', (Function.update_of_ne ht _ _).trans hT', hi⟩

/-! ## One item less -/

theorem InArrays.release (h : InArrays topics ix items) (hI : items i = some I) :
    ∃ T a ix' q, topics I.topicSession = some T ∧ T.topicID = I.topicSession ∧
      T.handlerSessionArray.delete i ix = .ok (a, ix', q) ∧
      InArrays (if a.isEmpty then update topics I.topicSession none
        else update topics I.topicSession (some { T with handlerSessionArray := a })) ix' (update items i none) := by
  obtain ⟨T, hT, hi⟩ := h.item i I hI
  obtain ⟨hid, hne, hplaced⟩ := h.topic _ T hT
  obtain ⟨a, ix', q, hdel, hmem, hlen, hplaced', hnone, hframe⟩ := hplaced.delete hi
  refine ⟨T, a, ix', q, hT, hid, hdel, ?_⟩
  have hempty : a.isEmpty = true ↔ a.elems = [] := List.isEmpty_iff
  generalize htopics : (if a.isEmpty then update topics I.topicSession none
    else update topics I.topicSession (some { T with handlerSessionArray := a })) = topics'
  -- the topic of the item, if it is still there, and the others as they were
  have hself : topics' I.topicSession = if a.elems = [] then none else some { T with handlerSessionArray := a } := by
    rw [← htopics]
    by_cases ha : a.elems = []
    · rw [if_pos (hempty.mpr ha), if_pos ha, Function.update_self]
    · rw [if_neg (fun he => ha (hempty.mp he)), if_neg ha, Function.update_self]
  have hother : ∀ t, t ≠ I.topicSession → topics' t = topics t := by
    intro t ht
    rw [← htopics]
    split
    · exact Function.update_of_ne ht _ _
    · exact Function.update_of_ne ht _ _
  have hcases : ∀ {t T'}, topics' t = some T' → (t = I.topicSession ∧ a.elems ≠ [] ∧
      T' = { T with handlerSessionArray := a }) ∨ (t ≠ I.topicSession ∧ topics t = some T') := by
    intro t T' hT'
    by_cases ht : t = I.topicSession
    · subst ht
      rw [hself] at hT'
      split at hT'
      · cases hT'
      · rename_i ha
        exact .inl ⟨rfl, ha, (Option.some.inj hT').symm⟩
    · rw [hother t ht] at hT'
      exact .inr ⟨ht, hT'⟩
  refine ⟨fun t T' hT' => ?_, fun t T' j hT' hj => ?_, fun j J hJ => ?_⟩
  · rcases hcases hT' with ⟨rfl, ha, rfl⟩ | ⟨ht, hT'⟩
    · exact ⟨hid, ha, hplaced'⟩
    · obtain ⟨hid', hne', hp'⟩ := h.topic t T' hT'
      refine ⟨hid', hne', hp'.congr fun j hj => hframe j fun hjT => ht ?_⟩
      obtain ⟨J, hJ, hJt⟩ := h.member t T' j hT' hj
      rw [← hJt, h.topic_of_item hT hjT hJ]
  · rcases hcases hT' with ⟨rfl, ha, rfl⟩ | ⟨ht, hT'⟩
    · obtain ⟨hji, hjT⟩ := (hmem j).mp hj
      obtain ⟨J, hJ, hJt⟩ := h.member _ T j hT hjT
      exact ⟨J, by rw [Function.update_of_ne hji]; exact hJ, hJt⟩
    · obtain ⟨J, hJ, hJt⟩ := h.member t T' j hT' hj
      have hji : j ≠ i := by
        rintro rfl
        obtain rfl := Option.some.inj (hI.symm.trans hJ)
        exact ht hJt.symm
      exact ⟨J, by rw [Function.update_of_ne hji]; exact hJ, hJt⟩
  · obtain ⟨hji, hJ⟩ := update_none_eq_some.mp hJ
    obtain ⟨T', hT', hj⟩ := h.item j J hJ
    by_cases ht : J.topicSession = I.topicSession
    · rw [ht, hT] at hT'
      obtain rfl := Option.some.inj hT'
      have hja : j ∈ a.elems := (hmem j).mpr ⟨hji, hj⟩
      rw [ht, hself, if_neg (List.ne_nil_of_mem hja)]
      exact ⟨_, rfl, hja⟩
    · rw [hother _ ht]
      exact ⟨T', hT', hj⟩

theorem InLists.release (h : InLists items (update sessions p (some (S.setList (i :: l))))) :
    InLists (update items i none) (update sessions p (some (S.setList l))) := by
  obtain ⟨hnodup, -⟩ := h.list p _ (Function.update_self p _ _)
  have hil : i ∉ l := (List.nodup_cons.mp hnodup).1
  -- the session keeps the rest of its list, the others have nothing of it
  have hsess : ∀ {r R}, update sessions p (some (S.setList l)) r = some R → ∃ R', R'.clientID = R.clientID ∧
      R'.mcpHandler = R.mcpHandler ∧ update sessions p (some (S.setList (i :: l))) r = some R' ∧
      R.lstHandlerSessionItem.Sublist R'.lstHandlerSessionItem ∧ i ∉ R.lstHandlerSessionItem := by
    intro r R hr
    rcases update_eq_some.mp hr with ⟨rfl, rfl⟩ | ⟨hne, hr⟩
    · exact ⟨S.setList (i :: l), rfl, rfl, Function.update_self r _ _, List.sublist_cons_self i l, hil⟩
    · have hr' : update sessions p (some (S.setList (i :: l))) r = some R := by
        rw [Function.update_of_ne hne]
        exact hr
      refine ⟨R, rfl, rfl, hr', List.Sublist.refl _, fun hiR => hne ?_⟩
      exact h.owner_eq hr' (Function.update_self p _ _) hiR List.mem_cons_self
  refine ⟨fun r R hr => ?_, fun j J hJ => ?_, fun {r r' R R' j} hr hr' hj hj' => ?_⟩
  · obtain ⟨R', hc, hh, hr', hsub, hiR⟩ := hsess hr
    obtain ⟨hn, hl⟩ := h.list r R' hr'
    refine ⟨hn.sublist hsub, fun j hj => ?_⟩
    obtain ⟨J, hJ, hJc, hJh⟩ := hl j (hsub.subset hj)
    have hji : j ≠ i := fun he => hiR (he ▸ hj)
    exact ⟨J, by rw [Function.update_of_ne hji]; exact hJ, hJc.trans hc, hJh.trans hh⟩
  · obtain ⟨hji, hJ⟩ := update_none_eq_some.mp hJ
    obtain ⟨r, R, hr, hj⟩ := h.owner j J hJ
    rcases update_eq_some.mp hr with ⟨rfl, rfl⟩ | ⟨hne, hr⟩
    · exact ⟨r, _, Function.update_self r _ _, (List.mem_cons.mp hj).resolve_left hji⟩
    · exact ⟨r, R, by rw [Function.update_of_ne hne]; exact hr, hj⟩
  · obtain ⟨Q, -, -, hQ, hsub, -⟩ := hsess hr
    obtain ⟨Q', -, -, hQ', hsub', -⟩ := hsess hr'
    exact h.owner_eq hQ hQ' (hsub.subset hj) (hsub'.subset hj')

theorem Filed.release (h : Filed topics ix items (update sessions p (some (S.setList (i :: l)))) next) :
    ∃ I T a ix' q, items i = some I ∧ topics I.topicSession = some T ∧ T.topicID = I.topicSession ∧
      T.handlerSessionArray.delete i ix = .ok (a, ix', q) ∧
      Filed (if a.isEmpty then update topics I.topicSession none
        else update topics I.topicSession (some { T with handlerSessionArray := a })) ix' (update items i none)
        (update sessions p (some (S.setList l))) next := by
  obtain ⟨-, hlist⟩ := h.list p _ (Function.update_self p _ _)
  obtain ⟨I, hI, -, -⟩ := hlist i List.mem_cons_self
  obtain ⟨T, a, ix', q, hT, hid, hdel, harrays⟩ := h.inArrays.release hI
  have hlists := h.inLists.release
  refine ⟨I, T, a, ix', q, hI, hT, hid, hdel, harrays.topic, harrays.member, harrays.item, hlists.list, hlists.owner,
    hlists.owner_eq, fun j J hJ => h.item_lt j J (update_none_eq_some.mp hJ).2, fun r R hr => ?_⟩
  rcases update_eq_some.mp hr with ⟨rfl, -⟩ | ⟨hne, hr⟩
  · exact h.session_lt r _ (Function.update_self r _ _)
  · exact h.session_lt r R (by rw [Function.update_of_ne hne]; exact hr)

/-! ## One item more -/

theorem InArrays.add (h : InArrays topics ix items) (hnew : items i = none) (t : UInt32) (hI : I.topicSession = t) :
    InArrays
      (update topics t (some { (topics t).getD { topicID := t } with
        handlerSessionArray :=
          (((topics t).getD { topicID := t }).handlerSessionArray.insert i (update ix i none)).1 }))
      (((topics t).getD { topicID := t }).handlerSessionArray.insert i (update ix i none)).2
      (update items i (some I)) := by
  generalize hT : (topics t).getD { topicID := t } = T
  have hfresh : update ix i none i = none := Function.update_self _ _ _
  obtain ⟨helems, hix⟩ := TypeArray.insert_elems T.handlerSessionArray hfresh
  -- the topic is the one that is there, or a new one without elements
  have hold : T.topicID = t ∧ T.handlerSessionArray.Placed ix ∧
      ∀ j ∈ T.handlerSessionArray.elems, ∃ J, items j = some J ∧ J.topicSession = t := by
    cases htop : topics t with
    | none =>
      rw [htop, Option.getD_none] at hT
      subst hT
      exact ⟨rfl, TypeArray.placed_empty ix, fun j hj => absurd hj List.not_mem_nil⟩
    | some T' =>
      rw [htop, Option.getD_some] at hT
      subst hT
      obtain ⟨hid, -, hplaced⟩ := h.topic t T' htop
      exact ⟨hid, hplaced, fun j hj => h.member t T' j htop hj⟩
  obtain ⟨hid, hplaced, hmember⟩ := hold
  have hcongr : T.handlerSessionArray.Placed (update ix i none) := by
    refine hplaced.congr fun q hq => ?_
    obtain ⟨J, hJ, -⟩ := hmember q hq
    exact Function.update_of_ne (ne_of_none hnew hJ) _ _
  have hplaced' := hcongr.insert hfresh
  refine ⟨fun t' T' hT' => ?_, fun t' T' j hT' hj => ?_, fun j J hJ => ?_⟩
  · rcases update_eq_some.mp hT' with ⟨rfl, rfl⟩ | ⟨ht, hT'⟩
    · refine ⟨hid, ?_, hplaced'⟩
      simp only
      rw [helems]
      exact List.append_ne_nil_of_right_ne_nil _ (List.cons_ne_nil _ _)
    · obtain ⟨hid', hne', hp'⟩ := h.topic t' T' hT'
      refine ⟨hid', hne', hp'.congr fun q hq => ?_⟩
      obtain ⟨J, hJ, -⟩ := h.member t' T' q hT' hq
      rw [hix, Function.update_of_ne (ne_of_none hnew hJ), Function.update_of_ne (ne_of_none hnew hJ)]
  · rcases update_eq_some.mp hT' with ⟨rfl, rfl⟩ | ⟨ht, hT'⟩
    · simp only at hj
      rw [helems] at hj
      rcases List.mem_append.mp hj with hj | hj
      · obtain ⟨J, hJ, hJt⟩ := hmember j hj
        exact ⟨J, update_of_none hnew hJ _, hJt⟩
      · obtain rfl := List.mem_singleton.mp hj
        exact ⟨I, Function.update_self _ _ _, hI⟩
    · obtain ⟨J, hJ, hJt⟩ := h.member t' T' j hT' hj
      exact ⟨J, update_of_none hnew hJ _, hJt⟩
  · rcases update_eq_some.mp hJ with ⟨rfl, rfl⟩ | ⟨-, hJ⟩
    · rw [hI]
      refine ⟨_, Function.update_self _ _ _, ?_⟩
      simp only
      rw [helems]
      exact List.mem_append_right _ (List.mem_singleton.mpr rfl)
    · obtain ⟨T', hT', hj⟩ := h.item j J hJ
      by_cases ht : J.topicSession = t
      · refine ⟨_, by rw [ht]; exact Function.update_self _ _ _, ?_⟩
        rw [ht] at hT'
        rw [hT', Option.getD_some] at hT
        subst hT
        simp only
        rw [helems]
        exact List.mem_append_left _ hj
      · exact ⟨T', by rw [Function.update_of_ne ht]; exact hT', hj⟩

theorem InLists.add (h : InLists items sessions) (hp : sessions p = some S) (hnew : items i = none)
    (hc : I.clientID = S.clientID) (hh : I.mcpHandler = S.mcpHandler) : InLists (update items i (some I))
      (update sessions p (some { S with lstHandlerSessionItem := S.lstHandlerSessionItem ++ [i] })) := by
  have hmem_ne : ∀ {q R j}, sessions q = some R → j ∈ R.lstHandlerSessionItem → j ≠ i := by
    intro q R j hq hj
    obtain ⟨J, hJ, -⟩ := (h.list q R hq).2 j hj
    exact ne_of_none hnew hJ
  -- a session's list is as it was, but for the new item
  have hsess : ∀ {q R j}, update sessions p
      (some { S with lstHandlerSessionItem := S.lstHandlerSessionItem ++ [i] }) q = some R →
      j ∈ R.lstHandlerSessionItem → (j = i ∧ q = p) ∨
        (j ≠ i ∧ ∃ R', sessions q = some R' ∧ j ∈ R'.lstHandlerSessionItem) := by
    intro q R j hq hj
    rcases update_eq_some.mp hq with ⟨rfl, rfl⟩ | ⟨-, hq⟩
    · rcases List.mem_append.mp hj with hj | hj
      · exact .inr ⟨hmem_ne hp hj, S, hp, hj⟩
      · exact .inl ⟨List.mem_singleton.mp hj, rfl⟩
    · exact .inr ⟨hmem_ne hq hj, R, hq, hj⟩
  refine ⟨fun q R hq => ?_, fun j J hJ => ?_, fun {q q' R R' j} hq hq' hj hj' => ?_⟩
  · rcases update_eq_some.mp hq with ⟨rfl, rfl⟩ | ⟨-, hq⟩
    · obtain ⟨hn, hl⟩ := h.list q S hp
      refine ⟨?_, fun j hj => ?_⟩
      · refine List.nodup_append.mpr ⟨hn, List.nodup_singleton i, fun x hx y hy => ?_⟩
        rw [List.mem_singleton.mp hy]
        exact hmem_ne hp hx
      · rcases List.mem_append.mp hj with hj | hj
        · obtain ⟨J, hJ, hc, hh⟩ := hl j hj
          exact ⟨J, update_of_none hnew hJ _, hc, hh⟩
        · obtain rfl := List.mem_singleton.mp hj
          exact ⟨I, Function.update_self _ _ _, hc, hh⟩
    · obtain ⟨hn, hl⟩ := h.list q R hq
      refine ⟨hn, fun j hj => ?_⟩
      obtain ⟨J, hJ, hc, hh⟩ := hl j hj
      exact ⟨J, update_of_none hnew hJ _, hc, hh⟩
  · rcases update_eq_some.mp hJ with ⟨rfl, rfl⟩ | ⟨-, hJ⟩
    · exact ⟨p, _, Function.update_self _ _ _, List.mem_append_right _ (List.mem_singleton.mpr rfl)⟩
    · obtain ⟨q, R, hq, hj⟩ := h.owner j J hJ
      by_cases hqp : q = p
      · subst hqp
        obtain rfl := Option.some.inj (hp.symm.trans hq)
        exact ⟨q, _, Function.update_self _ _ _, List.mem_append_left _ hj⟩
      · exact ⟨q, R, by rw [Function.update_of_ne hqp]; exact hq, hj⟩
  · rcases hsess hq hj with ⟨hji, rfl⟩ | ⟨hji, Q, hQ, hjQ⟩
    · rcases hsess hq' hj' with ⟨-, rfl⟩ | ⟨hji', -⟩
      · rfl
      · exact absurd hji hji'
    · rcases hsess hq' hj' with ⟨hji', -⟩ | ⟨-, Q', hQ', hjQ'⟩
      · exact absurd hji' hji
      · exact h.owner_eq hQ hQ' hjQ hjQ'

theorem Filed.add (h : Filed topics ix items sessions next) (hp : sessions p = some S) (t : UInt32) :
    Filed
      (update topics t (some { (topics t).getD { topicID := t } with
        handlerSessionArray :=
          (((topics t).getD { topicID := t }).handlerSessionArray.insert next (update ix next none)).1 }))
      (((topics t).getD { topicID := t }).handlerSessionArray.insert next (update ix next none)).2
      (update items next (some ⟨S.clientID, t, S.mcpHandler⟩))
      (update sessions p (some { S with lstHandlerSessionItem := S.lstHandlerSessionItem ++ [next] })) (next + 1) := by
  have harrays := h.inArrays.add (I := ⟨S.clientID, t, S.mcpHandler⟩) h.fresh t rfl
  have hlists := h.inLists.add (I := ⟨S.clientID, t, S.mcpHandler⟩) hp h.fresh rfl rfl
  refine ⟨harrays.topic, harrays.member, harrays.item, hlists.list, hlists.owner, hlists.owner_eq,
    fun i I hI => ?_, fun q R hq => ?_⟩
  · rcases update_eq_some.mp hI with ⟨rfl, -⟩ | ⟨-, hI⟩
    · exact Nat.lt_succ_self _
    · exact Nat.lt_succ_of_lt (h.item_lt i I hI)
  · rcases update_eq_some.mp hq with ⟨rfl, -⟩ | ⟨-, hq⟩
    · exact Nat.lt_succ_of_lt (h.session_lt q S hp)
    · exact Nat.lt_succ_of_lt (h.session_lt q R hq)

end

/-! ## The loops -/

namespace Forwarder

section
variable {κ : Type} {p i : Ptr} {S : HandlerSession}

theorem releaseItem_spec {l : List Ptr} {s : Forwarder κ}
    (h : Filed s.mapTopicSession s.itemIndex s.items (update s.sessions p (some (S.setList (i :: l)))) s.next) :
    ∃ topics ix, s.releaseItem i = .ok { s with mapTopicSession := topics, itemIndex := ix, items := update s.items i none } ∧
      Filed topics ix (update s.items i none) (update s.sessions p (some (S.setList l))) s.next := by
  obtain ⟨I, T, a, ix, q, hI, hT, hid, hdel, hfiled⟩ := h.release
  refine ⟨_, ix, ?_, hfiled⟩
  unfold releaseItem
  simp only [hI, hT, hdel, Except.ok_bind, hid]

theorem releaseItems_spec : ∀ (l : List Ptr) (s : Forwarder κ),
    Filed s.mapTopicSession s.itemIndex s.items (update s.sessions p (some (S.setList l))) s.next →
    ∃ topics ix items, releaseItems l s = .ok { s with mapTopicSession := topics, itemIndex := ix, items := items } ∧
      (∀ j, items j = if j ∈ l then none else s.items j) ∧
      Filed topics ix items (update s.sessions p (some (S.setList []))) s.next
  | [], s, h => ⟨s.mapTopicSession, s.itemIndex, s.items, rfl, fun j => by rw [if_neg List.not_mem_nil], h⟩
  | i :: l, s, h => by
    obtain ⟨topics, ix, hrel, hfiled⟩ := releaseItem_spec h
    obtain ⟨topics', ix', items', hrels, hitems, hfiled'⟩ := releaseItems_spec l
      { s with mapTopicSession := topics, itemIndex := ix, items := update s.items i none } hfiled
    refine ⟨topics', ix', items', ?_, fun j => ?_, hfiled'⟩
    · unfold releaseItems
      rw [hrel]
      exact hrels
    · rw [hitems j]
      by_cases hj : j = i
      · subst hj
        simp
      · simp [hj]

theorem Core.release {s : Forwarder κ} (h : s.Core) (hp : s.sessions p = some S) :
    ∃ topics ix items, releaseItems S.lstHandlerSessionItem s =
        .ok { s with mapTopicSession := topics, itemIndex := ix, items := items } ∧
      (∀ j, items j = if j ∈ S.lstHandlerSessionItem then none else s.items j) ∧
      Filed topics ix items (update s.sessions p none) s.next := by
  have hsame : update s.sessions p (some (S.setList S.lstHandlerSessionItem)) = s.sessions :=
    Function.update_eq_self_iff.mpr hp.symm
  have hfiled : Filed s.mapTopicSession s.itemIndex s.items
      (update s.sessions p (some (S.setList S.lstHandlerSessionItem))) s.next := by
    rw [hsame]
    exact h
  obtain ⟨topics, ix, items, hrel, hitems, hrest⟩ := releaseItems_spec S.lstHandlerSessionItem s hfiled
  exact ⟨topics, ix, items, hrel, hitems, hrest.remove⟩

/-- The items that a registration adds: new ones, with its topics in their order. -/
structure Added (s s' : Forwarder κ) (p : Ptr) (S : HandlerSession) (l : List UInt32) (L : List Ptr) : Prop where
  core : s'.Core
  sessions : s'.sessions = update s.sessions p (some (S.setList (S.lstHandlerSessionItem ++ L)))
  old : ∀ i, i < s.next → s'.items i = s.items i
  new : ∀ i ∈ L, s.next ≤ i
  topics : L.map (fun i => (s'.items i).map HandlerSessionItem.topicSession) = l.map some
  index : s'.index = s.index
  connections : s'.connections = s.connections
  durindBroadcastMsg : s'.durindBroadcastMsg = s.durindBroadcastMsg
  stackMcpHandler : s'.stackMcpHandler = s.stackMcpHandler
  next_le : s.next ≤ s'.next

theorem Core.addItem {s : Forwarder κ} (h : s.Core) (hp : s.sessions p = some S) (t : UInt32) :
    Added s (s.addItem S.mcpHandler S.clientID p t) p S [t] [s.next] := by
  have hfiled := h.add hp t
  have hsess : (s.addItem S.mcpHandler S.clientID p t).sessions =
      update s.sessions p (some (S.setList (S.lstHandlerSessionItem ++ [s.next]))) := by
    unfold Forwarder.addItem
    simp only [hp, Option.map_some]
    rfl
  refine ⟨?_, hsess, fun i hi => ?_, fun i hi => ?_, ?_, rfl, rfl, rfl, rfl, Nat.le_succ _⟩
  · unfold Core
    rw [hsess]
    exact hfiled
  · exact Function.update_of_ne (Nat.ne_of_lt hi) _ _
  · exact Nat.le_of_eq (List.mem_singleton.mp hi).symm
  · simp [Forwarder.addItem]

theorem Core.addItems : ∀ (l : List UInt32) {s : Forwarder κ} {S : HandlerSession}, s.Core → s.sessions p = some S →
    ∃ L, Added s (s.addItems S.mcpHandler S.clientID p l) p S l L
  | [], s, S, h, hp => by
    have hsame : S.setList (S.lstHandlerSessionItem ++ []) = S := by
      rw [List.append_nil]
      rfl
    refine ⟨[], h, ?_, fun i _ => rfl, fun i hi => absurd hi List.not_mem_nil, rfl, rfl, rfl, rfl, rfl, Nat.le_refl _⟩
    rw [hsame]
    exact (Function.update_eq_self_iff.mpr hp.symm).symm
  | t :: l, s, S, h, hp => by
    have hone := Core.addItem h hp t
    have hp' : (s.addItem S.mcpHandler S.clientID p t).sessions p =
        some (S.setList (S.lstHandlerSessionItem ++ [s.next])) := by
      rw [hone.sessions, Function.update_self]
    obtain ⟨L, hrest⟩ := Core.addItems l hone.core hp'
    have hlt : s.next < (s.addItem S.mcpHandler S.clientID p t).next := Nat.lt_succ_self _
    refine ⟨s.next :: L, hrest.core, ?_, fun i hi => ?_, fun i hi => ?_, ?_, hrest.index.trans hone.index,
      hrest.connections.trans hone.connections, hrest.durindBroadcastMsg.trans hone.durindBroadcastMsg,
      hrest.stackMcpHandler.trans hone.stackMcpHandler, Nat.le_trans hone.next_le hrest.next_le⟩
    · have hlist : S.lstHandlerSessionItem ++ s.next :: L = S.lstHandlerSessionItem ++ [s.next] ++ L := by simp
      rw [hlist]
      have := hrest.sessions
      rw [hone.sessions, Function.update_idem] at this
      exact this
    · exact (hrest.old i (Nat.lt_trans hi hlt)).trans (hone.old i hi)
    · rcases List.mem_cons.mp hi with rfl | hi
      · exact Nat.le_refl _
      · exact Nat.le_trans hone.next_le (hrest.new i hi)
    · rw [List.map_cons, List.map_cons]
      refine congrArg₂ List.cons ?_ hrest.topics
      have htopic := hone.topics
      rw [List.map_singleton, List.map_singleton] at htopic
      have hkept : ((s.addItem S.mcpHandler S.clientID p t).addItems S.mcpHandler S.clientID p l).items s.next =
          (s.addItem S.mcpHandler S.clientID p t).items s.next := hrest.old s.next hlt
      unfold Forwarder.addItems
      rw [hkept]
      exact List.singleton_inj.mp htopic

/-- `s'` is `s` with a new session, its items, and the index `k`. -/
structure Entered (s s' : Forwarder κ) (k : κ) (h c : UInt32) (ts : List UInt32) (L : List Ptr) : Prop where
  core : s'.Core
  sessions : s'.sessions = update s.sessions s.next (some ⟨L, h, c⟩)
  items : ∀ i, i < s.next → s'.items i = s.items i
  topics : L.map (fun i => (s'.items i).map HandlerSessionItem.topicSession) = ts.map some
  index : s'.index = k
  connections : s'.connections = s.connections
  durindBroadcastMsg : s'.durindBroadcastMsg = s.durindBroadcastMsg
  stackMcpHandler : s'.stackMcpHandler = s.stackMcpHandler

theorem Core.enter {s : Forwarder κ} (hs : s.Core) (k : κ) (h c : UInt32) (ts : List UInt32) :
    ∃ L, Entered s (Forwarder.addItems h c s.next ts
      { s with index := k, sessions := update s.sessions s.next (some ⟨[], h, c⟩), next := s.next + 1 }) k h c ts L := by
  let s₁ : Forwarder κ :=
    { s with index := k, sessions := update s.sessions s.next (some ⟨[], h, c⟩), next := s.next + 1 }
  have hcore : s₁.Core := Filed.create hs ⟨[], h, c⟩ rfl
  have hp : s₁.sessions s.next = some ⟨[], h, c⟩ := Function.update_self _ _ _
  obtain ⟨L, hadd⟩ := Core.addItems ts hcore hp
  refine ⟨L, hadd.core, ?_, fun i hi => hadd.old i (Nat.lt_succ_of_lt hi), hadd.topics, hadd.index, hadd.connections,
    hadd.durindBroadcastMsg, hadd.stackMcpHandler⟩
  exact hadd.sessions.trans (Function.update_idem _ _ _)

end

end Forwarder

end VProtocol.Mq
