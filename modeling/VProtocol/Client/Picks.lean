import VProtocol.Client.Links
import VProtocol.Lib.Ring

/-!
# Picks go round the peers

The table invariant over connects, disconnects and picks; and as many picks as
there are peers are on different peers, so under different handle ids.
-/

namespace VProtocol.Client

section
variable {lst : PeerList} {c c' : PeerConnSummary}

theorem connInv_init (lst : PeerList) : ConnInv lst {} :=
  ⟨List.nodup_nil, fun _ h => by cases h⟩

theorem wrap_lt {index num : Nat} (h : 0 < num) : wrap index num < num := by
  unfold wrap; split <;> omega

theorem wrap_succ {k num : Nat} (h : k < num) : wrap (k + 1) num = (k + 1) % num := by
  unfold wrap
  split
  · rw [show k + 1 = num by omega, Nat.mod_self]
  · rw [Nat.mod_eq_of_lt (by omega)]

theorem set_ids {i : Nat} {P Q : PeerConn} (hP : c.peers[i]? = some P) (hQ : Q.peerID = P.peerID) :
    (c.peers.set i Q).map (·.peerID) = c.peers.map (·.peerID) := by
  have hlt := (List.getElem?_eq_some_iff.mp hP).1
  apply List.ext_getElem?
  intro j
  rw [List.getElem?_map, List.getElem?_map, List.getElem?_set]
  split
  · rename_i hij
    subst hij
    simp [hP, hQ]
  · rfl

theorem ConnInv.turn (hi : ConnInv lst c) {i : Nat} {P : PeerConn} (hP : c.peers[i]? = some P) (k index : Nat) :
    ConnInv lst { peers := c.peers.set i { P with index := k }, index } := by
  refine ⟨?_, fun Q hQ => ?_⟩
  · rw [set_ids (Q := { P with index := k }) hP rfl]; exact hi.nodup
  · rcases List.mem_or_eq_of_mem_set hQ with hQ | rfl
    · exact hi.peer Q hQ
    · exact hi.peer P (List.mem_of_getElem? hP)

theorem getMcpHandler_spec (hi : ConnInv lst c) {h} (hg : getMcpHandler c = (some h, c')) :
    ConnInv lst c' ∧ c'.peers.map (·.peerID) = c.peers.map (·.peerID) ∧
      c'.index = wrap c.index c.peers.length + 1 ∧ 0 < c.peers.length ∧
      (c.peers.map (·.peerID))[wrap c.index c.peers.length]? = some (getPeerID lst h.handleID) := by
  unfold getMcpHandler at hg
  split at hg
  · cases hg
  rename_i P hP
  obtain ⟨hh, rfl⟩ := Prod.mk.inj hg
  have hlt := (List.getElem?_eq_some_iff.mp hP).1
  refine ⟨hi.turn hP _ _, set_ids hP rfl, rfl, Nat.lt_of_le_of_lt (Nat.zero_le _) hlt, ?_⟩
  rw [List.getElem?_map, hP, Option.map_some, hi.peer P (List.mem_of_getElem? hP) h (List.mem_of_getElem? hh)]

theorem picks_spec : ∀ {n : Nat} {c c' : PeerConnSummary} {hs}, ConnInv lst c → picks n c = some (hs, c') →
    ConnInv lst c' ∧ hs.length = n ∧ ∀ j h, hs[j]? = some h →
      (c.peers.map (·.peerID))[(wrap c.index c.peers.length + j) % c.peers.length]? =
        some (getPeerID lst h.handleID) := by
  intro n
  induction n with
  | zero =>
    intro c c' hs hi h
    obtain ⟨rfl, rfl⟩ := Prod.mk.inj (Option.some.inj h)
    exact ⟨hi, rfl, fun j h hj => by cases hj⟩
  | succ n ih =>
    intro c c' hs hi h
    unfold picks at h
    split at h
    · cases h
    rename_i h₀ c₁ hg
    split at h
    · cases h
    rename_i hs₁ c₂ hp
    obtain ⟨rfl, rfl⟩ := Prod.mk.inj (Option.some.inj h)
    obtain ⟨hi₁, hids, hidx, hpos, hslot⟩ := getMcpHandler_spec hi hg
    obtain ⟨hi₂, hlen, hrest⟩ := ih hi₁ hp
    have hlt : wrap c.index c.peers.length < c.peers.length := wrap_lt hpos
    have hlen₁ : c₁.peers.length = c.peers.length := by
      simpa using congrArg List.length hids
    refine ⟨hi₂, by rw [List.length_cons, hlen], fun j h hj => ?_⟩
    cases j with
    | zero =>
      obtain rfl := Option.some.inj hj
      rw [Nat.add_zero, Nat.mod_eq_of_lt hlt]
      exact hslot
    | succ j =>
      have := hrest j h hj
      rw [hids, hlen₁, hidx, wrap_succ hlt, Nat.mod_add_mod] at this
      rw [show wrap c.index c.peers.length + (j + 1) = wrap c.index c.peers.length + 1 + j by omega]
      exact this

theorem picks_reads {n hs} (hi : ConnInv lst c) (h : picks n c = some (hs, c')) :
    Ring.Reads (c.peers.map (·.peerID)) (wrap c.index c.peers.length) (hs.map (getPeerID lst ·.handleID)) := by
  obtain ⟨-, -, hslot⟩ := picks_spec hi h
  intro j id hj
  rw [List.getElem?_map] at hj
  obtain ⟨h, hh, rfl⟩ := Option.map_eq_some_iff.mp hj
  rw [List.length_map]
  exact hslot j h hh

theorem picks_nodup {n hs} (hi : ConnInv lst c) (h : picks n c = some (hs, c')) (hn : n ≤ c.peers.length) :
    (hs.map (·.handleID)).Nodup := by
  obtain ⟨-, hlen, -⟩ := picks_spec hi h
  have hpeers : (hs.map (getPeerID lst ·.handleID)).Nodup := by
    refine (picks_reads hi h).nodup hi.nodup ?_
    rw [List.length_map, List.length_map, hlen]
    exact hn
  refine List.Nodup.of_map (getPeerID lst) ?_
  rwa [List.map_map]

/-! ## Connects and disconnects -/

theorem ConnInv.connect (hi : ConnInv lst c) (h : McpHandler) (peerRand handleRand rawIndex : Nat) :
    ConnInv lst (connect c (getPeerID lst h.handleID) h peerRand handleRand rawIndex) := by
  unfold Client.connect
  split
  · rename_i i hf
    obtain ⟨hlt, hp, -⟩ := List.findIdx?_eq_some_iff_getElem.mp hf
    have hids : (c.peers.modify i fun P => { P with mcpHandlers := P.mcpHandlers ++ [h]
                                                    index := handleRand % (P.mcpHandlers.length + 1) }).map (·.peerID) =
        c.peers.map (·.peerID) := by
      apply List.ext_getElem?
      intro j
      rw [List.getElem?_map, List.getElem?_map, List.getElem?_modify]
      cases c.peers[j]? with
      | none => rfl
      | some P => by_cases hij : i = j <;> simp [hij]
    have hmem : ∀ {Q}, Q ∈ (c.peers.modify i fun P => { P with mcpHandlers := P.mcpHandlers ++ [h]
                                                               index := handleRand % (P.mcpHandlers.length + 1) }) →
        Q ∈ c.peers ∨ ∃ P ∈ c.peers, P.peerID = getPeerID lst h.handleID ∧ Q.peerID = P.peerID ∧
          Q.mcpHandlers = P.mcpHandlers ++ [h] := by
      intro Q hQ
      obtain ⟨j, hj⟩ := List.getElem?_of_mem hQ
      rw [List.getElem?_modify] at hj
      obtain ⟨P, hP, rfl⟩ := Option.map_eq_some_iff.mp hj
      by_cases hij : i = j
      · subst hij
        obtain ⟨_, hPe⟩ := List.getElem?_eq_some_iff.mp hP
        exact .inr ⟨P, List.mem_of_getElem? hP, by rw [← hPe]; simpa using hp, by simp, by simp⟩
      · exact .inl (by simpa [hij] using List.mem_of_getElem? hP)
    refine ⟨by rw [hids]; exact hi.nodup, fun Q hQ h' hh' => ?_⟩
    rcases hmem hQ with hQ | ⟨P, hP, hPid, hid, hm⟩
    · exact hi.peer Q hQ h' hh'
    · rw [hm] at hh'
      rcases List.mem_append.mp hh' with hh' | hh'
      · rw [hid]; exact hi.peer P hP h' hh'
      · rw [List.mem_singleton.mp hh', hid, hPid]
  · rename_i hf
    rw [List.findIdx?_eq_none_iff] at hf
    refine ⟨?_, fun Q hQ h' hh' => ?_⟩
    · rw [List.map_append, List.nodup_append]
      refine ⟨hi.nodup, List.nodup_singleton _, fun x hx y hy hxy => ?_⟩
      obtain ⟨P, hP, rfl⟩ := List.mem_map.mp hx
      obtain rfl := List.mem_singleton.mp hy
      simpa [hxy] using hf P hP
    · rcases List.mem_append.mp hQ with hQ | hQ
      · exact hi.peer Q hQ h' hh'
      · rw [List.mem_singleton.mp hQ] at hh' ⊢
        rw [List.mem_singleton.mp hh']

theorem ConnInv.disconnect (hi : ConnInv lst c) (peerID : Int) (h : McpHandler) :
    ConnInv lst (disconnect c peerID h) := by
  unfold Client.disconnect
  split
  · exact hi
  rename_i i hf
  split
  · exact hi
  rename_i P hP
  have hPm : P ∈ c.peers := List.mem_of_getElem? hP
  split
  · split
    · refine ⟨?_, fun Q hQ h' hh' => ?_⟩
      · refine (congrArg List.Nodup (set_ids hP ?_)).mpr hi.nodup
        rfl
      · rcases List.mem_or_eq_of_mem_set hQ with hQ | rfl
        · exact hi.peer Q hQ h' hh'
        · exact hi.peer P hPm h' (List.mem_of_mem_filter hh')
    · exact ⟨hi.nodup.sublist (List.filter_sublist.map _), fun Q hQ => hi.peer Q (List.mem_of_mem_filter hQ)⟩
  · exact hi

theorem ConnInv.pick (hi : ConnInv lst c) {o} (hg : getMcpHandler c = (o, c')) : ConnInv lst c' := by
  unfold getMcpHandler at hg
  split at hg
  · obtain ⟨-, rfl⟩ := Prod.mk.inj hg
    exact hi
  · rename_i P hP
    obtain ⟨-, rfl⟩ := Prod.mk.inj hg
    exact hi.turn hP _ _

/-! ## A run -/

theorem Losses.conn {s s' : State} {outs} (h : Losses s outs s') : s'.conn = s.conn := by
  induction h with
  | nil => rfl
  | endorse hend _ ih => obtain ⟨-, -⟩ := hend; exact ih
  | single hend _ ih => obtain ⟨-, -⟩ := hend; exact ih

theorem Move.connInv {cfg : Config} {s s' : State} {e : Event} {outs} (h : Move cfg s e s' outs)
    (hi : ConnInv cfg.peers s.conn) : ConnInv cfg.peers s'.conn := by
  have htable : ∀ {conn}, Table cfg s e conn → ConnInv cfg.peers conn := by
    intro conn ht
    cases ht with
    | same => exact hi
    | picked hg => exact hi.pick hg
    | connected => exact hi.connect _ _ _ _
    | disconnected => exact hi.disconnect _ _
  cases h with
  | aside _ _ _ h =>
    cases h with
    | quiet ht => exact htable ht
    | refused ht => exact htable ht
    | queried _ hg => exact hi.pick hg
    | fired => exact hi
    | ended hend => obtain ⟨-, -⟩ := hend; exact hi
  | refused => exact hi
  | aborted _ _ _ _ _ _ _ hp _ hend => obtain ⟨-, -⟩ := hend; exact (picks_spec hi hp).1
  | opened _ _ _ _ _ _ _ _ _ hp => exact (picks_spec hi hp).1
  | kept => exact hi
  | failed _ _ _ _ _ hend => obtain ⟨-, -⟩ := hend; exact hi
  | orphaned => exact hi
  | submitted _ _ _ hw hend =>
    obtain ⟨-, -⟩ := hend
    cases hw with
    | none => exact hi
    | some => exact hi
  | timedOut _ _ hend => obtain ⟨-, -⟩ := hend; exact hi
  | lost _ _ _ hl =>
    rw [show _ = _ from hl.conn]
    exact hi.disconnect _ _

theorem run_connInv {cfg : Config} {C : History → State → Event → Prop} {tr s} (h : Run (step cfg) {} C tr s) :
    ConnInv cfg.peers s.conn :=
  h.invariant (fun _ s => ConnInv cfg.peers s.conn) (connInv_init _) fun _ _ _ _ _ hr hi _ hst =>
    (run_move hr hst).connInv hi

end

end VProtocol.Client
