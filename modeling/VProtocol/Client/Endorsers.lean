import VProtocol.Client.Stale

/-!
# Endorsers on different peers

Handlers are picked from the peers in turn, whatever the cursors of the table and of its entries
are to begin with: picks in a row are on different peers as long as there are peers, and in the
long run each peer has its share. So the endorsers of one request are on different peers.
-/

namespace VProtocol.Client

/-- The handlers that the request of a session is sent to. -/
def Out.endorser : Out → Option McpHandler
  | .es h _ m => m.request.map fun _ => h
  | .upper _ _ => none

def endorsers (outs : List Out) : List McpHandler := outs.filterMap Out.endorser

/-- Of the picks in `l`, any that are in a row are on different peers, up to the number of peers,
and each peer has its share, rounded up or down. -/
structure Spread (ids l : List Int) : Prop where
  connected : l ⊆ ids
  apart : ∀ a, ((l.drop a).take (min l.length ids.length)).Nodup
  even : ∀ id ∈ ids, l.count id = l.length / ids.length ∨ l.count id = (l.length + ids.length - 1) / ids.length

/-- The endorsers of a request are on different peers, and they are as many as configured if the
request can be sent. -/
structure Endorsed (cfg : Config) (e : Event) (outs : List Out) : Prop where
  apart : ((endorsers outs).map (getPeerID cfg.peers ·.handleID)).Nodup
  all : e.decodes cfg = true → (∀ i < cfg.endorsePeerCount, e.sendErr i = false) →
    (endorsers outs).length = cfg.endorsePeerCount

section
variable {lst : PeerList} {c : PeerConnSummary} {cfg : Config} {s s' : State} {e : Event} {outs : List Out}

theorem Filled.picks (hf : Filled c) (n : Nat) : ∃ hs c', picks n c = some (hs, c') := by
  induction n generalizing c with
  | zero => exact ⟨[], c, rfl⟩
  | succ n ih =>
    obtain ⟨h, c₁, hg, hf₁⟩ := hf.pick
    obtain ⟨hs, c₂, hp⟩ := ih hf₁
    refine ⟨h :: hs, c₂, ?_⟩
    unfold Client.picks
    rw [hg]
    simp only [hp]

theorem Spread.of_reads {ids l : List Int} {i : Nat} (h : Ring.Reads ids i l) (hn : ids.Nodup) : Spread ids l :=
  ⟨fun _ hid => h.mem hid, h.nodup_window hn (Nat.min_le_right _ _), fun _ hid => h.fair hn hid⟩

theorem endorsers_requests {p rand msg} {t : Kind × UInt32} (hm : ∀ b, (msg b).request = some t) :
    ∀ {hs : List McpHandler} {idx}, endorsers (requests p rand msg idx hs) = hs := by
  intro hs
  induction hs with
  | nil =>
    intro idx
    rfl
  | cons h hs ih =>
    intro idx
    have hend : (Out.es h p (msg (rand = idx))).endorser = some h := by
      show (msg (rand = idx)).request.map _ = _
      rw [hm, Option.map_some]
    unfold requests endorsers
    rw [List.filterMap_cons_some hend]
    exact congrArg (h :: ·) ih

theorem endorsers_upper (h : ∀ o ∈ outs, o.isUpper = true) : endorsers outs = [] := by
  unfold endorsers
  rw [List.filterMap_eq_nil_iff]
  intro o ho
  cases o with
  | es => cases h _ ho
  | upper => rfl

theorem picks_apart {n hs conn} (hi : ConnInv lst c) (hp : picks n c = some (hs, conn)) (hn : n ≤ c.peers.length) :
    (hs.map (getPeerID lst ·.handleID)).Nodup := by
  refine (picks_reads hi hp).nodup hi.nodup ?_
  rw [List.length_map, List.length_map, picks_length hp]
  exact hn

theorem Move.endorsed (h : Move cfg s e s' outs) (hi : ConnInv cfg.peers s.conn) {r} (he : e.asks = some r)
    (hn : cfg.endorsePeerCount ≤ s.conn.peers.length) : Endorsed cfg e outs := by
  cases h with
  | @refused r o he' hno ho hr =>
    have hnil : endorsers [o] = [] := endorsers_upper (by simpa using ho)
    refine ⟨?_, fun hd => absurd ⟨hn, hd⟩ hno⟩
    rw [hnil]
    exact List.nodup_nil
  | @aborted r S hs h conn links s' msg rand o he' hk hn' hd hlen hf hm hp hl hend ho hr =>
    have hall : endorsers (requests s.core.next rand msg 0 hs ++ [onResponse S networkErrorType, o]) = hs := by
      have hnil : endorsers [onResponse S networkErrorType, o] = [] := endorsers_upper (by simp [ho])
      unfold endorsers at *
      rw [List.filterMap_append, hnil, List.append_nil]
      exact endorsers_requests hm
    refine ⟨?_, fun _ hsent => ?_⟩
    · rw [hall]
      have hpicks := picks_apart hi hp (by omega)
      rw [List.map_append] at hpicks
      exact hpicks.of_append_left
    · rw [hsent _ hlen] at hf
      cases hf.1
  | @opened r S hs conn links msg rand he' ht hid h0 hc hn' hd hf hm hp hl hrand hsub =>
    refine ⟨?_, fun _ _ => ?_⟩
    · rw [endorsers_requests hm]
      exact picks_apart hi hp hn
    · rw [endorsers_requests hm]
      exact picks_length hp
  | aside he' => cases he'.symm.trans he
  | kept ha => cases (answer_of_asks he).symm.trans ha
  | failed ha => cases (answer_of_asks he).symm.trans ha
  | orphaned he' => cases (asks_of_submitRsp he').symm.trans he
  | submitted he' => cases (asks_of_submitRsp he').symm.trans he
  | timedOut he' =>
    rw [he'] at he
    cases he
  | lost he' =>
    rw [he'] at he
    cases he

/-- Picks in a row are spread over the peers, from any cursors, and the endorsers of a request
that enough peers are connected for are on different ones. -/
theorem endorsers_spread :
    (∀ (lst : PeerList) (c : PeerConnSummary) (n : Nat), ConnInv lst c → Filled c →
      ∃ hs c', picks n c = some (hs, c') ∧ hs.length = n ∧
        Spread (c.peers.map (·.peerID)) (hs.map (getPeerID lst ·.handleID))) ∧
    ∀ (cfg : Config) (s s' : State) (e : Event) (outs : List Out), CoreInv s.core → ConnInv cfg.peers s.conn →
      step cfg s e = .ok (s', outs) → e.asks ≠ none → cfg.endorsePeerCount ≤ s.conn.peers.length →
      Endorsed cfg e outs := by
  refine ⟨fun lst c n hi hf => ?_, fun cfg s s' e outs hcore hconn hst hask hn => ?_⟩
  · obtain ⟨hs, c', hp⟩ := hf.picks n
    exact ⟨hs, c', hp, picks_length hp, .of_reads (picks_reads hi hp) hi.nodup⟩
  · obtain ⟨r, hr⟩ := Option.ne_none_iff_exists'.mp hask
    exact (step_move hcore hst).endorsed hconn hr hn

/-- Two peers, of which one has two connections; the cursors are beyond their ends. -/
def twoEntries : PeerConnSummary where
  peers := [⟨1, [⟨1, 10⟩], 7⟩, ⟨2, [⟨2, 20⟩, ⟨3, 21⟩], 0⟩]
  index := 9

theorem endorsers_spread_two : ∃ hs c', picks 3 twoEntries = some (hs, c') ∧ hs.length = 3 ∧
    Spread [1, 2] (hs.map (getPeerID [(1, [10]), (2, [20, 21])] ·.handleID)) :=
  endorsers_spread.1 [(1, [10]), (2, [20, 21])] twoEntries 3 ⟨by decide, by decide⟩ ⟨by decide, by decide⟩

end

end VProtocol.Client
