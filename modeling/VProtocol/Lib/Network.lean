import Mathlib.Data.List.Perm.Subperm
import VProtocol.Lib.Run

/-!
# Parties that send each other messages

A party has a step for what happens to it and one for a message that arrives. What it sends
is put at the end of a channel, one for each pair of parties; a channel gives its first
message to the receiver, and it may lose any of them. What a party has taken from another is
then a part of what that one sent to it, in the order in which it was sent, and all of it
when nothing was lost and nothing is on its way.
-/

namespace VProtocol

open Function (update)

/-- What each party does: `act i` is for what happens to party `i`, `take j i` for a message of `i` that
arrives at `j`, and `sends i` tells which outputs of `i` are messages, and to whom. -/
structure Party (ι σ ε μ ω φ : Type) where
  act : ι → σ → ε → Except φ (σ × List ω)
  take : ι → ι → σ → μ → Except φ (σ × List ω)
  sends : ι → ω → Option (ι × μ)

structure Network (ι σ μ : Type) where
  party : ι → σ
  channel : ι → ι → List μ := fun _ _ => []

/-- A channel may lose any message that is in it. -/
inductive NetworkEvent (ι ε : Type) where
  | act (i : ι) (e : ε)
  | deliver (i j : ι)
  | lose (i j : ι) (k : Nat)
  deriving DecidableEq

section
variable {ι σ ε μ ω φ : Type} [DecidableEq ι]

/-- What is for `j`. -/
def sentTo (j : ι) (x : ι × μ) : Option μ := if x.1 = j then some x.2 else none

variable (p : Party ι σ ε μ ω φ)

namespace Network

def setChannel (s : Network ι σ μ) (i j : ι) (l : List μ) : Network ι σ μ :=
  { s with channel := update s.channel i (update (s.channel i) j l) }

/-- Party `i` is `x` from now on and has sent what is in `outs`. -/
def after (s : Network ι σ μ) (i : ι) (x : σ) (outs : List ω) : Network ι σ μ where
  party := update s.party i x
  channel := update s.channel i fun j => s.channel i j ++ (outs.filterMap (p.sends i)).filterMap (sentTo j)

def step (s : Network ι σ μ) : NetworkEvent ι ε → Except φ (Network ι σ μ × List ω)
  | .act i e => do
    let r ← p.act i (s.party i) e
    .ok (s.after p i r.1 r.2, r.2)
  | .deliver i j =>
    match s.channel i j with
    | [] => .ok (s, [])
    | m :: rest => do
      let r ← p.take j i (s.party j) m
      .ok ((s.setChannel i j rest).after p j r.1 r.2, r.2)
  | .lose i j k => .ok (s.setChannel i j ((s.channel i j).eraseIdx k), [])

/-- What a step can do. -/
inductive Move (s : Network ι σ μ) : NetworkEvent ι ε → List ω → Network ι σ μ → Prop
  | act {i e x outs} : p.act i (s.party i) e = .ok (x, outs) → Move s (.act i e) outs (s.after p i x outs)
  | idle {i j} : s.channel i j = [] → Move s (.deliver i j) [] s
  | take {i j m rest x outs} : s.channel i j = m :: rest → p.take j i (s.party j) m = .ok (x, outs) →
      Move s (.deliver i j) outs ((s.setChannel i j rest).after p j x outs)
  | lose {i j k} : Move s (.lose i j k) [] (s.setChannel i j ((s.channel i j).eraseIdx k))

variable {p}

theorem step_move {s s' : Network ι σ μ} {e : NetworkEvent ι ε} {outs : List ω} (h : s.step p e = .ok (s', outs)) :
    Move p s e outs s' := by
  cases e with
  | act i e =>
    obtain ⟨⟨x, outs'⟩, hact, heq⟩ := Except.bind_eq_ok.mp h
    obtain ⟨rfl, rfl⟩ := Prod.mk.inj (Except.ok.inj heq)
    exact .act hact
  | deliver i j =>
    unfold step at h
    cases hch : s.channel i j with
    | nil =>
      simp only [hch] at h
      obtain ⟨rfl, rfl⟩ := Prod.mk.inj (Except.ok.inj h)
      exact .idle hch
    | cons m rest =>
      simp only [hch] at h
      obtain ⟨⟨x, outs'⟩, htake, heq⟩ := Except.bind_eq_ok.mp h
      obtain ⟨rfl, rfl⟩ := Prod.mk.inj (Except.ok.inj heq)
      exact .take hch htake
  | lose i j k =>
    obtain ⟨rfl, rfl⟩ := Prod.mk.inj (Except.ok.inj h)
    exact .lose

end Network

/-! ## What was sent and what was taken -/

/-- Whose outputs the outputs of a step are. -/
def NetworkEvent.actor : NetworkEvent ι ε → Option ι
  | .act i _ => some i
  | .deliver _ j => some j
  | .lose _ _ _ => none

abbrev NetworkEntry (ι σ ε μ ω : Type) := Entry (Network ι σ μ) (NetworkEvent ι ε) ω

abbrev NetworkHistory (ι σ ε μ ω : Type) := List (NetworkEntry ι σ ε μ ω)

/-- What a step of party `i` sends, with the receivers. -/
def Entry.dispatches (i : ι) (en : NetworkEntry ι σ ε μ ω) : List (ι × μ) :=
  if en.ev.actor = some i then en.outs.filterMap (p.sends i) else []

/-- What a step gives of the messages of party `i`, with the receiver. -/
def Entry.receipts (i : ι) (en : NetworkEntry ι σ ε μ ω) : List (ι × μ) :=
  match en.ev with
  | .deliver i' j => if i' = i then ((en.pre.channel i j).take 1).map fun m => (j, m) else []
  | _ => []

/-- The messages that party `i` has sent to `j`. -/
def sent (i j : ι) (tr : NetworkHistory ι σ ε μ ω) : List μ :=
  (tr.flatMap (Entry.dispatches p i)).filterMap (sentTo j)

/-- The messages of party `i` that `j` has taken. -/
def taken (i j : ι) (tr : NetworkHistory ι σ ε μ ω) : List μ :=
  (tr.flatMap (Entry.receipts i)).filterMap (sentTo j)

/-- The channel from `i` to `j` has not lost a message. -/
def Lossless (i j : ι) (tr : NetworkHistory ι σ ε μ ω) : Prop := ∀ en ∈ tr, ∀ k, en.ev ≠ .lose i j k

variable {p} {i j : ι} {s s' init : Network ι σ μ} {tr : NetworkHistory ι σ ε μ ω} {en : NetworkEntry ι σ ε μ ω}
variable {e : NetworkEvent ι ε} {outs : List ω} {m : μ}
variable {C : NetworkHistory ι σ ε μ ω → Network ι σ μ → NetworkEvent ι ε → Prop}

theorem sent_snoc : sent p i j (tr ++ [en]) = sent p i j tr ++ (en.dispatches p i).filterMap (sentTo j) := by
  unfold sent
  rw [List.flatMap_append, List.flatMap_singleton, List.filterMap_append]

theorem taken_snoc : taken i j (tr ++ [en]) = taken i j tr ++ (en.receipts i).filterMap (sentTo j) := by
  unfold taken
  rw [List.flatMap_append, List.flatMap_singleton, List.filterMap_append]

omit [DecidableEq ι] in
theorem lossless_snoc : Lossless i j (tr ++ [en]) ↔ Lossless i j tr ∧ ∀ k, en.ev ≠ .lose i j k := by
  unfold Lossless
  simp only [List.mem_append, List.mem_singleton, or_imp, forall_and, forall_eq]

/-! ## Channels -/

namespace Network

theorem channel_setChannel (s : Network ι σ μ) (i j i' j' : ι) (l : List μ) :
    (s.setChannel i j l).channel i' j' = if i' = i ∧ j' = j then l else s.channel i' j' := by
  unfold setChannel
  by_cases hi : i' = i
  · subst hi
    by_cases hj : j' = j
    · simp [hj]
    · simp [hj]
  · simp [hi]

theorem channel_after (s : Network ι σ μ) (k i j : ι) (x : σ) (outs : List ω) :
    (s.after p k x outs).channel i j =
      s.channel i j ++ if k = i then (outs.filterMap (p.sends i)).filterMap (sentTo j) else [] := by
  unfold after
  by_cases hi : k = i
  · subst hi
    simp
  · simp [hi, Ne.symm hi]

@[simp] theorem party_setChannel (s : Network ι σ μ) (i j : ι) (l : List μ) : (s.setChannel i j l).party = s.party := rfl

end Network

theorem filterMap_sentTo_pair (j j' : ι) (l : List μ) :
    (l.map fun m => (j', m)).filterMap (sentTo j) = if j' = j then l else [] := by
  rw [List.filterMap_map]
  by_cases hj : j' = j
  · simp [sentTo, hj]
  · simp [sentTo, hj]

/-- A step takes from the front of a channel and adds at its end, unless it loses a message of it. -/
theorem Network.step_channel (hst : Network.step p s e = .ok (s', outs)) (hlose : ∀ k, e ≠ .lose i j k) :
    (Entry.receipts i ⟨s, e, outs⟩).filterMap (sentTo j) ++ s'.channel i j =
      s.channel i j ++ (Entry.dispatches p i ⟨s, e, outs⟩).filterMap (sentTo j) := by
  cases Network.step_move hst with
  | @act k e x _ _ =>
    rw [Network.channel_after]
    by_cases hk : k = i
    · simp [Entry.receipts, Entry.dispatches, NetworkEvent.actor, hk]
    · simp [Entry.receipts, Entry.dispatches, NetworkEvent.actor, hk]
  | @idle i' j' hch =>
    by_cases hi : i' = i
    · subst hi
      simp [Entry.receipts, Entry.dispatches, hch]
    · simp [Entry.receipts, Entry.dispatches, hi]
  | @take i' j' m rest x _ hch _ =>
    rw [Network.channel_after, Network.channel_setChannel, ← List.append_assoc]
    congr 1
    · unfold Entry.receipts
      by_cases hi : i' = i
      · subst hi
        simp only [if_pos, filterMap_sentTo_pair]
        by_cases hj : j' = j
        · subst hj
          simp [hch]
        · simp [hj, Ne.symm hj]
      · simp [hi, Ne.symm hi]
    · unfold Entry.dispatches NetworkEvent.actor
      by_cases hj : j' = i
      · simp [hj]
      · simp [hj]
  | @lose i' j' k =>
    rw [Network.channel_setChannel, if_neg]
    · simp [Entry.receipts, Entry.dispatches, NetworkEvent.actor]
    · rintro ⟨rfl, rfl⟩
      exact hlose k rfl

theorem Network.step_channel_sublist (i j : ι) (hst : Network.step p s e = .ok (s', outs)) :
    ((Entry.receipts i ⟨s, e, outs⟩).filterMap (sentTo j) ++ s'.channel i j).Sublist
      (s.channel i j ++ (Entry.dispatches p i ⟨s, e, outs⟩).filterMap (sentTo j)) := by
  by_cases hlose : ∃ k, e = .lose i j k
  · obtain ⟨k, rfl⟩ := hlose
    obtain ⟨rfl, rfl⟩ := Prod.mk.inj (Except.ok.inj hst)
    rw [Network.channel_setChannel, if_pos ⟨rfl, rfl⟩]
    simpa [Entry.receipts, Entry.dispatches, NetworkEvent.actor] using List.eraseIdx_sublist (s.channel i j) k
  · rw [Network.step_channel hst fun k hk => hlose ⟨k, hk⟩]

/-- What every step of a party keeps holds of all of them in every run. -/
theorem Network.run_party (I : ι → σ → Prop) (hact : ∀ i x e x' outs, I i x → p.act i x e = .ok (x', outs) → I i x')
    (htake : ∀ j i x m x' outs, I j x → p.take j i x m = .ok (x', outs) → I j x')
    (h : Run (Network.step p) init C tr s) (hinit : ∀ i, I i (init.party i)) : ∀ i, I i (s.party i) := by
  induction h with
  | nil => exact hinit
  | @snoc tr s e s' outs hr _ hst ih =>
    intro i
    cases Network.step_move hst with
    | @act k e x _ hx =>
      by_cases hk : i = k
      · subst hk
        simpa [Network.after] using hact _ _ _ _ _ (ih i) hx
      · simpa [Network.after, hk] using ih i
    | idle => exact ih i
    | @take k j m rest x _ _ hx =>
      by_cases hj : i = j
      · subst hj
        simpa [Network.after] using htake _ _ _ _ _ _ (ih i) hx
      · simpa [Network.after, hj] using ih i
    | lose => exact ih i

/-- What was taken and what is on its way is a part of what was sent, in its order. -/
theorem Network.run_fifo (h : Run (Network.step p) init C tr s) (hinit : ∀ i j, init.channel i j = []) (i j : ι) :
    (taken i j tr ++ s.channel i j).Sublist (sent p i j tr) := by
  induction h with
  | nil => simp [taken, sent, hinit]
  | @snoc tr s e s' outs hr _ hst ih =>
    rw [taken_snoc, sent_snoc, List.append_assoc]
    have hstep := (Network.step_channel_sublist i j hst).append_left (taken i j tr)
    rw [← List.append_assoc (taken i j tr) (s.channel i j)] at hstep
    exact hstep.trans (ih.append_right _)

/-- Nothing that was sent is missing where the channel has lost nothing. -/
theorem Network.run_lossless (h : Run (Network.step p) init C tr s) (hinit : ∀ i j, init.channel i j = [])
    (hloss : Lossless i j tr) : taken i j tr ++ s.channel i j = sent p i j tr := by
  induction h with
  | nil => simp [taken, sent, hinit]
  | @snoc tr s e s' outs hr _ hst ih =>
    obtain ⟨hloss, hlose⟩ := lossless_snoc.mp hloss
    rw [taken_snoc, sent_snoc, List.append_assoc, Network.step_channel hst hlose, ← List.append_assoc, ih hloss]

theorem Network.mem_sent (h : Run (Network.step p) init C tr s) (hinit : ∀ i j, init.channel i j = [])
    (hm : m ∈ s.channel i j) : m ∈ sent p i j tr :=
  (Network.run_fifo h hinit i j).subset (List.mem_append_right _ hm)

theorem count_filterMap_sentTo [DecidableEq μ] (j : ι) (m : μ) (l : List (ι × μ)) :
    (l.filterMap (sentTo j)).count m = l.count (j, m) := by
  induction l with
  | nil => rfl
  | cons x l ih =>
    obtain ⟨j', m'⟩ := x
    by_cases hj : j' = j
    · subst hj
      rw [List.filterMap_cons_some (b := m') (by simp [sentTo]), List.count_cons, List.count_cons, ih]
      simp
    · rw [List.filterMap_cons_none (by simp [sentTo, hj]), ih, List.count_cons_of_ne]
      rintro heq
      exact hj (Prod.mk.inj heq).1

/-- Over all receivers together, nothing is taken that was not sent, and nothing twice. -/
theorem Network.run_subperm (h : Run (Network.step p) init C tr s) (hinit : ∀ i j, init.channel i j = []) (i : ι) :
    (tr.flatMap (Entry.receipts i)).Subperm (tr.flatMap (Entry.dispatches p i)) := by
  classical
  rw [List.subperm_ext_iff]
  rintro ⟨j, m⟩ -
  rw [← count_filterMap_sentTo, ← count_filterMap_sentTo]
  exact ((List.sublist_append_left _ _).trans (Network.run_fifo h hinit i j)).count_le m

end

end VProtocol
