import VProtocol.Crypt.Query

/-!
# The phases of a request

The address of a request is free, then its session waits to report, then it has reported
and waits for a notice, and in the end there is no session. What a step reports is
counted by address.
-/

namespace VProtocol.Crypt

open Function (update)
open Client (Kind McpHandler Ptr HPtr Links Fault Res getMcpHandler)

def Out.reports (p : Ptr) : Out → Bool
  | .rsp q (.registUserRsp _ _ _ _ _) => q = p
  | .rsp q (.launchTransRsp _ _ _ _) => q = p
  | _ => false

def reports (p : Ptr) (outs : List Out) : Nat := outs.countP (·.reports p)

inductive Phase where
  | free
  | asked
  | told
  | gone
  deriving DecidableEq

def phase (s : State) (p : Ptr) : Phase :=
  if s.core.next ≤ p then .free
  else
    match s.core.heap p with
    | some (.endorse S) => if S.completeRegistRsp then .told else .asked
    | _ => .gone

def Phase.due : Phase → Nat
  | .free => 1
  | .asked => 1
  | .told => 0
  | .gone => 0

/-- What a step does to one address, and how often it reports. -/
inductive Turn : Phase → Nat → Phase → Prop
  | stay (x : Phase) : Turn x 0 x
  | asked : Turn .free 0 .asked
  | refused (n : Nat) : Turn .free n .gone
  | told : Turn .asked 1 .told
  | ended {n : Nat} (h : 1 ≤ n) : Turn .asked n .gone
  | again : Turn .told 1 .told
  | closed (n : Nat) : Turn .told n .gone

def Fresh (s : State) : Prop := ∀ p, s.core.next ≤ p → s.core.heap p = none

structure Turns (s : State) (outs : List Out) (s' : State) : Prop where
  fresh : Fresh s'
  turn : ∀ p, Turn (phase s p) (reports p outs) (phase s' p)

/-- No more is reported than is due. -/
def Fair (s : State) (outs : List Out) : Prop := ∀ p, reports p outs ≤ (phase s p).due

/-- Only the object at `p` is touched, and only its request is reported. -/
structure Frame (p : Ptr) (s : State) (outs : List Out) (s' : State) : Prop where
  next : s'.core.next = s.core.next
  heap : ∀ q, q ≠ p → s'.core.heap q = s.core.heap q
  silent : ∀ q, q ≠ p → reports q outs = 0

/-! ## Counting reports -/

@[simp] theorem reports_nil (p : Ptr) : reports p [] = 0 := rfl

@[simp] theorem reports_append (p : Ptr) (l l' : List Out) : reports p (l ++ l') = reports p l + reports p l' :=
  List.countP_append

@[simp] theorem reports_es (p : Ptr) (h : McpHandler) (m : EsMsg) (l : List Out) :
    reports p (.es h m :: l) = reports p l :=
  List.countP_cons_of_neg (Bool.false_ne_true)

@[simp] theorem reports_onGetRsp (p q : Ptr) (S : QuerySession) (code : Int) (info : Blob) :
    reports q [onGetRsp p S code info] = 0 := by
  unfold onGetRsp reports
  cases S.kind <;> rfl

theorem reports_launchTransRsp (p q : Ptr) (code : Int) (channelID : UInt32) (userKey transKey : Blob) :
    reports q [.rsp p (.launchTransRsp code channelID userKey transKey)] = if q = p then 1 else 0 := by
  unfold reports
  by_cases h : q = p
  · subst h
    simp [Out.reports]
  · simp [Out.reports, h, Ne.symm h]

theorem reports_registUserRsp (p q : Ptr) (code : Int) (channelID : UInt32) (userKey cryptUserKey genUserKey : Blob) :
    reports q [.rsp p (.registUserRsp code channelID userKey cryptUserKey genUserKey)] = if q = p then 1 else 0 := by
  unfold reports
  by_cases h : q = p
  · subst h
    simp [Out.reports]
  · simp [Out.reports, h, Ne.symm h]

theorem reports_onFailed (cfg : Config) (p q : Ptr) (S : EndorseSession) (code : Int) :
    reports q [onFailed cfg p S code] = if q = p then 1 else 0 := by
  unfold onFailed onRegistUserResponse onProposeResponse
  cases S.kind with
  | regist => exact reports_registUserRsp p q _ _ _ _ _
  | propose => exact reports_launchTransRsp p q _ _ _ _

/-! ## Phases -/

section
variable {s s' s₁ : State} {p : Ptr} {outs outs' : List Out} {S : EndorseSession}

theorem phase_next (s : State) : phase s s.core.next = .free := if_pos (le_refl _)

theorem phase_of_lt (h : p < s.core.next) : phase s p =
    match s.core.heap p with
    | some (.endorse S) => if S.completeRegistRsp then .told else .asked
    | _ => .gone :=
  if_neg (Nat.not_le.mpr h)

theorem phase_none (h : p < s.core.next) (hp : s.core.heap p = none) : phase s p = .gone := by
  rw [phase_of_lt h, hp]

theorem phase_query {Q : QuerySession} (h : p < s.core.next) (hp : s.core.heap p = some (.query Q)) :
    phase s p = .gone := by
  rw [phase_of_lt h, hp]

theorem phase_endorse (h : p < s.core.next) (hp : s.core.heap p = some (.endorse S)) :
    phase s p = if S.completeRegistRsp then .told else .asked := by
  rw [phase_of_lt h, hp]

theorem Fresh.lt (hf : Fresh s) {x : Session} (hp : s.core.heap p = some x) : p < s.core.next := by
  by_contra h
  rw [hf p (Nat.not_lt.mp h)] at hp
  cases hp

theorem phase_congr (hn : s'.core.next = s.core.next) (hh : s'.core.heap p = s.core.heap p) :
    phase s' p = phase s p := by
  unfold phase
  rw [hn, hh]

/-! ## Frames -/

theorem Frame.refl (p : Ptr) (s : State) : Frame p s [] s := ⟨rfl, fun _ _ => rfl, fun _ _ => rfl⟩

theorem Frame.trans (h : Frame p s outs s₁) (h' : Frame p s₁ outs' s') : Frame p s (outs ++ outs') s' where
  next := h'.next.trans h.next
  heap q hq := (h'.heap q hq).trans (h.heap q hq)
  silent q hq := by rw [reports_append, h.silent q hq, h'.silent q hq]

theorem turns_quiet (hf : Fresh s) (hn : s'.core.next = s.core.next) (hh : s'.core.heap = s.core.heap)
    (hs : ∀ p, reports p outs = 0) : Turns s outs s' ∧ Fair s outs := by
  refine ⟨⟨fun p hp => ?_, fun p => ?_⟩, fun p => ?_⟩
  · rw [hh]
    exact hf p (hn ▸ hp)
  · rw [hs p, phase_congr hn (congrFun hh p)]
    exact .stay _
  · rw [hs p]
    exact Nat.zero_le _

theorem turns_frame (hf : Fresh s) (hp : p < s.core.next) (h : Frame p s outs s')
    (ht : Turn (phase s p) (reports p outs) (phase s' p)) : Turns s outs s' := by
  refine ⟨fun q hq => ?_, fun q => ?_⟩
  · rw [h.next] at hq
    rw [h.heap q (Nat.ne_of_gt (Nat.lt_of_lt_of_le hp hq))]
    exact hf q hq
  · by_cases hqp : q = p
    · subst hqp
      exact ht
    · rw [h.silent q hqp, phase_congr h.next (h.heap q hqp)]
      exact .stay _

theorem fair_frame (h : Frame p s outs s') : Fair s outs ↔ reports p outs ≤ (phase s p).due := by
  constructor
  · intro hfair
    exact hfair p
  · intro hle q
    by_cases hqp : q = p
    · subst hqp
      exact hle
    · rw [h.silent q hqp]
      exact Nat.zero_le _

def State.reserve (s : State) : State := { s with core := s.core.reserve }

theorem phase_reserve {q : Ptr} (hq : q ≠ s.core.next) : phase s.reserve q = phase s q := by
  unfold phase
  have hiff : s.reserve.core.next ≤ q ↔ s.core.next ≤ q := Nat.succ_le_iff.trans (Nat.lt_iff_le_and_ne.trans
    (and_iff_left hq.symm))
  simp only [hiff]
  rfl

theorem turns_request (hf : Fresh s) (h : Frame s.core.next s.reserve outs s')
    (ht : Turn .free (reports s.core.next outs) (phase s' s.core.next)) :
    Turns s outs s' ∧ (Fair s outs ↔ reports s.core.next outs ≤ 1) := by
  refine ⟨⟨fun q hq => ?_, fun q => ?_⟩, fun hfair => ?_, fun hle q => ?_⟩
  · rw [h.next] at hq
    rw [h.heap q (Nat.ne_of_gt hq)]
    exact hf q (Nat.le_of_succ_le hq)
  · by_cases hq : q = s.core.next
    · rw [hq, phase_next]
      exact ht
    · rw [h.silent q hq, phase_congr h.next (h.heap q hq), phase_reserve hq]
      exact .stay _
  · have hnext := hfair s.core.next
    rw [phase_next] at hnext
    exact hnext
  · by_cases hq : q = s.core.next
    · rw [hq, phase_next]
      exact hle
    · rw [h.silent q hq]
      exact Nat.zero_le _

/-! ## The end of a session -/

theorem endorse_ok (h : s.endorse p = .ok S) : s.core.heap p = some (.endorse S) := by
  unfold State.endorse at h
  split at h
  · rename_i hheap
    rw [Except.ok.inj h] at hheap
    exact hheap
  · cases h

structure Freed (p : Ptr) (s s' : State) : Prop where
  next : s'.core.next = s.core.next
  heap : s'.core.heap = update s.core.heap p none

theorem Freed.frame (h : Freed p s s') (hs : ∀ q, q ≠ p → reports q outs = 0) : Frame p s outs s' where
  next := h.next
  heap q hq := by rw [h.heap, Function.update_of_ne hq]
  silent := hs

theorem Freed.none (h : Freed p s s') : s'.core.heap p = none := by rw [h.heap, Function.update_self]

theorem onRelease_ok (h : onRelease s p = .ok s') : Freed p s s' := by
  unfold onRelease at h
  obtain ⟨S, -, h⟩ := Except.bind_eq_ok.mp h
  obtain ⟨links, -, h⟩ := Except.bind_eq_ok.mp h
  rw [← Except.ok.inj h]
  exact ⟨rfl, rfl⟩

theorem onReleaseQuery_freed {code : Int} {info : Blob} (h : onReleaseQuery s p code info = .ok (s', outs)) :
    Freed p s s' ∧ (∃ Q, s.core.heap p = some (.query Q)) ∧ ∀ q, reports q outs = 0 := by
  obtain ⟨S, hS, houts⟩ := onReleaseQuery_ok h
  unfold onReleaseQuery at h
  obtain ⟨S', -, h⟩ := Except.bind_eq_ok.mp h
  obtain ⟨links, -, h⟩ := Except.bind_eq_ok.mp h
  refine ⟨?_, ⟨S, hS⟩, fun q => ?_⟩
  · rw [← (Prod.mk.inj (Except.ok.inj h)).1]
    exact ⟨rfl, rfl⟩
  · rw [houts, reports_onGetRsp]

theorem turns_query {Q : QuerySession} (hf : Fresh s) (hQ : s.core.heap p = some (.query Q)) (h : Freed p s s')
    (hs : ∀ q, reports q outs = 0) : Turns s outs s' ∧ Fair s outs := by
  have hlt := hf.lt hQ
  have hframe : Frame p s outs s' := h.frame fun q _ => hs q
  refine ⟨turns_frame hf hlt hframe ?_, fun q => ?_⟩
  · rw [hs p, phase_query hlt hQ, phase_none (h.next ▸ hlt) h.none]
    exact .stay _
  · rw [hs q]
    exact Nat.zero_le _

variable {cfg : Config}

theorem onNetErrorEndorse_ok (h : onNetErrorEndorse cfg s p = .ok (s', outs)) :
    ∃ S, s.core.heap p = some (.endorse S) ∧ Freed p s s' ∧
      outs = if S.completeRegistRsp then [] else [onFailed cfg p S networkErrorType] := by
  unfold onNetErrorEndorse at h
  obtain ⟨S, hS, h⟩ := Except.bind_eq_ok.mp h
  obtain ⟨s₁, hrel, h⟩ := Except.bind_eq_ok.mp h
  obtain ⟨rfl, rfl⟩ := Prod.mk.inj (Except.ok.inj h)
  obtain ⟨hn, hh⟩ := onRelease_ok hrel
  exact ⟨S, endorse_ok hS, ⟨hn, hh⟩, rfl⟩

theorem turns_freed (cfg : Config) (code : Int) (hf : Fresh s) (hS : s.core.heap p = some (.endorse S))
    (h : Freed p s s')
    (houts : outs = if S.completeRegistRsp then [] else [onFailed cfg p S code]) : Turns s outs s' ∧ Fair s outs := by
  have hlt := hf.lt hS
  have hgone := phase_none (h.next ▸ hlt) h.none
  cases hc : S.completeRegistRsp with
  | true =>
    rw [hc, if_pos rfl] at houts
    subst houts
    have hframe : Frame p s [] s' := h.frame fun _ _ => rfl
    refine ⟨turns_frame hf hlt hframe ?_, (fair_frame hframe).mpr (Nat.zero_le _)⟩
    rw [phase_endorse hlt hS, hc, hgone]
    exact .closed 0
  | false =>
    rw [hc, if_neg Bool.false_ne_true] at houts
    subst houts
    have hframe : Frame p s [onFailed cfg p S code] s' :=
      h.frame fun q hq => by rw [reports_onFailed, if_neg hq]
    have hphase : phase s p = .asked := by
      rw [phase_endorse hlt hS, hc]
      exact if_neg Bool.false_ne_true
    have hone : reports p [onFailed cfg p S code] = 1 := by rw [reports_onFailed, if_pos rfl]
    refine ⟨turns_frame hf hlt hframe ?_, (fair_frame hframe).mpr ?_⟩
    · rw [hphase, hone, hgone]
      exact .ended (le_refl _)
    · rw [hphase, hone]
      exact le_refl _

end

end VProtocol.Crypt
