import Mathlib.Tactic.Basic
import VProtocol.Mq.Forwarder

/-!
# The cleanup after a broadcast

The loop over the stack of lost handlers ends only by a fault once it has been entered: a
handler is popped after the next one was read, and the last pop is of an empty stack. So a
broadcast that returns has lost no handler and changed nothing.
-/

namespace VProtocol.Mq.Forwarder

section
variable {κ : Type} {ops : IndexOps κ} {h : UInt32} {s s' : Forwarder κ} {r : Forwarder κ × List FwdOut}

theorem releaseItem_frame {p : Ptr} (hr : s.releaseItem p = .ok s') :
    s'.durindBroadcastMsg = s.durindBroadcastMsg ∧ s'.stackMcpHandler = s.stackMcpHandler := by
  unfold releaseItem at hr
  cases hI : s.items p with
  | none =>
    rw [hI] at hr
    cases hr
  | some I =>
    cases hT : s.mapTopicSession I.topicSession with
    | none =>
      simp only [hI, hT] at hr
      cases hr
    | some T =>
      simp only [hI, hT] at hr
      obtain ⟨r, -, hr⟩ := Except.bind_eq_ok.mp hr
      obtain rfl := Except.ok.inj hr
      exact ⟨rfl, rfl⟩

theorem releaseItems_frame : ∀ {l : List Ptr} {s : Forwarder κ}, releaseItems l s = .ok s' →
    s'.durindBroadcastMsg = s.durindBroadcastMsg ∧ s'.stackMcpHandler = s.stackMcpHandler
  | [], s, hr => by
    obtain rfl := Except.ok.inj hr
    exact ⟨rfl, rfl⟩
  | p :: l, s, hr => by
    obtain ⟨s₁, hone, hrest⟩ := Except.bind_eq_ok.mp hr
    obtain ⟨hflag, hstack⟩ := releaseItem_frame hone
    obtain ⟨hflag', hstack'⟩ := releaseItems_frame hrest
    exact ⟨hflag'.trans hflag, hstack'.trans hstack⟩

theorem dropHandler_frame (hr : s.dropHandler ops h = .ok s') :
    s'.durindBroadcastMsg = s.durindBroadcastMsg ∧ s'.stackMcpHandler = s.stackMcpHandler := by
  obtain ⟨found, -, hr⟩ := Except.bind_eq_ok.mp hr
  cases found with
  | none =>
    obtain rfl := Except.ok.inj hr
    exact ⟨rfl, rfl⟩
  | some p =>
    cases hp : s.sessions p with
    | none =>
      simp only [hp] at hr
      cases hr
    | some S =>
      simp only [hp] at hr
      obtain ⟨k, -, hr⟩ := Except.bind_eq_ok.mp hr
      obtain ⟨s₁, hrel, hr⟩ := Except.bind_eq_ok.mp hr
      obtain ⟨k', -, hr⟩ := Except.bind_eq_ok.mp hr
      obtain rfl := Except.ok.inj hr
      have hframe := releaseItems_frame hrel
      exact hframe

theorem onNetworkError_frame (hflag : s.durindBroadcastMsg = false) (hr : s.onNetworkError ops h = .ok r) :
    r.1.durindBroadcastMsg = false ∧ r.1.stackMcpHandler = s.stackMcpHandler := by
  unfold onNetworkError at hr
  rw [hflag] at hr
  obtain ⟨s₁, hdrop, hr⟩ := Except.bind_eq_ok.mp hr
  obtain rfl := Except.ok.inj hr
  obtain ⟨hflag', hstack⟩ := dropHandler_frame hdrop
  exact ⟨hflag'.trans hflag, hstack⟩

/-- The handler that is read next is the one that is popped, so the loop is left only by an
empty stack, and then that is popped. -/
theorem handleLost_ok {nullTop : Bool} :
    ∀ {n : Nat} {p : Option UInt32} {s : Forwarder κ} {r : Forwarder κ × List FwdOut},
    s.durindBroadcastMsg = false → s.handleLost ops nullTop n p = .ok r → p = none ∧ r = (s, [])
  | n, none, s, r, _, hr => by
    unfold handleLost at hr
    exact ⟨rfl, (Except.ok.inj hr).symm⟩
  | 0, some _, s, r, _, hr => by cases hr
  | n + 1, some h, s, r, hflag, hr => by
    obtain ⟨r₁, hone, hr⟩ := Except.bind_eq_ok.mp hr
    obtain ⟨hflag₁, -⟩ := onNetworkError_frame hflag hone
    obtain ⟨p, htop, hr⟩ := Except.bind_eq_ok.mp hr
    cases hstack : r₁.1.stackMcpHandler with
    | nil =>
      simp only [hstack] at hr
      cases hr
    | cons h' l =>
      simp only [hstack] at hr
      obtain ⟨r₂, hrest, -⟩ := Except.bind_eq_ok.mp hr
      have hflag₂ : ({ r₁.1 with stackMcpHandler := l } : Forwarder κ).durindBroadcastMsg = false := hflag₁
      obtain ⟨hnone, -⟩ := handleLost_ok hflag₂ hrest
      unfold top at htop
      rw [hstack] at htop
      obtain rfl := Except.ok.inj htop
      cases hnone

theorem onPubMqBroadcastMsg_ok {msg : PubMqMsg} {env : BroadcastEnv} (hflag : s.durindBroadcastMsg = false)
    (hr : s.onPubMqBroadcastMsg ops msg env = .ok r) : r.1 = s := by
  unfold onPubMqBroadcastMsg at hr
  cases hT : s.mapTopicSession msg.topicID with
  | none =>
    rw [hT] at hr
    obtain rfl := Except.ok.inj hr
    rfl
  | some T =>
    simp only [hT] at hr
    obtain ⟨sent, -, hr⟩ := Except.bind_eq_ok.mp hr
    obtain ⟨p, htop, hr⟩ := Except.bind_eq_ok.mp hr
    obtain ⟨r₁, hlost, hr⟩ := Except.bind_eq_ok.mp hr
    obtain rfl := Except.ok.inj hr
    generalize hstack : sent.1.reverse ++ s.stackMcpHandler = stack at htop hlost
    have hflag' : ({ s with stackMcpHandler := stack } : Forwarder κ).durindBroadcastMsg = false := hflag
    obtain ⟨rfl, rfl⟩ := handleLost_ok hflag' hlost
    -- nothing was on the stack, so the state is the one before
    unfold top at htop
    cases stack with
    | nil =>
      have hempty := (List.append_eq_nil_iff.mp hstack).2
      rw [← hempty]
    | cons h l =>
      cases htop

end

end VProtocol.Mq.Forwarder
