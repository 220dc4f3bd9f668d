import VProtocol.Lib.Update
import VProtocol.Mq.Forwarder

/-!
# What the forwarder knows of its clients

Without addresses, items and arrays: each registered client with its connection and its
topics, and for a connection the one client that its loss takes out.
-/

namespace VProtocol.Mq

open Function (update)

structure Registration where
  mcpHandler : UInt32
  topics : List UInt32
  deriving DecidableEq

@[ext] structure Directory where
  registered : UInt32 → Option Registration := fun _ => none
  owner : UInt32 → Option UInt32 := fun _ => none
  connections : List UInt32 := []

namespace Directory

def close (h : UInt32) (d : Directory) : Directory := { d with connections := d.connections.erase h }

def remove (c h : UInt32) (d : Directory) : Directory :=
  { d with registered := update d.registered c none, owner := update d.owner h none }

def lose (h : UInt32) (d : Directory) : Directory :=
  match d.owner h with
  | none => d.close h
  | some c => (d.remove c h).close h

def throwOut (c : UInt32) (d : Directory) : Directory :=
  match d.registered c with
  | none => d
  | some R => (d.remove c R.mcpHandler).close R.mcpHandler

def enter (h c : UInt32) (ts : List UInt32) (d : Directory) : Directory :=
  { d with registered := update d.registered c (some ⟨h, ts⟩), owner := update d.owner h (some c) }

def step (d : Directory) : FwdEvent → Directory
  | .connected h => { d with connections := h :: d.connections }
  | .networkError h => d.lose h
  | .regMqTopicReq h req => (d.throwOut req.clientID).enter h req.clientID req.lstTopicID
  | .pubMqTopicMsg .. | .pubMqAddrMsg .. | .pubMqBroadcastMsg .. => d

/-- What every run keeps: a connection's client is registered over it. -/
structure Owned (d : Directory) : Prop where
  owner : ∀ h c, d.owner h = some c → ∃ R, d.registered c = some R ∧ R.mcpHandler = h
  nodup : d.connections.Nodup

/-- Each client is the one of its connection, which is there. -/
def Settled (d : Directory) : Prop :=
  ∀ c R, d.registered c = some R → R.mcpHandler ∈ d.connections ∧ d.owner R.mcpHandler = some c

section
variable {d : Directory} {c h : UInt32} {R : Registration} {ts : List UInt32}

/-! ## Clients that leave -/

theorem Settled.inj (hs : d.Settled) {c' : UInt32} {R' : Registration} (hR : d.registered c = some R)
    (hR' : d.registered c' = some R') (he : R.mcpHandler = R'.mcpHandler) : c = c' := by
  have hc := (hs c R hR).2
  rw [he, (hs c' R' hR').2] at hc
  exact (Option.some.inj hc).symm

theorem Settled.close_remove (hd : d.Owned) (hs : d.Settled) (hR : d.registered c = some R) :
    ((d.remove c R.mcpHandler).close R.mcpHandler).Settled := by
  intro c' R' hR'
  obtain ⟨hne, hR'⟩ := update_none_eq_some.mp hR'
  obtain ⟨hmem, howner⟩ := hs c' R' hR'
  have hhne : R'.mcpHandler ≠ R.mcpHandler := fun he => hne (hs.inj hR' hR he)
  refine ⟨(hd.nodup.mem_erase_iff).mpr ⟨hhne, hmem⟩, ?_⟩
  exact (Function.update_of_ne hhne _ _).trans howner

theorem Owned.remove (hd : d.Owned) (hR : ∀ R, d.registered c = some R → R.mcpHandler = h) : (d.remove c h).Owned := by
  refine ⟨fun h' c' ho => ?_, hd.nodup⟩
  obtain ⟨hne, ho⟩ := update_none_eq_some.mp ho
  obtain ⟨R', hR', hh⟩ := hd.owner h' c' ho
  have hc : c' ≠ c := by
    rintro rfl
    exact hne (hh ▸ hR R' hR')
  exact ⟨R', (Function.update_of_ne hc _ _).trans hR', hh⟩

theorem Owned.close (hd : d.Owned) (h : UInt32) : (d.close h).Owned := ⟨hd.owner, hd.nodup.erase h⟩

theorem Owned.lose (hd : d.Owned) (h : UInt32) : (d.lose h).Owned := by
  unfold Directory.lose
  cases ho : d.owner h with
  | none => exact hd.close h
  | some c =>
    obtain ⟨R, hR, hh⟩ := hd.owner h c ho
    refine (hd.remove fun R' hR' => ?_).close h
    obtain rfl := Option.some.inj (hR.symm.trans hR')
    exact hh

theorem Settled.lose (hd : d.Owned) (hs : d.Settled) (h : UInt32) : (d.lose h).Settled := by
  unfold Directory.lose
  cases ho : d.owner h with
  | none =>
    intro c R hR
    obtain ⟨hmem, howner⟩ := hs c R hR
    have hne : R.mcpHandler ≠ h := by
      rintro rfl
      rw [ho] at howner
      cases howner
    exact ⟨(hd.nodup.mem_erase_iff).mpr ⟨hne, hmem⟩, howner⟩
  | some c =>
    obtain ⟨R, hR, rfl⟩ := hd.owner h c ho
    exact Settled.close_remove hd hs hR

theorem Owned.throwOut (hd : d.Owned) (c : UInt32) : (d.throwOut c).Owned := by
  unfold Directory.throwOut
  cases hR : d.registered c with
  | none => exact hd
  | some R =>
    refine (hd.remove fun R' hR' => ?_).close _
    obtain rfl := Option.some.inj (hR.symm.trans hR')
    rfl

theorem Settled.throwOut (hd : d.Owned) (hs : d.Settled) (c : UInt32) : (d.throwOut c).Settled := by
  unfold Directory.throwOut
  cases hR : d.registered c with
  | none => exact hs
  | some R => exact Settled.close_remove hd hs hR

theorem throwOut_registered (d : Directory) (c c' : UInt32) :
    (d.throwOut c).registered c' = if c' = c then none else d.registered c' := by
  unfold Directory.throwOut
  cases hR : d.registered c with
  | none =>
    by_cases hc : c' = c
    · rw [if_pos hc, hc, hR]
    · rw [if_neg hc]
  | some R =>
    by_cases hc : c' = c
    · rw [if_pos hc, hc]
      exact Function.update_self _ _ _
    · rw [if_neg hc]
      exact Function.update_of_ne hc _ _

/-! ## Clients that enter -/

theorem Owned.enter (hd : d.Owned) (hc : d.registered c = none) : (d.enter h c ts).Owned := by
  refine ⟨fun h' c' ho => ?_, hd.nodup⟩
  rcases update_eq_some.mp ho with ⟨rfl, rfl⟩ | ⟨-, ho⟩
  · exact ⟨_, Function.update_self _ _ _, rfl⟩
  · obtain ⟨R, hR, hh⟩ := hd.owner h' c' ho
    have hne : c' ≠ c := by
      rintro rfl
      rw [hc] at hR
      cases hR
    exact ⟨R, (Function.update_of_ne hne _ _).trans hR, hh⟩

theorem Settled.enter_iff (hs : d.Settled) (hc : d.registered c = none) :
    (d.enter h c ts).Settled ↔ h ∈ d.connections ∧ ∀ c' R, d.registered c' = some R → R.mcpHandler ≠ h := by
  have hnew : (d.enter h c ts).registered c = some ⟨h, ts⟩ := Function.update_self _ _ _
  have hold : ∀ {c' R}, d.registered c' = some R → c' ≠ c ∧ (d.enter h c ts).registered c' = some R := by
    intro c' R hR
    have hne : c' ≠ c := by
      rintro rfl
      rw [hc] at hR
      cases hR
    exact ⟨hne, (Function.update_of_ne hne _ _).trans hR⟩
  constructor
  · intro hs'
    refine ⟨(hs' c _ hnew).1, fun c' R hR hh => ?_⟩
    obtain ⟨hne, hR'⟩ := hold hR
    exact hne (hs'.inj hR' hnew hh)
  · intro ⟨hmem, hfree⟩ c' R hR
    rcases update_eq_some.mp hR with ⟨rfl, rfl⟩ | ⟨-, hR⟩
    · exact ⟨hmem, Function.update_self _ _ _⟩
    · obtain ⟨hmem', howner⟩ := hs c' R hR
      exact ⟨hmem', (Function.update_of_ne (hfree c' R hR) _ _).trans howner⟩

theorem Settled.register_iff (hd : d.Owned) (hs : d.Settled) (hh : h ∈ d.connections) :
    ((d.throwOut c).enter h c ts).Settled ↔ ∀ c' R, d.registered c' = some R → R.mcpHandler ≠ h := by
  have hnone : (d.throwOut c).registered c = none := by rw [throwOut_registered, if_pos rfl]
  rw [Settled.enter_iff (hs.throwOut hd c) hnone]
  constructor
  · intro ⟨hmem, hfree⟩ c' R hR he
    by_cases hc : c' = c
    · -- the client's own connection has been closed
      subst hc
      unfold Directory.throwOut at hmem
      rw [hR] at hmem
      exact (hd.nodup.mem_erase_iff.mp hmem).1 he.symm
    · refine hfree c' R ?_ he
      rw [throwOut_registered, if_neg hc]
      exact hR
  · intro hfree
    refine ⟨?_, fun c' R hR => ?_⟩
    · unfold Directory.throwOut
      cases hR : d.registered c with
      | none => exact hh
      | some R => exact hd.nodup.mem_erase_iff.mpr ⟨(hfree c R hR).symm, hh⟩
    · rw [throwOut_registered] at hR
      split at hR
      · cases hR
      · exact hfree c' R hR

end

end Directory

end VProtocol.Mq
