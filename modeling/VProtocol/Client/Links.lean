import VProtocol.Client.Inv

/-!
# Handle sessions

The handler of a handle session never changes while it lives, and its address is
not used again, so the selected endorser of a session stays the same handler.
-/

namespace VProtocol.Client

open Function (update)

/-- Handle sessions are at used addresses, and the map holds them under their handle id. -/
structure LinksInv (l : Links) : Prop where
  fresh : ∀ hp H, l.handles hp = some H → hp < l.next
  map : ∀ id hp, l.mapHandle id = some hp → ∃ H, l.handles hp = some H ∧ H.mcpHandler.handleID = id

structure Links.Same (l l' : Links) : Prop where
  next : l'.next = l.next
  map : l'.mapHandle = l.mapHandle
  handler : ∀ hp, (l'.handles hp).map (·.mcpHandler) = (l.handles hp).map (·.mcpHandler)

/-- Handle sessions may come and go, but none at an old address is a new one. -/
structure Links.Keeps (l l' : Links) : Prop where
  next : l.next ≤ l'.next
  handler : ∀ hp H', hp < l.next → l'.handles hp = some H' → ∃ H, l.handles hp = some H ∧ H.mcpHandler = H'.mcpHandler

namespace Links
variable {l l' l'' : Links}

theorem Same.refl : Same l l := ⟨rfl, rfl, fun _ => rfl⟩

theorem Same.trans (h : Same l l') (h' : Same l' l'') : Same l l'' :=
  ⟨h'.next.trans h.next, h'.map.trans h.map, fun hp => (h'.handler hp).trans (h.handler hp)⟩

theorem Same.symm_some (h : Same l l') {hp H'} (hH : l'.handles hp = some H') :
    ∃ H, l.handles hp = some H ∧ H.mcpHandler = H'.mcpHandler := by
  have := h.handler hp
  rw [hH, Option.map_some] at this
  obtain ⟨H, h1, h2⟩ := Option.map_eq_some_iff.mp this.symm
  exact ⟨H, h1, h2⟩

theorem Same.some (h : Same l l') {hp H} (hH : l.handles hp = some H) :
    ∃ H', l'.handles hp = some H' ∧ H'.mcpHandler = H.mcpHandler := by
  have := h.handler hp
  rw [hH, Option.map_some] at this
  obtain ⟨H', h1, h2⟩ := Option.map_eq_some_iff.mp this
  exact ⟨H', h1, h2⟩

theorem Same.inv (h : Same l l') (hi : LinksInv l) : LinksInv l' where
  fresh hp H' hH := by
    obtain ⟨H, hH, -⟩ := h.symm_some hH
    rw [h.next]; exact hi.fresh _ _ hH
  map id hp hm := by
    rw [h.map] at hm
    obtain ⟨H, hH, hid⟩ := hi.map _ _ hm
    obtain ⟨H', hH', heq⟩ := h.some hH
    exact ⟨H', hH', by rw [heq, hid]⟩

theorem Same.keeps (h : Same l l') : Keeps l l' :=
  ⟨Nat.le_of_eq h.next.symm, fun _ _ _ hH => h.symm_some hH⟩

theorem Keeps.refl : Keeps l l := Same.refl.keeps

theorem Keeps.trans (h : Keeps l l') (h' : Keeps l' l'') : Keeps l l'' := by
  refine ⟨Nat.le_trans h.next h'.next, fun hp H'' hlt hH => ?_⟩
  obtain ⟨H', hH', heq'⟩ := h'.handler hp H'' (Nat.lt_of_lt_of_le hlt h.next) hH
  obtain ⟨H, hH, heq⟩ := h.handler hp H' hlt hH'
  exact ⟨H, hH, heq.trans heq'⟩

/-! ## The operations -/

theorem same_update {hp : HPtr} {H : HandleSession} (hH : l.handles hp = .some H) (arr : List Ptr) (index : Ptr → Nat) :
    Same l { l with handles := update l.handles hp (.some { H with arrSession := arr }), index } := by
  refine ⟨rfl, rfl, fun hq => ?_⟩
  by_cases h : hq = hp
  · subst h; simp [hH]
  · simp [h]

theorem insert_same {hp p} (h : l.insert hp p = .ok l') : Same l l' := by
  unfold Links.insert at h
  split at h
  · cases h
  · rename_i H hH
    obtain rfl := Except.ok.inj h
    exact same_update hH _ _

theorem erase_same {live hp p} (h : l.erase live hp p = .ok l') : Same l l' := by
  unfold Links.erase at h
  split at h
  · cases h
  rename_i H hH
  split at h
  · cases h
  simp only at h
  split at h
  · obtain rfl := Except.ok.inj h
    exact same_update hH _ _
  · split at h
    · obtain rfl := Except.ok.inj h
      exact same_update hH _ _
    · cases h

theorem unlink_same {live p} : ∀ {hps l l'}, Links.unlink live p hps l = .ok l' → Same l l' := by
  intro hps
  induction hps with
  | nil => intro l l' h; obtain rfl := Except.ok.inj h; exact .refl
  | cons hp hps ih =>
    intro l l' h
    obtain ⟨l₁, he, h⟩ := Except.bind_eq_ok.mp h
    exact (erase_same he).trans (ih h)

theorem handleSession_spec (hi : LinksInv l) (h : McpHandler) :
    LinksInv (l.handleSession h).1 ∧ Keeps l (l.handleSession h).1 ∧
      (l.handleSession h).2 < (l.handleSession h).1.next := by
  unfold handleSession
  split
  · rename_i hp hm
    obtain ⟨H, hH, -⟩ := hi.map _ _ hm
    exact ⟨hi, .refl, hi.fresh _ _ hH⟩
  refine ⟨⟨?_, ?_⟩, ⟨Nat.le_succ _, ?_⟩, Nat.lt_succ_self _⟩
  · intro hp H hH
    by_cases h' : hp = l.next
    · subst h'; exact Nat.lt_succ_self _
    · exact Nat.lt_succ_of_lt (hi.fresh hp H (by simpa [h'] using hH))
  · intro id hp hm
    by_cases h' : id = h.handleID
    · subst h'
      simp only [Function.update_self, Option.some.injEq] at hm
      subst hm
      exact ⟨⟨h, []⟩, by simp, rfl⟩
    · obtain ⟨H, hH, hid⟩ := hi.map id hp (by simpa [h'] using hm)
      have : hp ≠ l.next := Nat.ne_of_lt (hi.fresh _ _ hH)
      exact ⟨H, by simpa [this] using hH, hid⟩
  · intro hp H' hlt hH
    have : hp ≠ l.next := Nat.ne_of_lt hlt
    exact ⟨H', by simpa [this] using hH, rfl⟩

theorem link_spec {p} : ∀ {hs l l' hps}, LinksInv l → Links.link p hs l = .ok (l', hps) →
    LinksInv l' ∧ Keeps l l' ∧ ∀ hp ∈ hps, hp < l'.next := by
  intro hs
  induction hs with
  | nil =>
    intro l l' hps hi h
    obtain ⟨rfl, rfl⟩ := Prod.mk.inj (Except.ok.inj h)
    exact ⟨hi, .refl, fun _ h => by cases h⟩
  | cons h₀ hs ih =>
    intro l l' hps hi h
    obtain ⟨l₁, hins, h⟩ := Except.bind_eq_ok.mp h
    obtain ⟨⟨l₂, hps₂⟩, hl, h⟩ := Except.bind_eq_ok.mp h
    obtain ⟨rfl, rfl⟩ := Prod.mk.inj (Except.ok.inj h)
    obtain ⟨hi₁, hk₁, hlt⟩ := handleSession_spec hi h₀
    have hsame := insert_same hins
    obtain ⟨hi₂, hk₂, hlts⟩ := ih (hsame.inv hi₁) hl
    refine ⟨hi₂, (hk₁.trans hsame.keeps).trans hk₂, fun hp hhp => ?_⟩
    rcases List.mem_cons.mp hhp with rfl | hhp
    · rw [← hsame.next] at hlt
      exact Nat.lt_of_lt_of_le hlt hk₂.next
    · exact hlts hp hhp

end Links

/-! ## A step -/

section
variable {cfg : Config} {s s' : State} {e : Event} {outs : List Out}

theorem Ended.same {p S} (h : Ended s p S s') : s.links.Same s'.links := by
  obtain ⟨-, hl⟩ := h
  exact Links.unlink_same hl

theorem SingleEnded.same {p S} (h : SingleEnded s p S s') : s.links.Same s'.links := by
  obtain ⟨-, hl⟩ := h
  exact Links.erase_same hl

theorem Losses.same (h : Losses s outs s') : s.links.Same s'.links := by
  induction h with
  | nil => exact .refl
  | endorse hend _ ih => exact hend.same.trans ih
  | single hend _ ih => exact hend.same.trans ih

theorem Noted.same {S} (h : Noted s S s') : s.links.Same s'.links := by
  cases h with
  | none => exact .refl
  | some _ _ hl => exact Links.insert_same hl

theorem Move.links (h : Move cfg s e s' outs) (hi : LinksInv s.links) :
    LinksInv s'.links ∧ s.links.Keeps s'.links := by
  have hsame : s.links.Same s'.links → LinksInv s'.links ∧ s.links.Keeps s'.links := fun h => ⟨h.inv hi, h.keeps⟩
  cases h with
  | aside _ _ _ h =>
    cases h with
    | quiet => exact hsame .refl
    | refused => exact hsame .refl
    | queried _ _ hl =>
      obtain ⟨h1, h2, -⟩ := Links.link_spec hi hl
      exact ⟨h1, h2⟩
    | fired => exact hsame .refl
    | ended hend => exact hsame hend.same
  | refused => exact hsame .refl
  | aborted _ _ _ _ _ _ _ _ hl hend =>
    obtain ⟨h1, h2, -⟩ := Links.link_spec hi hl
    have := hend.same
    exact ⟨this.inv h1, h2.trans this.keeps⟩
  | opened _ _ _ _ _ _ _ _ _ _ hl =>
    obtain ⟨h1, h2, -⟩ := Links.link_spec hi hl
    exact ⟨h1, h2⟩
  | kept => exact hsame .refl
  | failed _ _ _ _ _ hend => exact hsame hend.same
  | orphaned => exact hsame .refl
  | submitted _ _ _ hw hend => exact hsame (hw.same.trans hend.same)
  | timedOut _ _ hend => exact hsame hend.same
  | @lost h₀ hp H _ s₂ _ hm hH hl =>
    have hs := hl.same
    have hhp := hs.map
    simp only at hhp
    refine ⟨⟨fun hq H' hq' => ?_, fun id hq hq' => ?_⟩, ⟨Nat.le_of_eq hs.next.symm, fun hq H' _ hq' => ?_⟩⟩
    · by_cases h : hq = hp
      · subst h; simp at hq'
      · obtain ⟨H₁, hH₁, -⟩ := hs.symm_some (show s₂.links.handles hq = some H' by simpa [h] using hq')
        exact Nat.lt_of_lt_of_le (hi.fresh _ _ hH₁) (Nat.le_of_eq hs.next.symm)
    · have hq' : s₂.links.mapHandle id = some hq := hq'
      rw [hhp] at hq'
      have hid : id ≠ h₀.handleID := by intro heq; subst heq; simp at hq'
      obtain ⟨H₁, hH₁, hid₁⟩ := hi.map id hq (by simpa [hid] using hq')
      obtain ⟨H₀, hH₀, hid₀⟩ := hi.map _ _ hm
      have hne : hq ≠ hp := by
        intro heq
        subst heq
        rw [hH₁] at hH₀
        exact hid (by rw [← hid₁, Option.some.inj hH₀, hid₀])
      obtain ⟨H₂, hH₂, heq⟩ := hs.some (show _ = some H₁ from hH₁)
      exact ⟨H₂, by simpa [hne] using hH₂, by rw [heq, hid₁]⟩
    · have hne : hq ≠ hp := by intro heq; subst heq; simp at hq'
      exact hs.symm_some (show s₂.links.handles hq = some H' by simpa [hne] using hq')

variable {C : History → State → Event → Prop} {tr : History}

theorem run_linksInv (h : Run (step cfg) {} C tr s) : LinksInv s.links :=
  h.invariant (fun _ s => LinksInv s.links) ⟨(fun _ _ h => by cases h), (fun _ _ h => by cases h)⟩
    fun _ _ _ _ _ hr hi _ hst => ((run_move hr hst).links hi).1

theorem submitEs_lt (h : Run (step cfg) {} C tr s) :
    ∀ p S hp, s.core.session p = some S → S.submitEs = some hp → hp < s.links.next := by
  refine h.invariant (fun _ s => ∀ p S hp, s.core.session p = some S → S.submitEs = some hp → hp < s.links.next)
    (fun _ _ _ h => by cases h) ?_
  intro tr s e s' outs hr ih _ hst p S' hp hS' hsub
  have hm := run_move hr hst
  have hle := (hm.links (run_linksInv hr)).2.next
  rcases hm.session (run_coreInv hr) hS' with ⟨hS, -⟩ | ⟨-, -, -, -, -, hs, rand, hl, hse⟩ | ⟨a, S, hd, cs, -, -, hS, -, -, rfl⟩
  · exact Nat.lt_of_lt_of_le (ih p S' hp hS hsub) hle
  · rw [hse] at hsub
    exact (Links.link_spec (run_linksInv hr) hl).2.2 hp (List.mem_of_getElem? hsub)
  · exact Nat.lt_of_lt_of_le (ih p S hp hS hsub) hle

end

end VProtocol.Client
