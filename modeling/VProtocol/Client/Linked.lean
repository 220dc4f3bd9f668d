import VProtocol.Lib.Update
import VProtocol.Client.Picks

/-!
# Which sessions are in which arrays

`LinkInv`: a session is in the arrays of the handle sessions it is linked to and in
no others. An array finds an element by the one position the element stores, so
only a session with one link is certain to be found; a session with more is taken
out of every array if the slot its position points at is its own in each of them.
-/

namespace VProtocol.Client

open Function (update)

/-- What is linked to what, which sessions may have more than one link, and the arrays. -/
structure LinkInv (own : Ptr → List HPtr) (multi : Ptr → Prop) (l : Links) : Prop where
  mem : ∀ {hp H}, l.handles hp = some H → ∀ p, p ∈ H.arrSession ↔ hp ∈ own p
  nodup : ∀ {hp H}, l.handles hp = some H → H.arrSession.Nodup
  handle : ∀ {p hp}, hp ∈ own p → ∃ H, l.handles hp = some H
  own_nodup : ∀ p, (own p).Nodup
  one : ∀ {p hp hq}, ¬multi p → hp ∈ own p → hq ∈ own p → hp = hq
  sole : ∀ {p hp H}, ¬multi p → hp ∈ own p → l.handles hp = some H → H.arrSession[l.index p]? = some p

/-- The slot that the position of `p` points at holds `p`, in each of these arrays;
past the end it is the last slot. -/
def Links.Placed (l : Links) (p : Ptr) (hps : List HPtr) : Prop :=
  ∀ hp ∈ hps, ∀ H ∈ l.handles hp, takenBy H.arrSession (l.index p) = some p

instance (l : Links) (p : Ptr) (hps : List HPtr) : Decidable (l.Placed p hps) := by
  delta Links.Placed; infer_instance

section
variable {own : Ptr → List HPtr} {p q : Ptr} {hp hq : HPtr}

theorem mem_update_erase (hn : (own p).Nodup) :
    hq ∈ update own p ((own p).erase hp) q ↔ hq ∈ own q ∧ ¬(q = p ∧ hq = hp) := by
  by_cases h : q = p
  · subst h
    rw [Function.update_self, hn.mem_erase_iff]
    simp [and_comm]
  · simp [h]

theorem mem_update_append : hq ∈ update own p (own p ++ [hp]) q ↔ hq ∈ own q ∨ q = p ∧ hq = hp := by
  by_cases h : q = p
  · subst h
    simp
  · simp [h]

end

/-! ## Erasing -/

namespace Links
variable {l l' : Links} {live : Ptr → Bool} {hp hq : HPtr} {H : HandleSession} {p : Ptr} {hps : List HPtr}

theorem erase_eq (hH : l.handles hp = some H) (hne : H.arrSession ≠ [])
    (hlive : ∀ q ∈ H.arrSession, live q = true) :
    l.erase live hp p = .ok { l with
      handles := update l.handles hp (some { H with arrSession := swapErase H.arrSession (l.index p) })
      index := fun q => if movedBy H.arrSession (l.index p) = some q then l.index p else l.index q } := by
  simp only [erase, hH, if_neg hne]
  cases hm : movedBy H.arrSession (l.index p) with
  | none => simp
  | some q =>
    have hq : update l.index q (l.index p) = fun r => if q = r then l.index p else l.index r := by
      funext r
      by_cases h : r = q
      · subst h; simp
      · simp [h, Ne.symm h]
    simp [hlive q (movedBy_mem hm), hq]

theorem erase_ok (h : l.erase live hp p = .ok l') : l'.index p = l.index p ∧
    ∃ H, l.handles hp = some H ∧
      l'.handles = update l.handles hp (some { H with arrSession := swapErase H.arrSession (l.index p) }) := by
  unfold erase at h
  split at h
  · cases h
  rename_i H hH
  split at h
  · cases h
  simp only at h
  split at h
  · obtain rfl := Except.ok.inj h
    exact ⟨rfl, H, hH, rfl⟩
  · rename_i q hm
    split at h
    · obtain rfl := Except.ok.inj h
      refine ⟨?_, H, hH, rfl⟩
      by_cases hq : p = q
      · subst hq; simp
      · simp [hq]
    · cases h

theorem unlink_ok : ∀ {hps l l'}, hps.Nodup → unlink live p hps l = .ok l' → l'.index p = l.index p ∧
    ∀ hq, l'.handles hq = if hq ∈ hps then
      (l.handles hq).map fun H => { H with arrSession := swapErase H.arrSession (l.index p) } else l.handles hq := by
  intro hps
  induction hps with
  | nil =>
    intro l l' _ h
    obtain rfl := Except.ok.inj h
    simp
  | cons hp hps ih =>
    intro l l' hn h
    obtain ⟨hnot, hn⟩ := List.nodup_cons.mp hn
    obtain ⟨l₁, he, h⟩ := Except.bind_eq_ok.mp h
    obtain ⟨hi₁, H, hH, hh₁⟩ := erase_ok he
    obtain ⟨hi₂, hh₂⟩ := ih hn h
    refine ⟨hi₂.trans hi₁, fun hq => ?_⟩
    rw [hh₂, hh₁, hi₁]
    by_cases hqp : hq = hp
    · subst hqp; simp [hnot, hH]
    · simp [hqp]

end Links

namespace LinkInv
variable {own : Ptr → List HPtr} {multi multi' : Ptr → Prop} {l l' : Links} {live : Ptr → Bool} {hp : HPtr}
  {H : HandleSession} {p : Ptr}

theorem of_multi (hi : LinkInv own multi l) (hm : ∀ q, own q ≠ [] → multi q → multi' q) : LinkInv own multi' l where
  mem := hi.mem
  nodup := hi.nodup
  handle := hi.handle
  own_nodup := hi.own_nodup
  one hq h := hi.one (fun hmq => hq (hm _ (List.ne_nil_of_mem h) hmq)) h
  sole hq h := hi.sole (fun hmq => hq (hm _ (List.ne_nil_of_mem h) hmq)) h

theorem erase (hi : LinkInv own multi l) (hlive : ∀ q hq, hq ∈ own q → live q = true) (hH : l.handles hp = some H)
    (ht : takenBy H.arrSession (l.index p) = some p) :
    ∃ l', l.erase live hp p = .ok l' ∧ LinkInv (update own p ((own p).erase hp)) multi l' := by
  have hmemp : p ∈ H.arrSession := takenBy_mem ht
  have hown : hp ∈ own p := (hi.mem hH p).mp hmemp
  have hn := hi.own_nodup p
  refine ⟨_, Links.erase_eq hH (List.ne_nil_of_mem hmemp) fun q hq => hlive q hp ((hi.mem hH q).mp hq), ?_⟩
  refine ⟨?_, ?_, ?_, ?_, ?_, ?_⟩
  · intro hq Hq hHq q
    rw [mem_update_erase hn]
    rcases update_eq_some.mp hHq with ⟨rfl, rfl⟩ | ⟨hqp, hHq⟩
    · rw [mem_swapErase ht (hi.nodup hH), hi.mem hH, and_comm]
      simp
    · rw [hi.mem hHq]
      simp [hqp]
  · intro hq Hq hHq
    rcases update_eq_some.mp hHq with ⟨rfl, rfl⟩ | ⟨-, hHq⟩
    · exact swapErase_nodup ht (hi.nodup hH)
    · exact hi.nodup hHq
  · intro q hq hmem
    obtain ⟨Hq, hHq⟩ := hi.handle ((mem_update_erase hn).mp hmem).1
    by_cases hqp : hq = hp
    · exact ⟨_, update_eq_some.mpr (.inl ⟨hqp, rfl⟩)⟩
    · exact ⟨Hq, update_eq_some.mpr (.inr ⟨hqp, hHq⟩)⟩
  · intro q
    by_cases h : q = p
    · subst h; simpa using hn.erase hp
    · simpa [h] using hi.own_nodup q
  · intro q hq hq' hmq h1 h2
    exact hi.one hmq ((mem_update_erase hn).mp h1).1 ((mem_update_erase hn).mp h2).1
  · intro q hq Hq hmq hmem hHq
    rw [mem_update_erase hn] at hmem
    obtain ⟨hmem, hnot⟩ := hmem
    have h : q ≠ p := by
      intro h
      -- its only link is the one that goes
      exact hnot ⟨h, hi.one hmq hmem (h ▸ hown)⟩
    rcases update_eq_some.mp hHq with ⟨rfl, rfl⟩ | ⟨hqp, hHq⟩
    · exact getElem?_swapErase ht (hi.sole hmq hmem hH) h (hi.nodup hH)
    · have hno : movedBy H.arrSession (l.index p) ≠ some q := by
        intro hm
        exact hqp (hi.one hmq hmem ((hi.mem hH q).mp (movedBy_mem hm)))
      simp only [if_neg hno]
      exact hi.sole hmq hmem hHq

theorem unlink : ∀ {hps own l}, LinkInv own multi l → (∀ q hq, hq ∈ own q → live q = true) → own p = hps →
    l.Placed p hps → ∃ l', l.unlink live p hps = .ok l' ∧ LinkInv (update own p []) multi l' := by
  intro hps
  induction hps with
  | nil =>
    intro own l hi _ hown _
    refine ⟨l, rfl, ?_⟩
    rw [← hown, Function.update_eq_self]
    exact hi
  | cons hp hps ih =>
    intro own l hi hlive hown hpl
    have hmem : hp ∈ own p := by rw [hown]; exact List.mem_cons_self
    have hn := hi.own_nodup p
    rw [hown] at hn
    obtain ⟨hnot, -⟩ := List.nodup_cons.mp hn
    obtain ⟨H, hH⟩ := hi.handle hmem
    obtain ⟨l₁, he, hi₁⟩ := hi.erase hlive hH (hpl hp List.mem_cons_self H hH)
    rw [hown, List.erase_cons_head] at hi₁
    obtain ⟨hidx, H', hH', hh₁⟩ := Links.erase_ok he
    have hpl₁ : l₁.Placed p hps := by
      intro hq hhq K hK
      have hne : hq ≠ hp := by intro heq; subst heq; exact hnot hhq
      rw [hh₁, Function.update_of_ne hne] at hK
      rw [hidx]
      exact hpl hq (List.mem_cons_of_mem _ hhq) K hK
    have hlive₁ : ∀ q hq, hq ∈ update own p hps q → live q = true := by
      intro q hq h
      by_cases hqp : q = p
      · subst hqp
        exact hlive q hp hmem
      · rw [Function.update_of_ne hqp] at h
        exact hlive q hq h
    obtain ⟨l', hu, hi'⟩ := ih hi₁ hlive₁ (Function.update_self ..) hpl₁
    rw [Function.update_idem] at hi'
    exact ⟨l', Except.bind_eq_ok.mpr ⟨l₁, he, hu⟩, hi'⟩

theorem placed_of_unlink (hi : LinkInv own multi l) (h : l.unlink live p (own p) = .ok l')
    (hout : ∀ hp H, l'.handles hp = some H → p ∉ H.arrSession) : l.Placed p (own p) := by
  intro hp hmem H hH
  rw [Option.mem_def] at hH
  obtain ⟨-, hh⟩ := Links.unlink_ok (hi.own_nodup p) h
  have hp' := (hi.mem hH p).mpr hmem
  obtain ⟨x, hx⟩ := Option.isSome_iff_exists.mp (takenBy_isSome (List.ne_nil_of_mem hp') (l.index p))
  have hno := hout hp { H with arrSession := swapErase H.arrSession (l.index p) } (by simp [hh, hmem, hH])
  rw [mem_swapErase hx (hi.nodup hH)] at hno
  rw [hx]
  by_contra hne
  exact hno ⟨fun h => hne (by rw [h]), hp'⟩

/-! ## Inserting -/

theorem insert (hi : LinkInv own multi l) (hnew : hp ∉ own p) (hm : multi p ∨ own p = []) (h : l.insert hp p = .ok l') :
    LinkInv (update own p (own p ++ [hp])) multi l' := by
  unfold Links.insert at h
  split at h
  · cases h
  rename_i H hH
  obtain rfl := Except.ok.inj h
  have hnot : p ∉ H.arrSession := fun h => hnew ((hi.mem hH p).mp h)
  have honly : ∀ {q hq}, ¬multi q → hq ∈ update own p (own p ++ [hp]) q → q = p → hq = hp := by
    intro q hq hmq hmem h
    subst h
    rw [hm.resolve_left hmq] at hmem
    simpa using hmem
  refine ⟨?_, ?_, ?_, ?_, ?_, ?_⟩
  · intro hq Hq hHq q
    rw [mem_update_append]
    rcases update_eq_some.mp hHq with ⟨rfl, rfl⟩ | ⟨hqp, hHq⟩
    · simp [hi.mem hH]
    · simp [hi.mem hHq, hqp]
  · intro hq Hq hHq
    rcases update_eq_some.mp hHq with ⟨rfl, rfl⟩ | ⟨-, hHq⟩
    · exact (hi.nodup hH).append (List.nodup_singleton _) (List.disjoint_singleton.mpr hnot)
    · exact hi.nodup hHq
  · intro q hq hmem
    by_cases hqp : hq = hp
    · exact ⟨_, update_eq_some.mpr (.inl ⟨hqp, rfl⟩)⟩
    · obtain ⟨Hq, hHq⟩ := hi.handle ((mem_update_append.mp hmem).resolve_right fun h => hqp h.2)
      exact ⟨Hq, update_eq_some.mpr (.inr ⟨hqp, hHq⟩)⟩
  · intro q
    by_cases h : q = p
    · subst h
      rw [Function.update_self]
      exact (hi.own_nodup q).append (List.nodup_singleton _) (List.disjoint_singleton.mpr hnew)
    · simpa [h] using hi.own_nodup q
  · intro q hq hq' hmq h1 h2
    by_cases h : q = p
    · rw [honly hmq h1 h, honly hmq h2 h]
    · rw [Function.update_of_ne h] at h1 h2
      exact hi.one hmq h1 h2
  · intro q hq Hq hmq hmem hHq
    by_cases hqp : q = p
    · obtain rfl := honly hmq hmem hqp
      subst hqp
      rcases update_eq_some.mp hHq with ⟨-, rfl⟩ | ⟨hne, -⟩
      · simp
      · exact absurd rfl hne
    · simp only [Function.update_of_ne hqp] at hmem ⊢
      rcases update_eq_some.mp hHq with ⟨rfl, rfl⟩ | ⟨-, hHq⟩
      · have hat := hi.sole hmq hmem hH
        rw [List.getElem?_append_left (List.getElem?_eq_some_iff.mp hat).1]
        exact hat
      · exact hi.sole hmq hmem hHq

theorem handleSession (hi : LinkInv own multi l) (hl : LinksInv l) (h : McpHandler) :
    LinkInv own multi (l.handleSession h).1 := by
  unfold Links.handleSession
  split
  · exact hi
  have hne : ∀ {q hq}, hq ∈ own q → hq ≠ l.next := by
    intro q hq hmem
    obtain ⟨H, hH⟩ := hi.handle hmem
    exact Nat.ne_of_lt (hl.fresh hq H hH)
  refine ⟨?_, ?_, ?_, hi.own_nodup, hi.one, ?_⟩
  · intro hq Hq hHq q
    rcases update_eq_some.mp hHq with ⟨rfl, rfl⟩ | ⟨-, hHq⟩
    · simpa using fun h => hne h rfl
    · exact hi.mem hHq q
  · intro hq Hq hHq
    rcases update_eq_some.mp hHq with ⟨-, rfl⟩ | ⟨-, hHq⟩
    · exact List.nodup_nil
    · exact hi.nodup hHq
  · intro q hq hmem
    simpa [hne hmem] using hi.handle hmem
  · intro q hq Hq hmq hmem hHq
    simp only [Function.update_of_ne (hne hmem)] at hHq
    exact hi.sole hmq hmem hHq

end LinkInv

/-! ## Linking a session with the handlers that were picked -/

namespace Links
variable {l l' : Links} {h : McpHandler} {p : Ptr}

def arrLen (l : Links) (h : McpHandler) : Nat :=
  ((l.mapHandle h.handleID).bind l.handles).elim 0 (·.arrSession.length)

structure Grown (l : Links) (h : McpHandler) (p : Ptr) (l' : Links) : Prop where
  map : l'.mapHandle h.handleID = some (l.handleSession h).2
  array : ∃ H arr, l'.handles (l.handleSession h).2 = some H ∧ H.mcpHandler.handleID = h.handleID ∧
    H.arrSession = arr ++ [p] ∧ arr.length = l.arrLen h
  index : l'.index p = l.arrLen h
  other : ∀ hq H, l.handles hq = some H → H.mcpHandler.handleID ≠ h.handleID → l'.handles hq = some H
  maps : ∀ id ≠ h.handleID, l'.mapHandle id = l.mapHandle id

theorem handleSession_ok (hl : LinksInv l) (h : McpHandler) :
    (l.handleSession h).1.mapHandle h.handleID = some (l.handleSession h).2 ∧
      (∃ H, (l.handleSession h).1.handles (l.handleSession h).2 = some H ∧ H.arrSession.length = l.arrLen h) ∧
      (∀ hq H, l.handles hq = some H → (l.handleSession h).1.handles hq = some H) ∧
      ∀ id ≠ h.handleID, (l.handleSession h).1.mapHandle id = l.mapHandle id := by
  unfold handleSession arrLen
  cases hm : l.mapHandle h.handleID with
  | some hp =>
    obtain ⟨H, hH, -⟩ := hl.map _ _ hm
    exact ⟨hm, ⟨H, hH, by simp [hH]⟩, fun _ _ hH => hH, fun _ _ => rfl⟩
  | none =>
    refine ⟨by simp, ⟨⟨h, []⟩, by simp, by simp⟩, fun hq H hH => ?_, fun id hid => by simp [hid]⟩
    have hne : hq ≠ l.next := Nat.ne_of_lt (hl.fresh hq H hH)
    simp [hne, hH]

theorem insert_grown (hl : LinksInv l) (h : McpHandler)
    (hi : (l.handleSession h).1.insert (l.handleSession h).2 p = .ok l') : l.Grown h p l' := by
  obtain ⟨hmap, ⟨H, hH, hlen⟩, hold, hids⟩ := handleSession_ok hl h
  obtain ⟨H', hH', hid⟩ := (handleSession_spec hl h).1.map _ _ hmap
  obtain rfl := Option.some.inj (hH.symm.trans hH')
  have hsame := insert_same hi
  unfold Links.insert at hi
  rw [hH] at hi
  obtain rfl := Except.ok.inj hi
  have harr : ∃ K, update (l.handleSession h).1.handles (l.handleSession h).2
      (some { H with arrSession := H.arrSession ++ [p] }) (l.handleSession h).2 = some K ∧
      K.mcpHandler.handleID = h.handleID ∧ K.arrSession = H.arrSession ++ [p] :=
    ⟨_, Function.update_self .., hid, rfl⟩
  obtain ⟨K, hK, hKid, hKarr⟩ := harr
  refine ⟨hmap, ⟨K, H.arrSession, hK, hKid, hKarr, hlen⟩, by simp [hlen], fun hq K hK hne => ?_, hids⟩
  have hqne : hq ≠ (l.handleSession h).2 := by
    intro heq
    subst heq
    rw [hold _ K hK] at hH
    exact hne (Option.some.inj hH ▸ hid)
  simp [hqne, hold hq K hK]

theorem Grown.arrLen (hg : l.Grown h p l') (hl : LinksInv l) {h' : McpHandler} (hne : h'.handleID ≠ h.handleID) :
    l'.arrLen h' = l.arrLen h' := by
  unfold Links.arrLen
  rw [hg.maps _ hne]
  cases hm : l.mapHandle h'.handleID with
  | none => rfl
  | some hq =>
    obtain ⟨H, hH, hid⟩ := hl.map _ _ hm
    simp [hg.other hq H hH (hid ▸ hne), hH]

theorem link_cons {h₀ : McpHandler} {hs : List McpHandler} {hps} (h : Links.link p (h₀ :: hs) l = .ok (l', hps)) :
    ∃ l₁ hps', (l.handleSession h₀).1.insert (l.handleSession h₀).2 p = .ok l₁ ∧
      Links.link p hs l₁ = .ok (l', hps') ∧ hps = (l.handleSession h₀).2 :: hps' := by
  obtain ⟨l₁, hins, h⟩ := Except.bind_eq_ok.mp h
  obtain ⟨⟨l₂, hps'⟩, hlk, h⟩ := Except.bind_eq_ok.mp h
  obtain ⟨rfl, rfl⟩ := Prod.mk.inj (Except.ok.inj h)
  exact ⟨l₁, hps', hins, hlk, rfl⟩

theorem not_id_of_nodup {h₀ : McpHandler} {hs : List McpHandler} (hn : ((h₀ :: hs).map (·.handleID)).Nodup) :
    (hs.map (·.handleID)).Nodup ∧ ∀ h ∈ hs, h.handleID ≠ h₀.handleID := by
  rw [List.map_cons, List.nodup_cons] at hn
  refine ⟨hn.2, fun h hh heq => hn.1 ?_⟩
  rw [← heq]
  exact List.mem_map_of_mem hh

theorem link_other : ∀ {hs l l' hps}, LinksInv l → Links.link p hs l = .ok (l', hps) →
    ∀ hq H, l.handles hq = some H → (∀ h ∈ hs, h.handleID ≠ H.mcpHandler.handleID) → l'.handles hq = some H := by
  intro hs
  induction hs with
  | nil =>
    intro l l' hps _ h hq H hH _
    obtain ⟨rfl, -⟩ := Prod.mk.inj (Except.ok.inj h)
    exact hH
  | cons h₀ hs ih =>
    intro l l' hps hl h hq H hH hno
    obtain ⟨l₁, hps', hins, hlk, -⟩ := link_cons h
    have hl₁ := (insert_same hins).inv (handleSession_spec hl h₀).1
    apply ih hl₁ hlk hq H
    · exact (insert_grown hl h₀ hins).other hq H hH (hno h₀ List.mem_cons_self).symm
    · intro h hh
      exact hno h (List.mem_cons_of_mem _ hh)

theorem link_arrays : ∀ {hs l l' hps}, LinksInv l → (hs.map (·.handleID)).Nodup → Links.link p hs l = .ok (l', hps) →
    (∀ hp ∈ hps, ∃ h ∈ hs, ∃ H arr, l'.handles hp = some H ∧ H.arrSession = arr ++ [p] ∧ arr.length = l.arrLen h) ∧
      ∀ h ∈ hs.getLast?, l'.index p = l.arrLen h := by
  intro hs
  induction hs with
  | nil =>
    intro l l' hps _ _ h
    obtain ⟨-, rfl⟩ := Prod.mk.inj (Except.ok.inj h)
    simp
  | cons h₀ hs ih =>
    intro l l' hps hl hn h
    obtain ⟨hn, hne⟩ := not_id_of_nodup hn
    obtain ⟨l₁, hps', hins, hlk, rfl⟩ := link_cons h
    have hg := insert_grown hl h₀ hins
    have hl₁ := (insert_same hins).inv (handleSession_spec hl h₀).1
    obtain ⟨harr, hlast⟩ := ih hl₁ hn hlk
    constructor
    · intro hp hhp
      rcases List.mem_cons.mp hhp with rfl | hhp
      · obtain ⟨H, arr, hH, hid, ha, hlen⟩ := hg.array
        refine ⟨h₀, List.mem_cons_self, H, arr, link_other hl₁ hlk _ H hH ?_, ha, hlen⟩
        intro h hh
        rw [hid]
        exact hne h hh
      · obtain ⟨h, hh, H, arr, hH, ha, hlen⟩ := harr hp hhp
        exact ⟨h, List.mem_cons_of_mem _ hh, H, arr, hH, ha, by rw [hlen, hg.arrLen hl (hne h hh)]⟩
    · intro h' hh
      cases hs with
      | nil =>
        obtain rfl : h₀ = h' := Option.some.inj hh
        obtain ⟨rfl, -⟩ := Prod.mk.inj (Except.ok.inj hlk)
        exact hg.index
      | cons h₁ hs =>
        rw [List.getLast?_cons_cons] at hh
        rw [hlast h' hh, hg.arrLen hl (hne h' (List.mem_of_getLast? hh))]

theorem placed_of_link {hs l l' hps h} (hl : LinksInv l) (hn : (hs.map (·.handleID)).Nodup)
    (hlk : Links.link p hs l = .ok (l', hps)) (hlast : hs.getLast? = some h) (hle : ∀ h' ∈ hs, l.arrLen h' ≤ l.arrLen h) :
    l'.Placed p hps := by
  obtain ⟨harr, hidx⟩ := link_arrays hl hn hlk
  intro hp hhp H hH
  obtain ⟨h', hh', H', arr, hH', ha, hlen⟩ := harr hp hhp
  obtain rfl := Option.some.inj (hH'.symm.trans hH)
  have := hle h' hh'
  rw [ha, hidx h hlast, takenBy_concat, if_neg (by omega)]

end Links

theorem LinkInv.link {multi : Ptr → Prop} {p : Ptr} : ∀ {hs l l' hps own}, LinkInv own multi l → LinksInv l →
    (hs.map (·.handleID)).Nodup → (∀ h ∈ hs, ∀ hp, l.mapHandle h.handleID = some hp → hp ∉ own p) →
    (hs ≠ [] → multi p ∨ own p = [] ∧ hs.length ≤ 1) → Links.link p hs l = .ok (l', hps) →
    LinkInv (update own p (own p ++ hps)) multi l' ∧ hps.length = hs.length := by
  intro hs
  induction hs with
  | nil =>
    intro l l' hps own hi _ _ _ _ h
    obtain ⟨rfl, rfl⟩ := Prod.mk.inj (Except.ok.inj h)
    rw [List.append_nil, Function.update_eq_self]
    exact ⟨hi, rfl⟩
  | cons h₀ hs ih =>
    intro l l' hps own hi hl hn hnew hm h
    obtain ⟨hn, hne⟩ := Links.not_id_of_nodup hn
    obtain ⟨l₁, hps', hins, hlk, rfl⟩ := Links.link_cons h
    have hg := Links.insert_grown hl h₀ hins
    have hl₁ := (Links.insert_same hins).inv (Links.handleSession_spec hl h₀).1
    have hnot : (l.handleSession h₀).2 ∉ own p := by
      unfold Links.handleSession
      cases hmap : l.mapHandle h₀.handleID with
      | some hp => exact hnew h₀ List.mem_cons_self hp hmap
      | none =>
        intro hmem
        obtain ⟨H, hH⟩ := hi.handle hmem
        exact Nat.lt_irrefl _ (hl.fresh _ _ hH)
    have hi₁ := (hi.handleSession hl h₀).insert hnot ((hm (List.cons_ne_nil _ _)).imp_right And.left) hins
    have hnew₁ : ∀ h ∈ hs, ∀ hp, l₁.mapHandle h.handleID = some hp →
        hp ∉ update own p (own p ++ [(l.handleSession h₀).2]) p := by
      intro h hh hp hmap
      rw [Function.update_self, List.mem_append, List.mem_singleton, not_or]
      refine ⟨hnew h (List.mem_cons_of_mem _ hh) hp (hg.maps _ (hne h hh) ▸ hmap), ?_⟩
      -- two handle ids are not mapped to one handle session
      intro heq
      subst heq
      obtain ⟨H, hH, hid⟩ := hl₁.map _ _ hg.map
      obtain ⟨H', hH', hid'⟩ := hl₁.map _ _ hmap
      obtain rfl := Option.some.inj (hH.symm.trans hH')
      exact hne h hh (hid'.symm.trans hid)
    have hm₁ : hs ≠ [] → multi p ∨ update own p (own p ++ [(l.handleSession h₀).2]) p = [] ∧ hs.length ≤ 1 := by
      intro hne
      rcases hm (List.cons_ne_nil _ _) with hm | ⟨-, hlen⟩
      · exact .inl hm
      · exact absurd (List.eq_nil_of_length_eq_zero (by simpa using hlen)) hne
    obtain ⟨hi₂, hlen⟩ := ih hi₁ hl₁ hn hnew₁ hm₁ hlk
    rw [Function.update_self, Function.update_idem, List.append_assoc] at hi₂
    exact ⟨hi₂, by rw [List.length_cons, hlen, List.length_cons]⟩

/-! ## The links of all sessions -/

def Multi (own : Ptr → List HPtr) (p : Ptr) : Prop := 2 ≤ (own p).length

namespace LinkInv
variable {own : Ptr → List HPtr} {l l' : Links} {live : Ptr → Bool} {hp : HPtr} {p : Ptr}

theorem multi_update {hps : List HPtr} (hi : LinkInv (update own p hps) (Multi own) l) (h : hps = [] ∨ ¬Multi own p) :
    LinkInv (update own p hps) (Multi (update own p hps)) l := by
  apply hi.of_multi
  intro q hne hq
  by_cases hqp : q = p
  · subst hqp
    rw [Function.update_self] at hne
    rcases h with h | h
    · exact absurd h hne
    · exact absurd hq h
  · simpa [Multi, hqp] using hq

theorem release (hi : LinkInv own (Multi own) l) (hlive : ∀ q hq, hq ∈ own q → live q = true)
    (hpl : l.Placed p (own p)) :
    ∃ l', l.unlink live p (own p) = .ok l' ∧ LinkInv (update own p []) (Multi (update own p [])) l' := by
  obtain ⟨l', hu, hi'⟩ := hi.unlink hlive rfl hpl
  exact ⟨l', hu, hi'.multi_update (.inl rfl)⟩

theorem release_one (hi : LinkInv own (Multi own) l) (hlive : ∀ q hq, hq ∈ own q → live q = true) (hown : own p = [hp]) :
    ∃ l', l.erase live hp p = .ok l' ∧ LinkInv (update own p []) (Multi (update own p [])) l' := by
  have hmem : hp ∈ own p := by simp [hown]
  have hone : ¬Multi own p := by simp [Multi, hown]
  obtain ⟨H, hH⟩ := hi.handle hmem
  obtain ⟨l', he, hi'⟩ := hi.erase hlive hH (takenBy_of_getElem? (hi.sole hone hmem hH))
  rw [hown, List.erase_cons_head] at hi'
  exact ⟨l', he, hi'.multi_update (.inl rfl)⟩

theorem link_new {hs hps} (hi : LinkInv own (Multi own) l) (hl : LinksInv l) (hn : (hs.map (·.handleID)).Nodup)
    (hnil : own p = []) (h : Links.link p hs l = .ok (l', hps)) :
    LinkInv (update own p hps) (Multi (update own p hps)) l' := by
  have hi₀ : LinkInv own (fun q => if q = p then 2 ≤ hs.length else Multi own q) l := by
    apply hi.of_multi
    intro q hne hq
    rw [if_neg (by intro heq; subst heq; exact hne hnil)]
    exact hq
  have hm : hs ≠ [] → (if p = p then 2 ≤ hs.length else Multi own p) ∨ own p = [] ∧ hs.length ≤ 1 := by
    intro _
    simp only [if_true, hnil, true_and]
    omega
  obtain ⟨hi₁, hlen⟩ := hi₀.link hl hn (by simp [hnil]) hm h
  rw [hnil, List.nil_append] at hi₁
  apply hi₁.of_multi
  intro q _ hq
  by_cases hqp : q = p
  · subst hqp
    simpa [Multi, hlen] using hq
  · simpa [Multi, hqp] using hq

theorem insert_new (hi : LinkInv own (Multi own) l) (hnil : own p = []) (h : l.insert hp p = .ok l') :
    LinkInv (update own p [hp]) (Multi (update own p [hp])) l' := by
  have hi' := hi.insert (by simp [hnil]) (.inr hnil) h
  rw [hnil, List.nil_append] at hi'
  exact hi'.multi_update (.inr (by simp [Multi, hnil]))

theorem drop {multi : Ptr → Prop} (hi : LinkInv own multi l) (hno : ∀ q, hp ∉ own q) :
    LinkInv own multi { l with handles := update l.handles hp none } := by
  have hne : ∀ {hq H}, update l.handles hp none hq = some H → hq ≠ hp ∧ l.handles hq = some H := by
    intro hq H hH
    by_cases h : hq = hp
    · subst h; simp at hH
    · exact ⟨h, by simpa [h] using hH⟩
  refine ⟨fun hH => hi.mem (hne hH).2, fun hH => hi.nodup (hne hH).2, ?_, hi.own_nodup, hi.one,
    fun hm hmem hH => hi.sole hm hmem (hne hH).2⟩
  intro q hq hmem
  have : hq ≠ hp := by intro heq; subst heq; exact hno q hmem
  simpa [this] using hi.handle hmem

end LinkInv

end VProtocol.Client
