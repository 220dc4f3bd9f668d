import Mathlib.Data.List.Perm.Basic
import VProtocol.Lib.Update
import VProtocol.Mq.Agent

/-!
# The sessions of the agent

The sessions of the map that have a handler are those of the array, once each, and a handler
is of the address that its session is for. Every step of the agent keeps that, also where a
send or `DisConnect` reports a loss before it returns.
-/

namespace VProtocol.Mq

open Function (update)

section
variable {α : Type}

/-- The map, the sessions, the array with its indices, and the next address. -/
structure Arrayed (map : α → Option Ptr) (sessions : Ptr → Option (AddrSession α)) (a : TypeArray) (ix : Indices)
    (next : Ptr) : Prop where
  placed : a.Placed ix
  index : ∀ p, p ∉ a.elems → ix p = none
  session : ∀ x p, map x = some p → ∃ S, sessions p = some S ∧ (∀ h, S.mcpHandler = some h → h.remoteAddr = x) ∧
    (S.mcpHandler.isSome ↔ p ∈ a.elems)
  inj : ∀ {x y p}, map x = some p → map y = some p → x = y
  elem : ∀ p ∈ a.elems, ∃ x, map x = some p
  lt : ∀ x p, map x = some p → p < next

variable {map : α → Option Ptr} {sessions : Ptr → Option (AddrSession α)} {a : TypeArray} {ix : Indices} {next p : Ptr}
  {x : α} {S : AddrSession α}

theorem arrayed_empty : Arrayed (fun _ : α => none) sessions {} (fun _ => none) next :=
  ⟨TypeArray.placed_empty _, fun _ _ => rfl, nofun, nofun, fun _ hp => absurd hp List.not_mem_nil, nofun⟩

theorem filter_ne_self {l : List Ptr} (hp : p ∉ l) : l.filter (· ≠ p) = l := by
  refine List.filter_eq_self.mpr fun q hq => decide_eq_true ?_
  rintro rfl
  exact hp hq

theorem mem_of_perm {a' : TypeArray} (hperm : a'.elems.Perm (a.elems.filter (· ≠ p))) {r : Ptr} :
    r ∈ a'.elems ↔ r ∈ a.elems ∧ r ≠ p := by
  rw [hperm.mem_iff, List.mem_filter]
  simp

theorem Arrayed.delete (h : Arrayed map sessions a ix next) (p : Ptr) : ∃ a' ix' q, a.delete p ix = .ok (a', ix', q) ∧
    a'.elems.Perm (a.elems.filter (· ≠ p)) ∧ a'.Placed ix' ∧ ∀ r, r ∉ a'.elems → ix' r = none := by
  by_cases hp : p ∈ a.elems
  · obtain ⟨a', ix', q, hdel, hmem, -, hplaced, hnone, hframe⟩ := h.placed.delete hp
    refine ⟨a', ix', q, hdel, ?_, hplaced, fun r hr => ?_⟩
    · refine (List.perm_ext_iff_of_nodup hplaced.nodup (h.placed.nodup.filter _)).mpr fun r => ?_
      rw [hmem r, List.mem_filter, and_comm]
      simp
    · by_cases hrp : r = p
      · rw [hrp]
        exact hnone
      · have hra : r ∉ a.elems := fun hra => hr ((hmem r).mpr ⟨hrp, hra⟩)
        rw [hframe r hra]
        exact h.index r hra
  · refine ⟨a, ix, none, a.delete_none (h.index p hp), ?_, h.placed, h.index⟩
    rw [filter_ne_self hp]

theorem Arrayed.lose (h : Arrayed map sessions a ix next) (hp : map x = some p) (hS : sessions p = some S)
    {a' : TypeArray} {ix' : Indices} (hperm : a'.elems.Perm (a.elems.filter (· ≠ p))) (hplaced : a'.Placed ix')
    (hindex : ∀ r, r ∉ a'.elems → ix' r = none) :
    Arrayed map (update sessions p (some { S with mcpHandler := none })) a' ix' next := by
  have hmem : ∀ {r}, r ∈ a'.elems ↔ r ∈ a.elems ∧ r ≠ p := mem_of_perm hperm
  refine ⟨hplaced, hindex, fun y q hq => ?_, h.inj, fun q hq => h.elem q (hmem.mp hq).1, h.lt⟩
  by_cases hqp : q = p
  · subst hqp
    refine ⟨_, Function.update_self _ _ _, nofun, ?_⟩
    simp [hmem]
  · obtain ⟨R, hR, haddr, hin⟩ := h.session y q hq
    refine ⟨R, (Function.update_of_ne hqp _ _).trans hR, haddr, hin.trans ?_⟩
    rw [hmem]
    simp [hqp]

variable [DecidableEq α]

theorem Arrayed.forget (h : Arrayed map sessions a ix next) (hp : map x = some p) {a' : TypeArray} {ix' : Indices}
    {sessions' : Ptr → Option (AddrSession α)} (hperm : a'.elems.Perm (a.elems.filter (· ≠ p)))
    (hplaced : a'.Placed ix')
    (hindex : ∀ r, r ∉ a'.elems → ix' r = none) (hkept : ∀ q, q ≠ p → sessions' q = sessions q) :
    Arrayed (update map x none) (update sessions' p none) a' ix' next := by
  have hmem : ∀ {r}, r ∈ a'.elems ↔ r ∈ a.elems ∧ r ≠ p := mem_of_perm hperm
  refine ⟨hplaced, hindex, fun y q hq => ?_, fun hy hz => ?_, fun q hq => ?_, fun y q hq => ?_⟩
  · obtain ⟨hne, hq⟩ := update_none_eq_some.mp hq
    have hqp : q ≠ p := by
      rintro rfl
      exact hne (h.inj hq hp)
    obtain ⟨R, hR, haddr, hin⟩ := h.session y q hq
    refine ⟨R, ?_, haddr, hin.trans ?_⟩
    · rw [Function.update_of_ne hqp, hkept q hqp]
      exact hR
    · rw [hmem]
      simp [hqp]
  · exact h.inj (update_none_eq_some.mp hy).2 (update_none_eq_some.mp hz).2
  · obtain ⟨hqa, hqp⟩ := hmem.mp hq
    obtain ⟨y, hy⟩ := h.elem q hqa
    have hyx : y ≠ x := by
      rintro rfl
      exact hqp (Option.some.inj (hy.symm.trans hp))
    exact ⟨y, (Function.update_of_ne hyx _ _).trans hy⟩
  · exact h.lt y q (update_none_eq_some.mp hq).2

theorem Arrayed.create (h : Arrayed map sessions a ix next) (S : AddrSession α) (hx : map x = none)
    (hS : S.mcpHandler = none) :
    Arrayed (update map x (some next)) (update sessions next (some S)) a (update ix next none) (next + 1) := by
  have hold : ∀ {y q}, map y = some q → q ≠ next := fun hq => Nat.ne_of_lt (h.lt _ _ hq)
  have hnew : next ∉ a.elems := by
    intro hmem
    obtain ⟨y, hy⟩ := h.elem next hmem
    exact hold hy rfl
  refine ⟨h.placed.congr fun q hq => ?_, fun q hq => ?_, fun y q hq => ?_, fun {y z q} hy hz => ?_, fun q hq => ?_,
    fun y q hq => ?_⟩
  · have hqn : q ≠ next := by
      rintro rfl
      exact hnew hq
    exact Function.update_of_ne hqn _ _
  · by_cases hqn : q = next
    · subst hqn
      exact Function.update_self _ _ _
    · rw [Function.update_of_ne hqn]
      exact h.index q hq
  · rcases update_eq_some.mp hq with ⟨rfl, rfl⟩ | ⟨-, hq⟩
    · refine ⟨S, Function.update_self _ _ _, fun h' hh' => ?_, ?_⟩
      · rw [hS] at hh'
        cases hh'
      · rw [hS]
        simp [hnew]
    · obtain ⟨R, hR, hrest⟩ := h.session y q hq
      exact ⟨R, (Function.update_of_ne (hold hq) _ _).trans hR, hrest⟩
  · rcases update_eq_some.mp hy with ⟨rfl, rfl⟩ | ⟨-, hyo⟩
    · rcases update_eq_some.mp hz with ⟨rfl, -⟩ | ⟨-, hzo⟩
      · rfl
      · exact absurd rfl (hold hzo)
    · rcases update_eq_some.mp hz with ⟨rfl, rfl⟩ | ⟨-, hzo⟩
      · exact absurd rfl (hold hyo)
      · exact h.inj hyo hzo
  · obtain ⟨y, hy⟩ := h.elem q hq
    have hyx : y ≠ x := by
      rintro rfl
      rw [hx] at hy
      cases hy
    exact ⟨y, (Function.update_of_ne hyx _ _).trans hy⟩
  · rcases update_eq_some.mp hq with ⟨-, rfl⟩ | ⟨-, hq⟩
    · exact Nat.lt_succ_self _
    · exact Nat.lt_succ_of_lt (h.lt y q hq)

omit [DecidableEq α] in
theorem Arrayed.insert (h : Arrayed map sessions a ix next) (hp : map x = some p)
    (hh : ∀ h', S.mcpHandler = some h' → h'.remoteAddr = x) (hS : S.mcpHandler.isSome) :
    Arrayed map (update sessions p (some S)) (a.insert p ix).1 (a.insert p ix).2 next ∧
      (a.insert p ix).1.elems.Perm (p :: a.elems.filter (· ≠ p)) := by
  have hafter : (a.insert p ix).1.Placed (a.insert p ix).2 ∧ (∀ r, r ∈ (a.insert p ix).1.elems ↔ r = p ∨ r ∈ a.elems) ∧
      ∀ r, r ≠ p → (a.insert p ix).2 r = ix r := by
    cases hix : ix p with
    | none =>
      obtain ⟨helems, hix'⟩ := a.insert_elems hix
      refine ⟨h.placed.insert hix, fun r => ?_, fun r hr => ?_⟩
      · rw [helems, List.mem_append, List.mem_singleton, or_comm]
      · rw [hix', Function.update_of_ne hr]
    | some k =>
      have hpa : p ∈ a.elems := by
        by_contra hnot
        rw [h.index p hnot] at hix
        cases hix
      have hsame : a.insert p ix = (a, ix) := by
        unfold TypeArray.insert
        rw [hix]
      rw [hsame]
      refine ⟨h.placed, fun r => ⟨.inr, ?_⟩, fun r _ => rfl⟩
      rintro (rfl | hr)
      · exact hpa
      · exact hr
  obtain ⟨hplaced, hmem, hframe⟩ := hafter
  refine ⟨⟨hplaced, fun r hr => ?_, fun y q hq => ?_, h.inj, fun q hq => ?_, h.lt⟩, ?_⟩
  · have hrp : r ≠ p := fun he => hr ((hmem r).mpr (.inl he))
    rw [hframe r hrp]
    exact h.index r fun hra => hr ((hmem r).mpr (.inr hra))
  · by_cases hqp : q = p
    · subst hqp
      obtain rfl := h.inj hq hp
      exact ⟨S, Function.update_self _ _ _, hh, fun _ => (hmem q).mpr (.inl rfl), fun _ => hS⟩
    · obtain ⟨R, hR, haddr, hin⟩ := h.session y q hq
      refine ⟨R, (Function.update_of_ne hqp _ _).trans hR, haddr, hin.trans ?_⟩
      rw [hmem]
      simp [hqp]
  · rcases (hmem q).mp hq with rfl | hq
    · exact ⟨x, hp⟩
    · exact h.elem q hq
  · refine (List.perm_ext_iff_of_nodup hplaced.nodup ?_).mpr fun r => ?_
    · refine List.nodup_cons.mpr ⟨fun hp => ?_, h.placed.nodup.filter _⟩
      simp at hp
    · rw [hmem]
      by_cases hrp : r = p
      · simp [hrp]
      · simp [hrp]

end

end VProtocol.Mq
