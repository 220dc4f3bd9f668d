import Mathlib.Data.List.Sort
import VProtocol.Lib.Ring

/-!
# Ordered sets and a cursor over them

An ordered set keeps its elements in a list that goes up. An iterator is an element of the set,
or `none` at its end. A cursor that is read at its place, from the start when it is at the end,
and then moved on, reads the elements in turn: of `k` reads each element gets `k / n`, rounded up
or down, where `n` is the size of the set.
-/

namespace VProtocol

structure OrderedSet (α : Type) [LinearOrder α] where
  elems : List α
  sorted : elems.Pairwise (· < ·)

namespace OrderedSet

section
variable {α : Type} [LinearOrder α]

@[ext] theorem ext {s t : OrderedSet α} (h : s.elems = t.elems) : s = t := by
  cases s
  cases t
  simpa using h

instance (a : α) (s : OrderedSet α) : Decidable (a ∈ s.elems) := inferInstance

def empty : OrderedSet α := ⟨[], List.Pairwise.nil⟩

theorem nodup (s : OrderedSet α) : s.elems.Nodup := s.sorted.imp fun h => h.ne

theorem sorted_orderedInsert {l : List α} (h : l.Pairwise (· < ·)) {a : α} (ha : a ∉ l) :
    (l.orderedInsert (· ≤ ·) a).Pairwise (· < ·) := by
  have hle : (l.orderedInsert (· ≤ ·) a).Pairwise (· ≤ ·) := List.Pairwise.orderedInsert a l (h.imp le_of_lt)
  have hnodup : (l.orderedInsert (· ≤ ·) a).Nodup :=
    (List.perm_orderedInsert (· ≤ ·) a l).nodup_iff.mpr (List.nodup_cons.mpr ⟨ha, h.imp fun h => h.ne⟩)
  exact (hle.and hnodup).imp fun h => lt_of_le_of_ne h.1 h.2

/-- An element that is there already is not put in again. -/
def insert (a : α) (s : OrderedSet α) : OrderedSet α :=
  if h : a ∈ s.elems then s else ⟨s.elems.orderedInsert (· ≤ ·) a, sorted_orderedInsert s.sorted h⟩

def erase (a : α) (s : OrderedSet α) : OrderedSet α :=
  ⟨s.elems.erase a, s.sorted.sublist List.erase_sublist⟩

def begin (s : OrderedSet α) : Option α := s.elems.head?

/-- The iterator behind an element. -/
def next (s : OrderedSet α) (a : α) : Option α := s.elems[s.elems.idxOf a + 1]?

variable {s : OrderedSet α} {a b : α}

@[simp] theorem elems_empty : (empty : OrderedSet α).elems = [] := rfl

@[simp] theorem mem_insert : b ∈ (s.insert a).elems ↔ b = a ∨ b ∈ s.elems := by
  unfold insert
  by_cases h : a ∈ s.elems
  · rw [dif_pos h]
    constructor
    · exact .inr
    · rintro (rfl | hb)
      · exact h
      · exact hb
  · rw [dif_neg h]
    exact List.mem_orderedInsert (· ≤ ·)

@[simp] theorem mem_erase : b ∈ (s.erase a).elems ↔ b ≠ a ∧ b ∈ s.elems := s.nodup.mem_erase_iff

theorem begin_mem (h : s.begin = some a) : a ∈ s.elems := List.mem_of_head? h

theorem next_mem (h : s.next a = some b) : b ∈ s.elems := List.mem_of_getElem? h

/-! ## Reading in turn -/

/-- The place of an iterator; the end is behind the last element. -/
def place (s : OrderedSet α) : Option α → Nat
  | some a => s.elems.idxOf a
  | none => s.elems.length

/-- What is read at an iterator: at the end it is the first element. -/
def read (s : OrderedSet α) : Option α → Option α
  | some a => some a
  | none => s.begin

theorem read_eq (hne : s.elems ≠ []) {it : Option α} (hit : ∀ a ∈ it, a ∈ s.elems) :
    s.read it = s.elems[s.place it % s.elems.length]? := by
  have hpos : 0 < s.elems.length := List.length_pos_iff.mpr hne
  cases it with
  | none =>
    show s.elems.head? = s.elems[s.elems.length % s.elems.length]?
    rw [Nat.mod_self, List.head?_eq_getElem?]
  | some a =>
    have hmem : a ∈ s.elems := hit a rfl
    show some a = s.elems[s.elems.idxOf a % s.elems.length]?
    rw [Nat.mod_eq_of_lt (List.idxOf_lt_length_of_mem hmem), List.getElem?_idxOf hmem]

theorem place_next (hmem : a ∈ s.elems) : s.place (s.next a) = s.elems.idxOf a + 1 := by
  have hlt := List.idxOf_lt_length_of_mem hmem
  unfold next
  by_cases h : s.elems.idxOf a + 1 < s.elems.length
  · rw [List.getElem?_eq_getElem h]
    exact s.nodup.idxOf_getElem _ h
  · rw [List.getElem?_eq_none (not_lt.mp h)]
    show s.elems.length = _
    omega

/-- The elements of `l` were read in turn from place `i` on, and the cursor is at `it` now. -/
structure Turns (s : OrderedSet α) (i : Nat) (l : List α) (it : Option α) : Prop where
  read : l.map some = (List.range' i l.length).map fun j => s.elems[j % s.elems.length]?
  place : (i + l.length) % s.elems.length = s.place it % s.elems.length
  valid : ∀ a ∈ it, a ∈ s.elems

variable {i : Nat} {l : List α} {it : Option α}

theorem turns_nil (hit : ∀ a ∈ it, a ∈ s.elems) : Turns s (s.place it) [] it := ⟨rfl, rfl, hit⟩

theorem Turns.snoc (h : Turns s i l it) (hread : s.read it = some a) : Turns s i (l ++ [a]) (s.next a) := by
  have hne : s.elems ≠ [] := by
    rintro hnil
    cases it with
    | none =>
      have hempty : s.begin = none := by
        unfold begin
        rw [hnil, List.head?_nil]
      exact Option.some_ne_none a (hread.symm.trans hempty)
    | some b =>
      have hmem := h.valid b rfl
      rw [hnil] at hmem
      cases hmem
  have hat : s.elems[(i + l.length) % s.elems.length]? = some a := by
    rw [h.place, ← read_eq hne h.valid]
    exact hread
  have hmem := List.mem_of_getElem? hat
  have hplace : s.elems.idxOf a = (i + l.length) % s.elems.length := by
    obtain ⟨hlt, heq⟩ := List.getElem?_eq_some_iff.mp hat
    rw [← heq]
    exact s.nodup.idxOf_getElem _ hlt
  refine ⟨?_, ?_, fun b hb => next_mem hb⟩
  · rw [List.map_append, h.read, List.length_append, List.length_singleton, List.range'_1_concat, List.map_append,
      List.map_singleton, List.map_singleton, hat]
  · rw [place_next hmem, hplace, List.length_append, List.length_singleton, Nat.mod_add_mod, Nat.add_assoc]

theorem Turns.reads (h : Turns s i l it) : Ring.Reads s.elems i l := by
  intro j a hj
  have hlt : j < l.length := (List.getElem?_eq_some_iff.mp hj).1
  have hat := congrArg (·[j]?) h.read
  simp only [List.getElem?_map, hj, Option.map_some, List.getElem?_range' hlt, Nat.one_mul, Option.some.injEq] at hat
  exact hat.symm

theorem Turns.fair (h : Turns s i l it) (ha : a ∈ s.elems) :
    l.count a = l.length / s.elems.length ∨ l.count a = (l.length + s.elems.length - 1) / s.elems.length :=
  h.reads.fair s.nodup ha

end

end OrderedSet

end VProtocol
