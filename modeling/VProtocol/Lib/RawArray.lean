import Mathlib.Data.List.Basic

/-!
# Arrays rebuilt by hand

Arrays of a fixed size as C code handles them. A new array holds whatever its
memory holds; elements come into it by a block copy or by a loop that passes some
of them over and writes behind a cursor of its own. An access outside of the
array gives `none`.
-/

namespace VProtocol.RawArray

section
variable {α : Type}

def fresh (raw : Nat → α) (n : Nat) : List α := (List.range n).map raw

def write (a : List α) (i : Nat) (x : α) : Option (List α) := if i < a.length then some (a.set i x) else none

def blockCopy (dst src : List α) (n : Nat) : Option (List α) :=
  if n ≤ dst.length ∧ n ≤ src.length then some (src.take n ++ dst.drop n) else none

/-- The first index from `i` on whose element meets `p`; `n` elements are looked at. -/
def search (p : α → Bool) (a : List α) : Nat → Nat → Option (Option Nat)
  | 0, _ => some none
  | n + 1, i =>
    match a[i]? with
    | none => none
    | some x => if p x then some (some i) else search p a n (i + 1)

/-- The `n` elements from `k` on that meet `p`, written from `m` on. -/
def copyIf (p : α → Bool) (src : List α) : Nat → Nat → List α → Nat → Option (List α)
  | 0, _, dst, _ => some dst
  | n + 1, k, dst, m =>
    match src[k]? with
    | none => none
    | some x =>
      if p x then
        match write dst m x with
        | none => none
        | some dst => copyIf p src n (k + 1) dst (m + 1)
      else copyIf p src n (k + 1) dst m

@[simp] theorem fresh_length (raw : Nat → α) (n : Nat) : (fresh raw n).length = n := by
  simp [fresh]

theorem fresh_succ (raw : Nat → α) (n : Nat) : fresh raw (n + 1) = fresh raw n ++ [raw n] := by
  simp [fresh, List.range_succ]

@[simp] theorem write_concat (a : List α) (x y : α) : write (a ++ [x]) a.length y = some (a ++ [y]) := by
  simp [write]

theorem write_of_lt {a : List α} {i : Nat} (h : i < a.length) (x : α) : write a i x = some (a.set i x) :=
  if_pos h

theorem blockCopy_fresh (raw : Nat → α) (a : List α) :
    blockCopy (fresh raw (a.length + 1)) a a.length = some (a ++ [raw a.length]) := by
  rw [blockCopy, if_pos ⟨by simp, Nat.le_refl _⟩, List.take_length, fresh_succ]
  rw [List.drop_append_of_le_length (by simp), List.drop_eq_nil_of_le (by simp), List.nil_append]

theorem search_append (p : α → Bool) : ∀ (l pre : List α),
    search p (pre ++ l) l.length pre.length = some ((l.findIdx? p).map (· + pre.length))
  | [], _ => rfl
  | x :: l, pre => by
    have hx : (pre ++ x :: l)[pre.length]? = some x := by simp
    rw [List.length_cons, search, hx, List.findIdx?_cons]
    by_cases hp : p x
    · simp [hp]
    · have ih := search_append p l (pre ++ [x])
      rw [List.append_assoc, List.singleton_append, List.length_append, List.length_singleton] at ih
      simp only [hp, if_neg, Bool.false_eq_true, not_false_eq_true, ih, Option.map_map]
      congr 2
      funext i
      simp only [Function.comp_apply]
      omega

theorem search_all (p : α → Bool) (a : List α) : search p a a.length 0 = some (a.findIdx? p) := by
  have h := search_append p a []
  rw [List.nil_append, List.length_nil] at h
  rw [h]
  cases a.findIdx? p <;> rfl

theorem copyIf_append (p : α → Bool) : ∀ (l pre done rest : List α), rest.length = (l.filter p).length →
    copyIf p (pre ++ l) l.length pre.length (done ++ rest) done.length = some (done ++ l.filter p)
  | [], _, done, rest, h => by
    obtain rfl := List.length_eq_zero_iff.mp h
    rfl
  | x :: l, pre, done, rest, h => by
    have hx : (pre ++ x :: l)[pre.length]? = some x := by simp
    rw [List.length_cons, copyIf, hx]
    by_cases hp : p x
    · rw [List.filter_cons_of_pos hp] at h ⊢
      obtain ⟨y, rest, rfl⟩ := List.exists_cons_of_length_pos (by rw [h]; simp : 0 < rest.length)
      have hw : write (done ++ y :: rest) done.length x = some ((done ++ [x]) ++ rest) := by
        rw [write_of_lt (by simp)]
        simp
      have ih := copyIf_append p l (pre ++ [x]) (done ++ [x]) rest (by simpa using h)
      rw [List.append_assoc, List.singleton_append, List.length_append, List.length_singleton,
        List.length_append, List.length_singleton] at ih
      simp only [hp, if_true, hw]
      rw [ih, List.append_assoc, List.singleton_append]
    · rw [List.filter_cons_of_neg hp] at h ⊢
      have ih := copyIf_append p l (pre ++ [x]) done rest h
      rw [List.append_assoc, List.singleton_append, List.length_append, List.length_singleton] at ih
      simp only [hp, Bool.false_eq_true, if_false, ih]

theorem copyIf_all (p : α → Bool) {a dst : List α} (h : dst.length = (a.filter p).length) :
    copyIf p a a.length 0 dst 0 = some (a.filter p) := by
  simpa using copyIf_append p a [] [] dst h

end

end VProtocol.RawArray
