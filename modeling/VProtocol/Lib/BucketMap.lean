import Mathlib.Data.List.Nodup
import Mathlib.Tactic.Basic
import VProtocol.Lib.Run

/-!
# Maps of chained elements

A table of buckets whose elements carry their key and the links of their bucket
themselves. A new element goes to the front of its bucket; one that is found by its key is
unlinked through its own links. Several tables may share their elements: the key and the
links of an element are then those of the table that it was put into last.
-/

namespace VProtocol

open Function (update)

structure Node (κ α : Type) where
  key : κ
  prev : Option α
  next : Option α

/-- The elements that are allocated. -/
abbrev Nodes (κ α : Type) := α → Option (Node κ α)

inductive ChainFault where
  | dangling
  | endless
  deriving DecidableEq

namespace BucketMap

section
variable {κ α β : Type} [DecidableEq κ] [DecidableEq α] [DecidableEq β]

/-! ## Operations -/

/-- The element with key `k` from the one at `p` on; `n` elements are looked at. -/
def walk (k : κ) (nodes : Nodes κ α) : Nat → Option α → Except ChainFault (Option α)
  | _, none => .ok none
  | 0, some _ => .error .endless
  | n + 1, some p =>
    match nodes p with
    | none => .error .dangling
    | some N => if N.key = k then .ok (some p) else walk k nodes n N.next

def follow (nodes : Nodes κ α) : Nat → Option α → Except ChainFault (List α)
  | _, none => .ok []
  | 0, some _ => .error .endless
  | n + 1, some p =>
    match nodes p with
    | none => .error .dangling
    | some N => do
      let l ← follow nodes n N.next
      .ok (p :: l)

def setPrev (q prev : Option α) (nodes : Nodes κ α) : Except ChainFault (Nodes κ α) :=
  match q with
  | none => .ok nodes
  | some q =>
    match nodes q with
    | none => .error .dangling
    | some N => .ok (update nodes q (some { N with prev := prev }))

def setNext (q next : Option α) (nodes : Nodes κ α) : Except ChainFault (Nodes κ α) :=
  match q with
  | none => .ok nodes
  | some q =>
    match nodes q with
    | none => .error .dangling
    | some N => .ok (update nodes q (some { N with next := next }))

def unlink (N : Node κ α) (b : β) (nodes : Nodes κ α) (table : β → Option α) :
    Except ChainFault (Nodes κ α × (β → Option α)) := do
  let nodes ← setPrev N.next N.prev nodes
  let nodes ← setNext N.prev N.next nodes
  .ok (nodes, if N.prev = none then update table b N.next else table)

variable (hash : κ → β)

def find (n : Nat) (k : κ) (nodes : Nodes κ α) (table : β → Option α) : Except ChainFault (Option α) :=
  walk k nodes n (table (hash k))

def insert (k : κ) (p : α) (nodes : Nodes κ α) (table : β → Option α) :
    Except ChainFault (Nodes κ α × (β → Option α)) := do
  let nodes ← setPrev (table (hash k)) (some p) nodes
  .ok (update nodes p (some ⟨k, none, table (hash k)⟩), update table (hash k) (some p))

def erase (n : Nat) (k : κ) (nodes : Nodes κ α) (table : β → Option α) :
    Except ChainFault (Nodes κ α × (β → Option α)) := do
  let found ← find hash n k nodes table
  match found with
  | none => .ok (nodes, table)
  | some p =>
    match nodes p with
    | none => .error .dangling
    | some N => unlink N (hash k) nodes table

/-- What an iteration over some buckets visits. -/
def elements (n : Nat) (nodes : Nodes κ α) (table : β → Option α) : List β → Except ChainFault (List α)
  | [] => .ok []
  | b :: bs => do
    let l ← follow nodes n (table b)
    let ls ← elements n nodes table bs
    .ok (l ++ ls)

/-! ## Chains -/

/-- The elements of `l` are linked in both directions, from `head` on and behind `prev`. -/
def Chain (nodes : Nodes κ α) : Option α → Option α → List α → Prop
  | _, head, [] => head = none
  | prev, head, p :: l => head = some p ∧ ∃ N, nodes p = some N ∧ N.prev = prev ∧ Chain nodes (some p) N.next l

def keyAt (nodes : Nodes κ α) (p : α) : Option κ := (nodes p).map Node.key

variable {hash} {nodes nodes' : Nodes κ α} {prev head : Option α} {l : List α} {p q : α} {k : κ} {n : Nat}
  {N : Node κ α}

omit [DecidableEq κ] [DecidableEq α] in
theorem Chain.congr : ∀ {l : List α} {prev head : Option α}, Chain nodes prev head l →
    (∀ q ∈ l, nodes' q = nodes q) → Chain nodes' prev head l
  | [], _, _, h, _ => h
  | p :: l, prev, head, h, heq => by
    obtain ⟨hhead, N, hN, hprev, hrest⟩ := h
    refine ⟨hhead, N, ?_, hprev, hrest.congr fun q hq => heq q (List.mem_cons_of_mem p hq)⟩
    rw [heq p List.mem_cons_self]
    exact hN

omit [DecidableEq κ] [DecidableEq α] in
theorem Chain.node (h : Chain nodes prev head l) (hp : p ∈ l) : ∃ N, nodes p = some N := by
  induction l generalizing prev head with
  | nil => cases hp
  | cons q l ih =>
    obtain ⟨-, N, hN, -, hrest⟩ := h
    rcases List.mem_cons.mp hp with rfl | hp
    · exact ⟨N, hN⟩
    · exact ih hrest hp

omit [DecidableEq κ] [DecidableEq α] in
theorem Chain.next_mem (h : Chain nodes prev head l) (hp : p ∈ l) (hN : nodes p = some N) (hq : N.next = some q) :
    q ∈ l := by
  induction l generalizing prev head with
  | nil => cases hp
  | cons r l ih =>
    obtain ⟨-, M, hM, -, hrest⟩ := h
    rcases List.mem_cons.mp hp with rfl | hp
    · obtain rfl := Option.some.inj (hN.symm.trans hM)
      cases l with
      | nil => exact absurd (hrest.symm.trans hq) (by simp)
      | cons x l =>
        obtain rfl := Option.some.inj (hrest.1.symm.trans hq)
        exact List.mem_cons_of_mem _ List.mem_cons_self
    · exact List.mem_cons_of_mem r (ih hrest hp)

omit [DecidableEq κ] [DecidableEq α] in
theorem Chain.prev_mem (h : Chain nodes prev head l) (hp : p ∈ l) (hN : nodes p = some N) :
    head = some p ∧ N.prev = prev ∨ head ≠ some p ∧ ∃ q ∈ l, N.prev = some q := by
  induction l generalizing prev head with
  | nil => cases hp
  | cons r l ih =>
    obtain ⟨hhead, M, hM, hprev, hrest⟩ := h
    by_cases hpr : p = r
    · subst hpr
      obtain rfl := Option.some.inj (hN.symm.trans hM)
      exact .inl ⟨hhead, hprev⟩
    · have hne : head ≠ some p := by
        rw [hhead]
        exact fun he => hpr (Option.some.inj he).symm
      refine .inr ⟨hne, ?_⟩
      rcases ih hrest ((List.mem_cons.mp hp).resolve_left hpr) with ⟨-, hbefore⟩ | ⟨-, q, hq, hbefore⟩
      · exact ⟨r, List.mem_cons_self, hbefore⟩
      · exact ⟨q, List.mem_cons_of_mem r hq, hbefore⟩

omit [DecidableEq α] in
theorem Chain.walk (h : Chain nodes prev head l) (hn : l.length ≤ n) :
    walk k nodes n head = .ok (l.find? fun p => keyAt nodes p = some k) := by
  induction l generalizing prev head n with
  | nil =>
    rw [show head = none from h]
    cases n with
    | zero => rfl
    | succ n => rfl
  | cons p l ih =>
    obtain ⟨rfl, N, hN, -, hrest⟩ := h
    cases n with
    | zero => cases hn
    | succ n =>
      have hkey : keyAt nodes p = some N.key := by
        unfold keyAt
        rw [hN, Option.map_some]
      simp only [BucketMap.walk, hN, List.find?_cons, hkey, Option.some.injEq]
      by_cases hk : N.key = k
      · rw [if_pos hk, decide_eq_true hk]
      · rw [if_neg hk, decide_eq_false hk]
        exact ih hrest (Nat.le_of_succ_le_succ hn)

omit [DecidableEq α] in
theorem walk_key : ∀ {n : Nat} {head : Option α}, walk k nodes n head = .ok (some q) → keyAt nodes q = some k
  | 0, none, h => by cases h
  | 0, some _, h => by cases h
  | n + 1, none, h => by cases h
  | n + 1, some p, h => by
    cases hN : nodes p with
    | none =>
      simp only [BucketMap.walk, hN] at h
      cases h
    | some N =>
      simp only [BucketMap.walk, hN] at h
      split at h
      · rename_i hk
        obtain rfl := Option.some.inj (Except.ok.inj h)
        unfold keyAt
        rw [hN, Option.map_some, hk]
      · exact walk_key h

omit [DecidableEq κ] [DecidableEq α] in
theorem Chain.follow (h : Chain nodes prev head l) (hn : l.length ≤ n) : follow nodes n head = .ok l := by
  induction l generalizing prev head n with
  | nil =>
    rw [show head = none from h]
    cases n with
    | zero => rfl
    | succ n => rfl
  | cons p l ih =>
    obtain ⟨rfl, N, hN, -, hrest⟩ := h
    cases n with
    | zero => cases hn
    | succ n =>
      simp only [BucketMap.follow, hN]
      rw [ih hrest (Nat.le_of_succ_le_succ hn)]
      rfl

/-! ## Links that are set -/

/-- The nodes before and behind the one that was `N` point at each other. -/
def relink (N : Node κ α) (nodes : Nodes κ α) : Nodes κ α := fun x =>
  (nodes x).map fun M =>
    { M with
      prev := if N.next = some x then N.prev else M.prev
      next := if N.prev = some x then N.next else M.next }

omit [DecidableEq κ] in
theorem setPrev_eq {t v : Option α} (ht : ∀ q, t = some q → ∃ M, nodes q = some M) : setPrev t v nodes =
    .ok fun x => (nodes x).map fun M => { M with prev := if t = some x then v else M.prev } := by
  cases t with
  | none =>
    refine congrArg Except.ok (funext fun x => ?_)
    cases nodes x with
    | none => rfl
    | some M => simp
  | some q =>
    obtain ⟨M, hM⟩ := ht q rfl
    simp only [setPrev, hM]
    refine congrArg Except.ok (funext fun x => ?_)
    by_cases hx : x = q
    · subst hx
      simp [hM]
    · rw [Function.update_of_ne hx]
      cases nodes x with
      | none => rfl
      | some M => simp [Ne.symm hx]

omit [DecidableEq κ] in
theorem setNext_eq {t v : Option α} (ht : ∀ q, t = some q → ∃ M, nodes q = some M) : setNext t v nodes =
    .ok fun x => (nodes x).map fun M => { M with next := if t = some x then v else M.next } := by
  cases t with
  | none =>
    refine congrArg Except.ok (funext fun x => ?_)
    cases nodes x with
    | none => rfl
    | some M => simp
  | some q =>
    obtain ⟨M, hM⟩ := ht q rfl
    simp only [setNext, hM]
    refine congrArg Except.ok (funext fun x => ?_)
    by_cases hx : x = q
    · subst hx
      simp [hM]
    · rw [Function.update_of_ne hx]
      cases nodes x with
      | none => rfl
      | some M => simp [Ne.symm hx]

omit [DecidableEq κ] in
theorem unlink_eq {b : β} {table : β → Option α} (hnext : ∀ q, N.next = some q → ∃ M, nodes q = some M)
    (hprev : ∀ q, N.prev = some q → ∃ M, nodes q = some M) :
    unlink N b nodes table = .ok (relink N nodes, if N.prev = none then update table b N.next else table) := by
  unfold unlink
  rw [setPrev_eq hnext, Except.ok_bind, setNext_eq ?_, Except.ok_bind]
  · unfold relink
    simp only [Option.map_map]
    rfl
  · intro q hq
    obtain ⟨M, hM⟩ := hprev q hq
    exact ⟨_, by rw [hM]; rfl⟩

omit [DecidableEq κ] in
theorem relink_of_ne (hnext : N.next ≠ some q) (hprev : N.prev ≠ some q) : relink N nodes q = nodes q := by
  unfold relink
  cases nodes q with
  | none => rfl
  | some M => simp [hnext, hprev]

omit [DecidableEq κ] in
theorem keyAt_relink (N : Node κ α) (nodes : Nodes κ α) : keyAt (relink N nodes) = keyAt nodes := by
  funext q
  unfold keyAt relink
  rw [Option.map_map]
  rfl

omit [DecidableEq κ] in
/-- The induction is on the elements up to the one that is taken out; `prev` is before them. -/
theorem Chain.unlink : ∀ {l : List α} {prev head : Option α}, Chain nodes prev head l → l.Nodup →
    (∀ q, prev = some q → q ∉ l) → p ∈ l → nodes p = some N →
    Chain (relink N nodes) prev (if head = some p then N.next else head) (l.erase p)
  | [], _, _, _, _, _, hp, _ => absurd hp List.not_mem_nil
  | q :: l, prev, head, h, hnodup, hout, hp, hN => by
    obtain ⟨rfl, M, hM, hprev, hrest⟩ := h
    obtain ⟨hq, hnodup⟩ := List.nodup_cons.mp hnodup
    by_cases hpq : q = p
    · subst hpq
      obtain rfl := Option.some.inj (hN.symm.trans hM)
      rw [if_pos rfl, List.erase_cons_head]
      cases l with
      | nil => exact hrest
      | cons x l =>
        obtain ⟨hx, X, hX, hXprev, htail⟩ := hrest
        obtain ⟨hxl, -⟩ := List.nodup_cons.mp hnodup
        have hfar : ∀ y ∈ x :: l, N.prev ≠ some y := by
          intro y hy he
          exact hout y (hprev.symm.trans he) (List.mem_cons_of_mem q hy)
        refine ⟨hx, { X with prev := N.prev }, ?_, hprev, htail.congr fun y hy => ?_⟩
        · unfold relink
          rw [hX, Option.map_some, if_pos hx, if_neg (hfar x List.mem_cons_self)]
        · have hyx : N.next ≠ some y := by
            rw [hx]
            intro he
            exact hxl (Option.some.inj he ▸ hy)
          exact relink_of_ne hyx (hfar y (List.mem_cons_of_mem x hy))
    · have hpl : p ∈ l := (List.mem_cons.mp hp).resolve_left (Ne.symm hpq)
      have hne : (some q : Option α) ≠ some p := fun he => hpq (Option.some.inj he)
      rw [if_neg hne, List.erase_cons_tail (by simpa using hpq)]
      have hnext : N.next ≠ some q := fun he => hq (hrest.next_mem hpl hN he)
      have htail := hrest.unlink hnodup (fun r hr => Option.some.inj hr ▸ hq) hpl hN
      refine ⟨rfl, { M with next := if M.next = some p then N.next else M.next }, ?_, hprev, htail⟩
      unfold relink
      rw [hM, Option.map_some, if_neg hnext]
      rcases hrest.prev_mem hpl hN with ⟨hhead, hbefore⟩ | ⟨hhead, r, hr, hbefore⟩
      · rw [if_pos hbefore, if_pos hhead]
      · have hrq : N.prev ≠ some q := by
          rw [hbefore]
          intro he
          exact hq (Option.some.inj he ▸ hr)
        rw [if_neg hrq, if_neg hhead]

/-- The node at `p` is new, before the one that was `head`. -/
def front (k : κ) (p : α) (head : Option α) (nodes : Nodes κ α) : Nodes κ α :=
  update (fun x => (nodes x).map fun M => { M with prev := if head = some x then some p else M.prev }) p
    (some ⟨k, none, head⟩)

omit [DecidableEq κ] in
theorem front_some (hq : q ≠ p) (hN : nodes q = some N) : ∃ M, front k p head nodes q = some M := by
  unfold front
  rw [Function.update_of_ne hq, hN]
  exact ⟨_, rfl⟩

omit [DecidableEq κ] in
theorem front_of_ne (hq : q ≠ p) (hne : head ≠ some q) : front k p head nodes q = nodes q := by
  unfold front
  rw [Function.update_of_ne hq]
  simp only [if_neg hne, Option.map_id']

omit [DecidableEq κ] in
theorem front_front : front k p head (front k p head nodes) = front k p head nodes := by
  funext x
  unfold front
  by_cases hx : x = p
  · subst hx
    rw [Function.update_self, Function.update_self]
  · rw [Function.update_of_ne hx, Function.update_of_ne hx]
    cases nodes x with
    | none => rfl
    | some M =>
      simp only [Option.map_some]
      by_cases hhead : head = some x
      · simp only [if_pos hhead]
      · simp only [if_neg hhead]

omit [DecidableEq κ] in
theorem keyAt_front (k : κ) (p : α) (head : Option α) (nodes : Nodes κ α) :
    keyAt (front k p head nodes) = update (keyAt nodes) p (some k) := by
  funext q
  unfold keyAt front
  by_cases hq : q = p
  · subst hq
    rw [Function.update_self, Function.update_self, Option.map_some]
  · rw [Function.update_of_ne hq, Function.update_of_ne hq, Option.map_map]
    rfl

omit [DecidableEq κ] in
theorem Chain.front (h : Chain nodes prev head l) (hnodup : l.Nodup) (hp : p ∉ l) :
    Chain (front k p head nodes) none (some p) (p :: l) := by
  refine ⟨rfl, ⟨k, none, head⟩, Function.update_self _ _ _, rfl, ?_⟩
  cases l with
  | nil => exact h
  | cons x l =>
    obtain ⟨rfl, X, hX, -, htail⟩ := h
    have hne : ∀ y ∈ x :: l, y ≠ p := by
      rintro y hy rfl
      exact hp hy
    refine ⟨rfl, { X with prev := some p }, ?_, rfl, htail.congr fun y hy => ?_⟩
    · unfold BucketMap.front
      rw [Function.update_of_ne (hne x List.mem_cons_self)]
      simp only [hX, Option.map_some, if_pos]
    · refine front_of_ne (hne y (List.mem_cons_of_mem x hy)) fun he => ?_
      exact (List.nodup_cons.mp hnodup).1 (Option.some.inj he ▸ hy)

/-! ## Tables -/

/-- The buckets of the table are chains, of elements whose keys are apart and go there. -/
structure Buckets (hash : κ → β) (nodes : Nodes κ α) (table : β → Option α) (L : β → List α) : Prop where
  chain : ∀ b, Chain nodes none (table b) (L b)
  nodup : ∀ b, (L b).Nodup
  hashed : ∀ b p, p ∈ L b → ∃ k, keyAt nodes p = some k ∧ hash k = b
  unique : ∀ b p q, p ∈ L b → q ∈ L b → keyAt nodes p = keyAt nodes q → p = q

variable {table : β → Option α} {L : β → List α} {b b' : β}

omit [DecidableEq κ] [DecidableEq α] [DecidableEq β] in
theorem buckets_empty (hash : κ → β) (nodes : Nodes κ α) : Buckets hash nodes (fun _ => none) fun _ => [] :=
  ⟨fun _ => rfl, fun _ => List.nodup_nil, nofun, nofun⟩

omit [DecidableEq κ] [DecidableEq α] [DecidableEq β] in
theorem Buckets.disjoint (h : Buckets hash nodes table L) (hp : p ∈ L b) (hp' : p ∈ L b') : b = b' := by
  obtain ⟨k, hk, hb⟩ := h.hashed b p hp
  obtain ⟨k', hk', hb'⟩ := h.hashed b' p hp'
  obtain rfl := Option.some.inj (hk.symm.trans hk')
  exact hb.symm.trans hb'

omit [DecidableEq κ] [DecidableEq α] [DecidableEq β] in
theorem Buckets.head_mem (h : Buckets hash nodes table L) (hp : table b = some p) : p ∈ L b := by
  have hc := h.chain b
  cases hL : L b with
  | nil =>
    rw [hL, hp] at hc
    cases hc
  | cons q l =>
    rw [hL] at hc
    obtain rfl := Option.some.inj (hp.symm.trans hc.1)
    exact List.mem_cons_self

omit [DecidableEq κ] [DecidableEq α] [DecidableEq β] in
theorem Buckets.congr (h : Buckets hash nodes table L) (heq : ∀ b, ∀ q ∈ L b, nodes' q = nodes q) :
    Buckets hash nodes' table L := by
  have hkey : ∀ {b q}, q ∈ L b → keyAt nodes' q = keyAt nodes q := fun hq => congrArg (Option.map Node.key) (heq _ _ hq)
  refine ⟨fun b => (h.chain b).congr (heq b), h.nodup, fun b p hp => ?_, fun b p q hp hq he => ?_⟩
  · rw [hkey hp]
    exact h.hashed b p hp
  · rw [hkey hp, hkey hq] at he
    exact h.unique b p q hp hq he

omit [DecidableEq κ] [DecidableEq β] in
theorem Buckets.free (h : Buckets hash nodes table L) (hp : ∀ b, p ∉ L b) :
    Buckets hash (update nodes p none) table L := by
  refine h.congr fun b q hq => Function.update_of_ne ?_ _ _
  rintro rfl
  exact hp b hq

omit [DecidableEq α] [DecidableEq β] in
theorem Buckets.find_some (h : Buckets hash nodes table L) (hn : (L b).length ≤ n) (hp : p ∈ L b)
    (hk : keyAt nodes p = some k) : find hash n k nodes table = .ok (some p) := by
  obtain ⟨k', hk', hb⟩ := h.hashed b p hp
  obtain rfl := Option.some.inj (hk.symm.trans hk')
  subst hb
  unfold find
  rw [(h.chain (hash k)).walk hn]
  refine congrArg Except.ok ?_
  cases hfind : (L (hash k)).find? fun q => keyAt nodes q = some k with
  | none => exact absurd hk (by simpa using List.find?_eq_none.mp hfind p hp)
  | some q =>
    have hq : keyAt nodes q = some k := by simpa using List.find?_some hfind
    exact congrArg some (h.unique _ q p (List.mem_of_find?_eq_some hfind) hp (hq.trans hk.symm))

omit [DecidableEq α] [DecidableEq β] in
theorem Buckets.find_none (h : Buckets hash nodes table L) (hn : (L (hash k)).length ≤ n)
    (hk : ∀ b, ∀ p ∈ L b, keyAt nodes p ≠ some k) : find hash n k nodes table = .ok none := by
  unfold find
  rw [(h.chain (hash k)).walk hn]
  refine congrArg Except.ok (List.find?_eq_none.mpr fun p hp => ?_)
  simpa using hk _ p hp

omit [DecidableEq α] [DecidableEq β] in
theorem find_dangling (hp : table (hash k) = some p) (hgone : nodes p = none) :
    find hash (n + 1) k nodes table = .error .dangling := by
  unfold find
  rw [hp]
  simp only [walk, hgone]

omit [DecidableEq κ] in
theorem insert_key {r : Nodes κ α × (β → Option α)} (h : insert hash k p nodes table = .ok r) :
    keyAt r.1 p = some k := by
  obtain ⟨linked, -, h⟩ := Except.bind_eq_ok.mp h
  obtain rfl := Except.ok.inj h
  exact congrArg (Option.map Node.key) (Function.update_self p _ linked)

omit [DecidableEq κ] in
theorem insert_eq (ht : ∀ q, table (hash k) = some q → ∃ M, nodes q = some M) : insert hash k p nodes table =
    .ok (front k p (table (hash k)) nodes, update table (hash k) (some p)) := by
  unfold insert
  rw [setPrev_eq ht]
  rfl

omit [DecidableEq κ] [DecidableEq α] in
theorem mem_of_mem_insert (hq : q ∈ update L b (p :: L b) b') : q = p ∨ q ∈ L b' := by
  by_cases hb : b' = b
  · subst hb
    rw [Function.update_self] at hq
    exact List.mem_cons.mp hq
  · rw [Function.update_of_ne hb] at hq
    exact .inr hq

omit [DecidableEq κ] in
/-- A new element is at the front of its bucket. The same insertion into a table as it was
before changes no element. -/
theorem Buckets.insert (h : Buckets hash nodes table L) (hp : ∀ b, p ∉ L b)
    (hk : ∀ b, ∀ q ∈ L b, keyAt nodes q ≠ some k) : ∃ nodes', insert hash k p nodes table =
        .ok (nodes', update table (hash k) (some p)) ∧
      insert hash k p nodes' table = .ok (nodes', update table (hash k) (some p)) ∧
      Buckets hash nodes' (update table (hash k) (some p)) (update L (hash k) (p :: L (hash k))) ∧
      keyAt nodes' = update (keyAt nodes) p (some k) := by
  have hnode : ∀ q, table (hash k) = some q → ∃ M, nodes q = some M := fun q hq =>
    (h.chain (hash k)).node (h.head_mem hq)
  have hhead : table (hash k) ≠ some p := fun he => hp _ (h.head_mem he)
  have hne : ∀ {b q}, q ∈ L b → q ≠ p := by
    rintro b q hq rfl
    exact hp b hq
  have hkey := keyAt_front k p (table (hash k)) nodes
  refine ⟨_, insert_eq hnode, ?_, ⟨fun b => ?_, fun b => ?_, fun b q hq => ?_, fun b q r hq hr he => ?_⟩, hkey⟩
  · rw [insert_eq, front_front]
    intro q hq
    obtain ⟨M, hM⟩ := hnode q hq
    exact front_some (fun he => hhead (he ▸ hq)) hM
  · by_cases hb : b = hash k
    · subst hb
      rw [Function.update_self, Function.update_self]
      exact (h.chain (hash k)).front (h.nodup _) (hp _)
    · rw [Function.update_of_ne hb, Function.update_of_ne hb]
      exact (h.chain b).congr fun q hq => front_of_ne (hne hq) fun he => hb (h.disjoint hq (h.head_mem he))
  · by_cases hb : b = hash k
    · subst hb
      rw [Function.update_self]
      exact List.nodup_cons.mpr ⟨hp _, h.nodup _⟩
    · rw [Function.update_of_ne hb]
      exact h.nodup b
  · rw [hkey]
    by_cases hqp : q = p
    · subst hqp
      refine ⟨k, Function.update_self _ _ _, ?_⟩
      by_contra hb
      rw [Function.update_of_ne (Ne.symm hb)] at hq
      exact hp b hq
    · rw [Function.update_of_ne hqp]
      exact h.hashed b q ((mem_of_mem_insert hq).resolve_left hqp)
  · rw [hkey] at he
    rcases mem_of_mem_insert hq with rfl | hqL
    · rcases mem_of_mem_insert hr with rfl | hrL
      · rfl
      · rw [Function.update_self, Function.update_of_ne (hne hrL)] at he
        exact absurd he.symm (hk b r hrL)
    · rcases mem_of_mem_insert hr with rfl | hrL
      · rw [Function.update_self, Function.update_of_ne (hne hqL)] at he
        exact absurd he (hk b q hqL)
      · rw [Function.update_of_ne (hne hqL), Function.update_of_ne (hne hrL)] at he
        exact h.unique b q r hqL hrL he

omit [DecidableEq κ] in
theorem mem_of_mem_update (hq : q ∈ update L b ((L b).erase p) b') : q ∈ L b' := by
  by_cases hb : b' = b
  · subst hb
    rw [Function.update_self] at hq
    exact List.mem_of_mem_erase hq
  · rw [Function.update_of_ne hb] at hq
    exact hq

/-- An element is taken out, and a table whose bucket does not start with it stays as it is. -/
theorem Buckets.erase (h : Buckets hash nodes table L) (hn : (L (hash k)).length ≤ n) (hp : p ∈ L (hash k))
    (hk : keyAt nodes p = some k) : ∃ nodes' table', erase hash n k nodes table = .ok (nodes', table') ∧
      Buckets hash nodes' table' (update L (hash k) ((L (hash k)).erase p)) ∧ keyAt nodes' = keyAt nodes ∧
      (table (hash k) ≠ some p → table' = table) := by
  obtain ⟨N, hN⟩ := (h.chain (hash k)).node hp
  have hnext : ∀ q, N.next = some q → q ∈ L (hash k) := fun q hq => (h.chain (hash k)).next_mem hp hN hq
  have hprev : ∀ q, N.prev = some q → q ∈ L (hash k) := by
    intro q hq
    rcases (h.chain (hash k)).prev_mem hp hN with ⟨-, hnone⟩ | ⟨-, r, hr, hbefore⟩
    · rw [hnone] at hq
      cases hq
    · obtain rfl := Option.some.inj (hq.symm.trans hbefore)
      exact hr
  have htable : (if N.prev = none then update table (hash k) N.next else table) =
      update table (hash k) (if table (hash k) = some p then N.next else table (hash k)) := by
    rcases (h.chain (hash k)).prev_mem hp hN with ⟨hhead, hnone⟩ | ⟨hhead, r, -, hbefore⟩
    · rw [if_pos hnone, if_pos hhead]
    · rw [if_neg (by rw [hbefore]; simp), if_neg hhead, Function.update_eq_self]
  refine ⟨relink N nodes, update table (hash k) (if table (hash k) = some p then N.next else table (hash k)), ?_, ?_,
    keyAt_relink N nodes, ?_⟩
  · unfold BucketMap.erase
    rw [h.find_some hn hp hk, Except.ok_bind, ← htable]
    simp only [hN]
    exact unlink_eq (fun q hq => (h.chain (hash k)).node (hnext q hq)) fun q hq => (h.chain (hash k)).node (hprev q hq)
  · refine ⟨fun b => ?_, fun b => ?_, fun b q hq => ?_, fun b q r hq hr he => ?_⟩
    · by_cases hb : b = hash k
      · subst hb
        rw [Function.update_self, Function.update_self]
        exact (h.chain (hash k)).unlink (h.nodup _) nofun hp hN
      · rw [Function.update_of_ne hb, Function.update_of_ne hb]
        refine (h.chain b).congr fun q hq => relink_of_ne ?_ ?_
        · exact fun he => hb (h.disjoint hq (hnext q he))
        · exact fun he => hb (h.disjoint hq (hprev q he))
    · by_cases hb : b = hash k
      · subst hb
        rw [Function.update_self]
        exact (h.nodup _).erase p
      · rw [Function.update_of_ne hb]
        exact h.nodup b
    · rw [keyAt_relink]
      exact h.hashed b q (mem_of_mem_update hq)
    · rw [keyAt_relink] at he
      exact h.unique b q r (mem_of_mem_update hq) (mem_of_mem_update hr) he
  · intro hne
    rw [if_neg hne, Function.update_eq_self]

omit [DecidableEq κ] [DecidableEq α] [DecidableEq β] in
theorem Buckets.elements (h : Buckets hash nodes table L) (hn : ∀ b, (L b).length ≤ n) :
    ∀ bs : List β, elements n nodes table bs = .ok (bs.flatMap L)
  | [] => rfl
  | b :: bs => by
    unfold BucketMap.elements
    rw [(h.chain b).follow (hn b), h.elements hn bs]
    rfl

omit [DecidableEq κ] [DecidableEq α] [DecidableEq β] in
theorem Buckets.elements_nodup (h : Buckets hash nodes table L) {bs : List β} (hbs : bs.Nodup) :
    (bs.flatMap L).Nodup := by
  refine List.nodup_flatMap.mpr ⟨fun b _ => h.nodup b, hbs.imp fun hb p hp hp' => hb (h.disjoint hp hp')⟩

end

end BucketMap

end VProtocol
