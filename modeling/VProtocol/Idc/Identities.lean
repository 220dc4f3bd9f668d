import VProtocol.Idc.Turns

/-!
# The ids and tokens of client sessions

The id of a new session is the first one from a random start that no session
has. Its token is put together from four draws of 16 bits, the lower two in an
`int` that is widened with its sign: where the third draw has its top bit, the
upper half of the token is all ones whatever the first two draws were.
-/

namespace VProtocol.Idc

/-! ## The search for an id -/

section
variable {m : UInt32 → Option ClientSession}

theorem newSessionId_none : ∀ {n : Nat} {r : UInt32}, newSessionId m n r = none →
    ∀ k, k < n → m (r + UInt32.ofNat k) ≠ none
  | 0, _, _, _, hk => absurd hk (Nat.not_lt_zero _)
  | n + 1, r, h, k, hk => by
    unfold newSessionId at h
    cases hr : m r with
    | none =>
      rw [hr] at h
      cases h
    | some C =>
      simp only [hr, Option.isSome_some, if_true] at h
      cases k with
      | zero => simp [hr]
      | succ k =>
        have hnext := newSessionId_none h k (Nat.lt_of_succ_lt_succ hk)
        have hadd : r + 1 + UInt32.ofNat k = r + UInt32.ofNat (k + 1) := by
          rw [UInt32.ofNat_add, UInt32.add_assoc, UInt32.add_comm 1]
          rfl
        rwa [hadd] at hnext

/-- From any start the search passes every id before it comes round. -/
theorem newSessionId_found (hfree : ∃ id, m id = none) (r : UInt32) :
    ∃ id, newSessionId m UInt32.size r = some id ∧ m id = none := by
  cases hid : newSessionId m UInt32.size r with
  | some id => exact ⟨id, rfl, newSessionId_free hid⟩
  | none =>
    obtain ⟨id, hnone⟩ := hfree
    refine absurd hnone ?_
    have hk := newSessionId_none hid (id - r).toNat (id - r).toNat_lt_size
    rwa [UInt32.ofNat_toNat, UInt32.add_comm, UInt32.sub_add_cancel] at hk

end

/-! ## The token of four draws -/

theorem toNat_shiftOr (r1 r2 : UInt16) : (shiftOr r1 r2).toNat = r1.toNat * 2 ^ 16 + r2.toNat := by
  have h1 := r1.toNat_lt
  have h2 := r2.toNat_lt
  unfold shiftOr
  rw [UInt32.toNat_or, UInt32.toNat_shiftLeft, UInt16.toNat_toUInt32, UInt16.toNat_toUInt32]
  change (r1.toNat <<< 16) % 2 ^ 32 ||| r2.toNat = _
  rw [Nat.mod_eq_of_lt (by rw [Nat.shiftLeft_eq]; omega), ← Nat.shiftLeft_add_eq_or_of_lt h2, Nat.shiftLeft_eq]

/-- The lower half as the `int` that it is becomes wider: the sign fills the upper half. -/
theorem toNat_widened (x : UInt32) :
    x.toInt32.toInt64.toUInt64.toNat = if x.toNat < 2 ^ 31 then x.toNat else (2 ^ 32 - 1) * 2 ^ 32 + x.toNat := by
  have hlt := x.toNat_lt
  change (x.toBitVec.signExtend 64).toNat = _
  rw [BitVec.toNat_signExtend, BitVec.msb_eq_decide, BitVec.toNat_setWidth, UInt32.toNat_toBitVec,
    Nat.mod_eq_of_lt (by omega)]
  by_cases hx : x.toNat < 2 ^ 31
  · rw [if_pos hx, if_neg (by simpa using hx)]
    exact Nat.add_zero _
  · rw [if_neg hx, if_pos (by simpa using hx)]
    omega

theorem toNat_upper (x : UInt32) : (x.toUInt64 <<< 32).toNat = x.toNat <<< 32 := by
  have hlt := x.toNat_lt
  rw [UInt64.toNat_shiftLeft, UInt32.toNat_toUInt64]
  change (x.toNat <<< 32) % 2 ^ 64 = _
  exact Nat.mod_eq_of_lt (by rw [Nat.shiftLeft_eq]; omega)

theorem or_ones (a : Nat) (ha : a < 2 ^ 32) : a ||| 2 ^ 32 - 1 = 2 ^ 32 - 1 := by
  refine Nat.eq_of_testBit_eq fun i => ?_
  rw [Nat.testBit_or, Nat.testBit_two_pow_sub_one]
  by_cases hi : i < 32
  · simp [hi]
  · have hout : a < 2 ^ i := Nat.lt_of_lt_of_le ha (Nat.pow_le_pow_right (by decide) (Nat.le_of_not_lt hi))
    simp [hi, Nat.testBit_lt_two_pow hout]

theorem toNat_words (hi lo : UInt32) :
    (hi.toUInt64 <<< 32 ||| lo.toInt32.toInt64.toUInt64).toNat =
      (if lo.toNat < 2 ^ 31 then hi.toNat else 2 ^ 32 - 1) * 2 ^ 32 + lo.toNat := by
  have hlo := lo.toNat_lt
  rw [UInt64.toNat_or, toNat_upper, toNat_widened]
  by_cases hsign : lo.toNat < 2 ^ 31
  · rw [if_pos hsign, if_pos hsign, ← Nat.shiftLeft_add_eq_or_of_lt hlo, Nat.shiftLeft_eq]
  · rw [if_neg hsign, if_neg hsign, ← Nat.shiftLeft_eq, Nat.shiftLeft_add_eq_or_of_lt hlo, ← Nat.or_assoc,
      ← Nat.shiftLeft_or_distrib, or_ones _ hi.toNat_lt]

def TokenRand.upper (r : TokenRand) : Nat := r.r1.toNat * 2 ^ 16 + r.r2.toNat

def TokenRand.lower (r : TokenRand) : Nat := r.r3.toNat * 2 ^ 16 + r.r4.toNat

theorem toNat_newSessionToken (r : TokenRand) :
    (newSessionToken r).toNat = (if r.lower < 2 ^ 31 then r.upper else 2 ^ 32 - 1) * 2 ^ 32 + r.lower := by
  unfold newSessionToken TokenRand.upper TokenRand.lower
  rw [toNat_words, toNat_shiftOr, toNat_shiftOr]

/-! ## What is promised of them -/

/-- Where there is an id left a session gets one that no session has, and its token is the number of
the four draws. -/
structure IdentitiesRight (m : UInt32 → Option ClientSession) (env : AnswerEnv) : Prop where
  found : (∃ id, m id = none) →
    ∃ id, newSessionId m UInt32.size (shiftOr env.id1 env.id2) = some id ∧ m id = none
  fresh : ∀ C, newClientSession env m = .ok (some C) → m C.sessionId = none ∧ C.token = newSessionToken env.token
  token : (newSessionToken env.token).toNat =
    env.token.r1.toNat * 2 ^ 48 + env.token.r2.toNat * 2 ^ 32 + env.token.r3.toNat * 2 ^ 16 + env.token.r4.toNat

/-- The third draw has no sign, or the first two are all ones anyway. -/
def TokenRand.Kept (r : TokenRand) : Prop := r.r3 < 0x8000 ∨ r.r1 = 0xffff ∧ r.r2 = 0xffff

theorem TokenRand.kept_iff (r : TokenRand) : r.Kept ↔ r.lower < 2 ^ 31 ∨ r.upper = 2 ^ 32 - 1 := by
  have h1 := r.r1.toNat_lt
  have h2 := r.r2.toNat_lt
  have h4 := r.r4.toNat_lt
  unfold TokenRand.Kept TokenRand.lower TokenRand.upper
  rw [UInt16.lt_iff_toNat_lt, ← UInt16.toNat_inj, ← UInt16.toNat_inj]
  change r.r3.toNat < 32768 ∨ r.r1.toNat = 65535 ∧ r.r2.toNat = 65535 ↔ _
  omega

theorem token_exact_iff (r : TokenRand) :
    (newSessionToken r).toNat =
      r.r1.toNat * 2 ^ 48 + r.r2.toNat * 2 ^ 32 + r.r3.toNat * 2 ^ 16 + r.r4.toNat ↔ r.Kept := by
  have hnumber : r.r1.toNat * 2 ^ 48 + r.r2.toNat * 2 ^ 32 + r.r3.toNat * 2 ^ 16 + r.r4.toNat =
      r.upper * 2 ^ 32 + r.lower := by
    unfold TokenRand.upper TokenRand.lower
    omega
  rw [hnumber, toNat_newSessionToken, r.kept_iff]
  by_cases hsign : r.lower < 2 ^ 31
  · rw [if_pos hsign]
    exact ⟨fun _ => .inl hsign, fun _ => rfl⟩
  · rw [if_neg hsign]
    omega

theorem token_possible_iff (t : UInt64) :
    (∃ r, newSessionToken r = t) ↔ t.toNat % 2 ^ 32 < 2 ^ 31 ∨ (2 ^ 32 - 1) * 2 ^ 32 ≤ t.toNat := by
  have ht := t.toNat_lt
  constructor
  · rintro ⟨r, rfl⟩
    have hlower : r.lower < 2 ^ 32 := by
      have h3 := r.r3.toNat_lt
      have h4 := r.r4.toNat_lt
      unfold TokenRand.lower
      omega
    rw [toNat_newSessionToken]
    by_cases hsign : r.lower < 2 ^ 31
    · rw [if_pos hsign]
      omega
    · rw [if_neg hsign]
      omega
  · intro h
    refine ⟨⟨UInt16.ofNat (t.toNat / 2 ^ 48), UInt16.ofNat (t.toNat / 2 ^ 32), UInt16.ofNat (t.toNat / 2 ^ 16),
      UInt16.ofNat t.toNat⟩, UInt64.toNat_inj.mp ?_⟩
    rw [toNat_newSessionToken]
    unfold TokenRand.lower TokenRand.upper
    simp only [UInt16.toNat_ofNat']
    by_cases hsign : t.toNat / 2 ^ 16 % 2 ^ 16 * 2 ^ 16 + t.toNat % 2 ^ 16 < 2 ^ 31
    · rw [if_pos hsign]
      omega
    · rw [if_neg hsign]
      omega

theorem identities_right_iff (m : UInt32 → Option ClientSession) (env : AnswerEnv) :
    (IdentitiesRight m env ↔ env.token.Kept) ∧
    ∀ t, (∃ r, newSessionToken r = t) ↔ t.toNat % 2 ^ 32 < 2 ^ 31 ∨ (2 ^ 32 - 1) * 2 ^ 32 ≤ t.toNat := by
  refine ⟨⟨fun h => (token_exact_iff env.token).mp h.token, fun hkept => ?_⟩, token_possible_iff⟩
  exact {
    found := fun hfree => newSessionId_found hfree _
    fresh := fun _ hC => newClientSession_new hC
    token := (token_exact_iff env.token).mpr hkept
  }

/-- Draws 0, 0, 0x8000, 0 give 2^64 - 2^31 and not 2^31, and no draws give the token 2^31. -/
theorem identities_sign :
    ¬IdentitiesRight (fun _ => none) ⟨0, ⟨0, 0, 0x8000, 0⟩, 0, 0, true⟩ ∧
    (newSessionToken ⟨0, 0, 0x8000, 0⟩).toNat = 2 ^ 64 - 2 ^ 31 ∧ ∀ r, newSessionToken r ≠ 0x80000000 := by
  refine ⟨fun h => ?_, by decide, fun r hr => ?_⟩
  · exact absurd h.token (by decide)
  · rcases (token_possible_iff 0x80000000).mp ⟨r, hr⟩ with hlow | hhigh
    · exact absurd hlow (by decide)
    · exact absurd hhigh (by decide)

end VProtocol.Idc
