import Mathlib.Logic.Function.Iterate
import Mathlib.Data.Nat.ModEq
import VProtocol.Common.Types

/-!
# Versions of the items (`vbh_comm_func.inl`)

A service that changes an item increases its version, whoever checks the write
set asks whether the version it finds follows the one it holds. Both sides
write the wrap from 2^32 - 1 to 1 themselves. The versions an item runs through
after its creation are a cycle of 2^32 - 1 places that leaves 0 out.
-/

namespace VProtocol

/-- `VBH::IsVersionMatch`, the arithmetic of the checking side. -/
def isVersionMatch (preVersion curVersion : UInt32) : Bool :=
  if preVersion = 0xFFFFFFFF then
    if curVersion = 1 then true else false
  else if preVersion + 1 = curVersion then true
  else false

def isCreatedVersion (version : UInt32) : Bool := version = 0

theorem isVersionMatch_iff (pre cur : UInt32) :
    isVersionMatch pre cur = true ↔ cur = increaseVersion pre := by
  unfold isVersionMatch increaseVersion
  by_cases hpre : pre = 0xFFFFFFFF
  · simp [hpre]
  · simp only [hpre, if_false]
    by_cases hcur : pre + 1 = cur
    · simp [hcur]
    · simp [hcur, Ne.symm hcur]

/-! ## The cycle of the versions -/

/-- How many versions there are besides 0. -/
def versionPeriod : Nat := 2 ^ 32 - 1

theorem toNat_increaseVersion (v : UInt32) :
    (increaseVersion v).toNat = v.toNat % versionPeriod + 1 := by
  unfold increaseVersion
  by_cases hv : v = 0xFFFFFFFF
  · subst hv
    decide
  · have hlt := v.toNat_lt
    have hne : v.toNat ≠ 4294967295 := fun h => hv (UInt32.toNat_inj.mp h)
    rw [if_neg hv, UInt32.toNat_add]
    change (v.toNat + 1) % 2 ^ 32 = v.toNat % versionPeriod + 1
    unfold versionPeriod
    omega

/-- Where an item stands after `k` changes. From 0 the first change leads to 1, as from 2^32 - 1. -/
theorem toNat_iterate (v : UInt32) (k : Nat) (hk : 1 ≤ k) :
    (increaseVersion^[k] v).toNat = (v.toNat + (k - 1)) % versionPeriod + 1 := by
  induction k, hk using Nat.le_induction with
  | base => exact toNat_increaseVersion v
  | succ k hk ih =>
    rw [Function.iterate_succ_apply', toNat_increaseVersion, ih]
    unfold versionPeriod
    omega

theorem one_le_iterate (v : UInt32) (k : Nat) (hk : 1 ≤ k) : 1 ≤ increaseVersion^[k] v := by
  rw [UInt32.le_iff_toNat_le, toNat_iterate v k hk]
  exact Nat.le_add_left 1 _

theorem iterate_eq_iff (v : UInt32) {i j : Nat} (hi : 1 ≤ i) (hj : 1 ≤ j) :
    increaseVersion^[i] v = increaseVersion^[j] v ↔ i ≡ j [MOD versionPeriod] := by
  rw [← UInt32.toNat_inj, toNat_iterate v i hi, toNat_iterate v j hj]
  unfold Nat.ModEq versionPeriod
  omega

/-- A version other than 0 is the one that follows some version, so the cycle starts anywhere. -/
theorem exists_before {v : UInt32} (hv : 1 ≤ v) : ∃ u, increaseVersion u = v := by
  refine ⟨v - 1, ?_⟩
  have hv' : 1 ≤ v.toNat := UInt32.le_iff_toNat_le.mp hv
  have hlt := v.toNat_lt
  have hsub : (v - 1).toNat = v.toNat - 1 := UInt32.toNat_sub_of_le v 1 hv
  rw [← UInt32.toNat_inj, toNat_increaseVersion, hsub]
  unfold versionPeriod
  omega

theorem iterate_eq_self_iff {v : UInt32} (hv : 1 ≤ v) (k : Nat) :
    increaseVersion^[k] v = v ↔ versionPeriod ∣ k := by
  obtain ⟨u, rfl⟩ := exists_before hv
  have hstep : increaseVersion^[k + 1] u = increaseVersion^[1] u ↔ k + 1 ≡ 1 [MOD versionPeriod] :=
    iterate_eq_iff u (Nat.le_add_left 1 k) (Nat.le_refl 1)
  rw [Function.iterate_succ_apply, Function.iterate_one] at hstep
  rw [hstep, Nat.ModEq.comm, Nat.modEq_iff_dvd' (Nat.le_add_left 1 k), Nat.add_sub_cancel]

theorem iterate_ne_of_near {v : UInt32} {i j : Nat} (hstart : 1 ≤ v ∨ 1 ≤ i) (hij : i < j)
    (hnear : j - i < versionPeriod) : increaseVersion^[i] v ≠ increaseVersion^[j] v := by
  intro heq
  have hsplit : increaseVersion^[j] v = increaseVersion^[j - i] (increaseVersion^[i] v) := by
    rw [← Function.iterate_add_apply, Nat.sub_add_cancel (Nat.le_of_lt hij)]
  have hpos : 1 ≤ increaseVersion^[i] v := by
    rcases hstart with hv | hi
    · rcases Nat.eq_zero_or_pos i with rfl | hi
      · exact hv
      · exact one_le_iterate v i hi
    · exact one_le_iterate v i hi
  rw [hsplit] at heq
  have hdvd := (iterate_eq_self_iff hpos (j - i)).mp heq.symm
  have := Nat.le_of_dvd (Nat.sub_pos_of_lt hij) hdvd
  omega

theorem not_created {v : UInt32} (hv : 1 ≤ v) : isCreatedVersion v = false := by
  unfold isCreatedVersion
  rw [decide_eq_false_iff_not]
  rintro rfl
  exact absurd hv (by decide)

/-- Writer and checker agree, no change leads back to the version of a created item, and versions
come back after the whole period only. -/
theorem versions_never_confused :
    (∀ pre cur, isVersionMatch pre cur = true ↔ cur = increaseVersion pre) ∧
    (∀ v k, 1 ≤ k → increaseVersion^[k] v ≠ 0 ∧ isCreatedVersion (increaseVersion^[k] v) = false) ∧
    (∀ v, 1 ≤ v → ∀ k, increaseVersion^[k] v = v ↔ 2 ^ 32 - 1 ∣ k) ∧
    (∀ v i j, 1 ≤ v ∨ 1 ≤ i → i < j → j - i < 2 ^ 32 - 1 →
      increaseVersion^[i] v ≠ increaseVersion^[j] v) := by
  refine ⟨isVersionMatch_iff, fun v k hk => ⟨?_, ?_⟩, fun v hv k => ?_, fun v i j hstart hij hnear => ?_⟩
  · intro h
    have hpos := one_le_iterate v k hk
    rw [h] at hpos
    exact absurd hpos (by decide)
  · exact not_created (one_le_iterate v k hk)
  · exact iterate_eq_self_iff hv k
  · exact iterate_ne_of_near hstart hij hnear

theorem versions_across_wrap :
    increaseVersion^[1] 0xFFFFFFFF ≠ increaseVersion^[2] 0xFFFFFFFF :=
  versions_never_confused.2.2.2 0xFFFFFFFF 1 2 (.inr (by decide)) (by decide) (by decide)

end VProtocol
