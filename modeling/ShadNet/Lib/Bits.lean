import Mathlib.Data.Finset.Card
import Mathlib.Data.Finset.Range

/-!
# Bits

A bit vector as the set of the places where it has ones.

* `mem_bits`, `bits_and`, `bits_and_not`, `bits_eq_empty`: the operations on masks are those on sets.
* `bits_lowOnes`: the mask of the first `n` places.
* `card_bits_and_sub_one`: `x & (x - 1)` has one place less than `x`.
* `getLsbD_foldl_setBit`: a mask that is put together place by place.
-/

namespace Lib

variable {w : ℕ} {x y : BitVec w}

/-- The places of the ones. -/
def bits (x : BitVec w) : Finset ℕ := (Finset.range w).filter fun i => x.getLsbD i = true

@[simp] theorem mem_bits {i : ℕ} : i ∈ bits x ↔ x.getLsbD i = true := by
  unfold bits
  rw [Finset.mem_filter, Finset.mem_range, and_iff_right_iff_imp]
  exact BitVec.lt_of_getLsbD

/-- A word has no more bits than its width. -/
theorem card_bits_le (x : BitVec w) : (bits x).card ≤ w := by
  calc (bits x).card ≤ (Finset.range w).card := Finset.card_filter_le _ _
    _ = w := Finset.card_range w

/-- The bits of a conjunction are those of both words. -/
theorem bits_and (x y : BitVec w) : bits (x &&& y) = bits x ∩ bits y := by
  ext i
  simp

/-- Clearing a mask takes its bits away. -/
theorem bits_and_not (x y : BitVec w) : bits (x &&& ~~~y) = bits x \ bits y := by
  ext i
  simp only [mem_bits, Finset.mem_sdiff, BitVec.getLsbD_and, BitVec.getLsbD_not, Bool.and_eq_true,
    Bool.not_eq_true', decide_eq_true_eq, Bool.not_eq_true]
  -- a place where `x` has a one is one of the places
  exact ⟨fun h => ⟨h.1, h.2.2⟩, fun h => ⟨h.1, BitVec.lt_of_getLsbD h.1, h.2⟩⟩

theorem bits_eq_empty : bits x = ∅ ↔ x = 0 := by
  constructor
  · intro h
    refine BitVec.eq_of_getLsbD_eq fun i _ => ?_
    have hi : i ∉ bits x := by rw [h]; exact Finset.notMem_empty i
    simpa using hi
  · rintro rfl
    ext i
    simp

/-- All ones have every bit. -/
theorem bits_allOnes : bits (BitVec.allOnes w) = Finset.range w := by
  ext i
  simp

/-- The mask of the first places. -/
theorem bits_lowOnes {n : ℕ} (hn : n < w) : bits ((1#w <<< n) - 1#w) = Finset.range n := by
  have hpow : 2 ^ n < 2 ^ w := Nat.pow_lt_pow_right (by decide) hn
  have hpos : 0 < 2 ^ n := Nat.two_pow_pos n
  have hone : (1#w).toNat = 1 := by
    rw [BitVec.toNat_ofNat, Nat.mod_eq_of_lt (by omega)]
  have hshift : (1#w <<< n).toNat = 2 ^ n := by
    rw [BitVec.toNat_shiftLeft, hone, Nat.shiftLeft_eq, Nat.one_mul, Nat.mod_eq_of_lt hpow]
  have hmask : ((1#w <<< n) - 1#w).toNat = 2 ^ n - 1 := by
    rw [BitVec.toNat_sub_of_le (by rw [BitVec.le_def]; omega), hshift, hone]
  ext i
  rw [mem_bits, ← BitVec.testBit_toNat, hmask, Nat.testBit_two_pow_sub_one, Finset.mem_range,
    decide_eq_true_eq]

/-- Subtracting one from a number clears its lowest one and sets the places below. -/
theorem exists_testBit_and_sub_one {n : ℕ} (hn : n ≠ 0) :
    ∃ i, n.testBit i = true ∧ ∀ j, (n &&& (n - 1)).testBit j = (n.testBit j && decide (j ≠ i)) := by
  induction n using Nat.strong_induction_on with
  | _ n ih =>
    obtain ⟨k, rfl | rfl⟩ : ∃ k, n = 2 * k ∨ n = 2 * k + 1 := ⟨n / 2, by omega⟩
    · -- the lowest one is that of the half
      obtain ⟨i, hi, hbits⟩ := ih k (by omega) (by omega)
      have hhalf : (2 * k - 1) / 2 = k - 1 := by omega
      refine ⟨i + 1, by simpa [Nat.testBit_succ] using hi, fun j => ?_⟩
      cases j with
      | zero => simp
      | succ j =>
        have := hbits j
        rw [Nat.testBit_and] at this ⊢
        simp only [Nat.testBit_succ, hhalf, Nat.mul_div_cancel_left k (show 0 < 2 by decide)]
        simpa using this
    · refine ⟨0, by simp, fun j => ?_⟩
      cases j with
      | zero => simp
      | succ j =>
        have hhalf : (2 * k + 1) / 2 = k := by omega
        have hhalf' : (2 * k + 1 - 1) / 2 = k := by omega
        rw [Nat.testBit_and]
        simp only [Nat.testBit_succ, hhalf, hhalf']
        simp

/-- **`x &&& (x - 1)`** has one bit less. -/
theorem card_bits_and_sub_one (h : x ≠ 0) : (bits (x &&& (x - 1))).card + 1 = (bits x).card := by
  have hne : x.toNat ≠ 0 := fun hzero => h (BitVec.eq_of_toNat_eq (by simpa using hzero))
  have hw : w ≠ 0 := by
    rintro rfl
    exact h (BitVec.eq_of_toNat_eq (by omega))
  have hone : (1 : BitVec w).toNat = 1 := by
    have := Nat.one_lt_two_pow hw
    exact Nat.mod_eq_of_lt this
  have hsub : (x - 1).toNat = x.toNat - 1 := by
    rw [BitVec.toNat_sub_of_le (by rw [BitVec.le_def]; omega), hone]
  obtain ⟨i, hi, hbits⟩ := exists_testBit_and_sub_one hne
  have heq : bits (x &&& (x - 1)) = (bits x).erase i := by
    ext j
    rw [mem_bits, ← BitVec.testBit_toNat, BitVec.toNat_and, hsub, hbits, Finset.mem_erase, mem_bits,
      ← BitVec.testBit_toNat]
    simp [and_comm]
  rw [heq, Finset.card_erase_add_one]
  rwa [mem_bits, ← BitVec.testBit_toNat]

/-- Places that are set one after another. -/
theorem getLsbD_foldl_setBit {α : Type*} (place : α → ℕ) (l : List α) (mask : BitVec w) {i : ℕ}
    (hi : i < w) : (l.foldl (fun mask a => mask ||| 1#w <<< place a) mask).getLsbD i =
      (mask.getLsbD i || l.any fun a => place a = i) := by
  induction l generalizing mask with
  | nil => simp
  | cons a l ih =>
    rw [List.foldl_cons, ih, List.any_cons, ← Bool.or_assoc, BitVec.getLsbD_or,
      BitVec.getLsbD_shiftLeft, BitVec.getLsbD_one]
    congr 2
    grind

end Lib
