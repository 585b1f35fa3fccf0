import Mathlib.Tactic.Linarith

/-!
# Signed machine arithmetic

`wrap32` reduces an integer into `[-2^31, 2^31)`, as a conversion to a 32-bit signed
integer does; `wrap64` is the same for 64 bits.
-/

namespace Lib

/-- The 32-bit two's-complement value of an integer. -/
def wrap32 (x : ℤ) : ℤ := x.bmod (2 ^ 32)

/-- The 64-bit two's-complement value of an integer. -/
def wrap64 (x : ℤ) : ℤ := x.bmod (2 ^ 64)

/-- A value of 32 bits. -/
def Fits32 (x : ℤ) : Prop := -2 ^ 31 ≤ x ∧ x < 2 ^ 31

/-- A value of 64 bits. -/
def Fits64 (x : ℤ) : Prop := -2 ^ 63 ≤ x ∧ x < 2 ^ 63

/-- What fits is not wrapped. -/
theorem wrap64_of_fits {x : ℤ} (h : Fits64 x) : wrap64 x = x := by
  obtain ⟨h0, h1⟩ := h
  unfold wrap64; rw [Int.bmod_def]; split <;> omega

/-- A number whose square has 64 bits. -/
theorem lt_of_mul_self_lt {x : ℤ} (h : x * x < 2 ^ 63) : -2 ^ 32 < x ∧ x < 2 ^ 32 := by
  constructor
  · by_contra hlow
    nlinarith
  · by_contra hhigh
    nlinarith

/-- A sum that stays in the range is exact. -/
theorem wrap32_of_lt {x : ℤ} (h0 : -2 ^ 31 ≤ x) (h1 : x < 2 ^ 31) : wrap32 x = x := by
  unfold wrap32; rw [Int.bmod_def]; split <;> omega

/-- One that passes the upper end comes out negative. -/
theorem wrap32_of_ge {x : ℤ} (h0 : 2 ^ 31 ≤ x) (h1 : x < 2 ^ 32) : wrap32 x = x - 2 ^ 32 := by
  unfold wrap32; rw [Int.bmod_def]; split <;> omega

/-- Full turns do not count. -/
theorem wrap32_add_modulus (x : ℤ) : wrap32 (x + 2 ^ 32) = wrap32 x := by
  unfold wrap32; rw [Int.bmod_def, Int.bmod_def]; split <;> split <;> omega

theorem wrap32_lt (x : ℤ) : wrap32 x < 2 ^ 31 := by
  unfold wrap32; rw [Int.bmod_def]; split <;> omega

end Lib
