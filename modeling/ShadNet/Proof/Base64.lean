import Mathlib.Data.List.Basic
import ShadNet.Spec.Qt

/-!
# Base 64

* `fromBase64_toBase64`: bytes survive being written and read again.
-/

namespace ShadNet

/-- A digit as a byte. -/
def digitByte (n : ℕ) : UInt8 := UInt8.ofNat (base64Digit n).toNat

theorem base64Digits :
    "ABCDEFGHIJKLMNOPQRSTUVWXYZabcdefghijklmnopqrstuvwxyz0123456789+/".toList =
      ['A', 'B', 'C', 'D', 'E', 'F', 'G', 'H', 'I', 'J', 'K', 'L', 'M', 'N', 'O', 'P',
        'Q', 'R', 'S', 'T', 'U', 'V', 'W', 'X', 'Y', 'Z', 'a', 'b', 'c', 'd', 'e', 'f',
        'g', 'h', 'i', 'j', 'k', 'l', 'm', 'n', 'o', 'p', 'q', 'r', 's', 't', 'u', 'v',
        'w', 'x', 'y', 'z', '0', '1', '2', '3', '4', '5', '6', '7', '8', '9', '+', '/'] :=
  String.toList_ofList

/-- A digit is read as the number that it was written for. -/
theorem base64Value?_digitByte (n : ℕ) : base64Value? (digitByte n) = some (n % 64) := by
  unfold digitByte base64Digit
  rw [base64Digits]
  have hlt : n % 64 < 64 := Nat.mod_lt _ (by decide)
  generalize n % 64 = k at hlt ⊢
  revert k
  decide +kernel

/-- The first digit of a group, which gives no byte yet. -/
theorem fromBase64From_first (size n : ℕ) (rest : List UInt8) :
    fromBase64From size 0 0 (digitByte n :: rest) = fromBase64From size (n % 64) 6 rest := by
  simp only [fromBase64From, base64Value?_digitByte]
  simp

/-- A later digit, which completes a byte. -/
theorem fromBase64From_next {nbits : ℕ} (h : 2 ≤ nbits) (size buf n : ℕ) (rest : List UInt8) :
    fromBase64From size buf nbits (digitByte n :: rest) =
      (fromBase64From size ((buf * 64 + n % 64) % 2 ^ (nbits - 2)) (nbits - 2) rest).map
        (UInt8.ofNat ((buf * 64 + n % 64) / 2 ^ (nbits - 2)) :: ·) := by
  simp only [fromBase64From, base64Value?_digitByte, if_pos h]

/-- The padding ends the text. -/
theorem fromBase64From_padding {size : ℕ} (h : size % 4 = 0) (buf nbits : ℕ) {rest : List UInt8}
    (hrest : rest = [] ∨ rest = [0x3D]) :
    fromBase64From size buf nbits (0x3D :: rest) = some [] := by
  have hvalue : base64Value? 0x3D = none := by decide
  simp only [fromBase64From, hvalue]
  exact if_pos ⟨trivial, h, hrest⟩

/-- The text comes in groups of four. -/
theorem toBase64_length (l : List UInt8) : (toBase64 l).length % 4 = 0 := by
  fun_induction toBase64 l with
  | case1 => rfl
  | case2 => simp
  | case3 => simp
  | case4 a b c rest n ih =>
    simp only [List.length_cons]
    omega

/-- What `toBase64` writes, as bytes. -/
def base64Bytes (l : List UInt8) : List UInt8 := (toBase64 l).map fun c => UInt8.ofNat c.toNat

/-- **What is written is read back.** -/
theorem fromBase64From_base64Bytes {size : ℕ} (hsize : size % 4 = 0) (l : List UInt8) :
    fromBase64From size 0 0 (base64Bytes l) = some l := by
  unfold base64Bytes
  fun_induction toBase64 l with
  | case1 => rfl
  | case2 a n =>
    have ha : a.toNat < 256 := a.toNat_lt
    simp only [List.map_cons, List.map_nil]
    have hbyte : (n / 64 % 64 * 64 + n % 64) / 2 ^ (6 - 2) = a.toNat := by omega
    refine (fromBase64From_first size (n / 64) _).trans ?_
    refine (fromBase64From_next (by decide) size _ n _).trans ?_
    rw [hbyte, UInt8.ofNat_toNat]
    exact congrArg (Option.map _) (fromBase64From_padding hsize _ _ (.inr rfl))
  | case3 a b n =>
    have ha : a.toNat < 256 := a.toNat_lt
    have hb : b.toNat < 256 := b.toNat_lt
    simp only [List.map_cons, List.map_nil]
    have hfirst : (n / 64 ^ 2 % 64 * 64 + n / 64 % 64) / 2 ^ (6 - 2) = a.toNat := by omega
    have hsecond : ((n / 64 ^ 2 % 64 * 64 + n / 64 % 64) % 2 ^ (6 - 2) * 64 + n % 64) /
        2 ^ (6 - 2 - 2) = b.toNat := by omega
    refine (fromBase64From_first size (n / 64 ^ 2) _).trans ?_
    refine (fromBase64From_next (by decide) size _ (n / 64) _).trans ?_
    rw [hfirst, UInt8.ofNat_toNat]
    refine (congrArg _ (fromBase64From_next (by decide) size _ n _)).trans ?_
    rw [hsecond, UInt8.ofNat_toNat]
    exact congrArg (Option.map fun l => a :: l)
      (congrArg (Option.map _) (fromBase64From_padding hsize _ _ (.inl rfl)))
  | case4 a b c rest n ih =>
    have ha : a.toNat < 256 := a.toNat_lt
    have hb : b.toNat < 256 := b.toNat_lt
    have hc : c.toNat < 256 := c.toNat_lt
    simp only [List.map_cons]
    have hfirst : (n / 64 ^ 3 % 64 * 64 + n / 64 ^ 2 % 64) / 2 ^ (6 - 2) = a.toNat := by omega
    have hsecond : ((n / 64 ^ 3 % 64 * 64 + n / 64 ^ 2 % 64) % 2 ^ (6 - 2) * 64 + n / 64 % 64) /
        2 ^ (6 - 2 - 2) = b.toNat := by omega
    have hthird : (((n / 64 ^ 3 % 64 * 64 + n / 64 ^ 2 % 64) % 2 ^ (6 - 2) * 64 + n / 64 % 64) %
        2 ^ (6 - 2 - 2) * 64 + n % 64) / 2 ^ (6 - 2 - 2 - 2) = c.toNat := by omega
    refine (fromBase64From_first size (n / 64 ^ 3) _).trans ?_
    refine (fromBase64From_next (by decide) size _ (n / 64 ^ 2) _).trans ?_
    rw [hfirst, UInt8.ofNat_toNat]
    refine (congrArg _ (fromBase64From_next (by decide) size _ (n / 64) _)).trans ?_
    rw [hsecond, UInt8.ofNat_toNat]
    refine (congrArg _ (congrArg _ (fromBase64From_next (by decide) size _ n _))).trans ?_
    rw [hthird, UInt8.ofNat_toNat]
    have hlast : ∀ x : ℕ, x % 2 ^ (6 - 2 - 2 - 2) = 0 := fun x => Nat.mod_one x
    rw [hlast, ih]
    rfl

theorem base64Digit_lt (n : ℕ) : (base64Digit n).toNat < 0x80 := by
  unfold base64Digit
  rw [base64Digits]
  have hlt : n % 64 < 64 := Nat.mod_lt _ (by decide)
  generalize n % 64 = k at hlt ⊢
  revert k
  decide +kernel

/-- All of the text is ASCII. -/
theorem toBase64_ascii (l : List UInt8) : ∀ c ∈ toBase64 l, c.toNat < 0x80 := by
  fun_induction toBase64 l with
  | case1 => exact nofun
  | case2 a n => simp [base64Digit_lt]
  | case3 a b n => simp [base64Digit_lt]
  | case4 a b c rest n ih => simpa [base64Digit_lt] using ih

theorem toLatin1_toBase64 (l : List UInt8) :
    toLatin1 (String.ofList (toBase64 l)) = base64Bytes l := by
  unfold toLatin1 base64Bytes
  rw [String.toList_ofList, ← List.flatMap_pure_eq_map]
  refine List.flatMap_congr fun c hc => ?_
  have hascii := toBase64_ascii l c hc
  exact if_pos (by omega)

/-- **A payload survives** being written and read again. -/
theorem fromBase64_toBase64 (l : List UInt8) :
    fromBase64 (toLatin1 (String.ofList (toBase64 l))) = l := by
  have hlength : (base64Bytes l).length = (toBase64 l).length := List.length_map _
  rw [toLatin1_toBase64]
  unfold fromBase64
  rw [hlength, fromBase64From_base64Bytes (toBase64_length l), Option.getD_some]

end ShadNet
