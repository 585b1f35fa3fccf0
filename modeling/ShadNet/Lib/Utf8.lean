import Mathlib.Data.List.Basic

/-!
# UTF-8

* `utf8`: the bytes of characters. They determine the characters (`utf8_injective`), and a byte below
  128 is a character of its own.
* `decodeUtf8`: the characters of bytes that may be broken. A byte at which none starts becomes a
  replacement character.
* `decodeUtf8_encode_append`: what was encoded is decoded, whatever follows it.
-/

namespace Lib

/-! ## Encoding -/

/-- The bytes of characters, one after the other. -/
def utf8 (cs : List Char) : List UInt8 := cs.flatMap String.utf8EncodeChar

theorem ofNat_ge {n : ℕ} (h : 0x80 ≤ n) (hn : n < 0x100) : 0x80 ≤ (UInt8.ofNat n).toNat := by
  have hmod : n % 256 = n := Nat.mod_eq_of_lt hn
  simpa [hmod] using h

/-- A byte below 128 is a character of its own. -/
theorem mem_utf8EncodeChar {c : Char} {b : UInt8} (h : b ∈ String.utf8EncodeChar c)
    (hb : b.toNat < 0x80) : b.toNat = c.toNat := by
  have hc : c.val.toNat = c.toNat := rfl
  unfold String.utf8EncodeChar at h
  simp only [hc] at h
  split at h
  · have hmod : c.toNat % 256 = c.toNat := Nat.mod_eq_of_lt (by omega)
    simpa [hmod] using congrArg UInt8.toNat (List.mem_singleton.mp h)
  -- every byte of a longer encoding has its top bit set
  split at h
  · rcases List.mem_pair.mp h with rfl | rfl
    · have := ofNat_ge (n := c.toNat / 64 % 32 + 192) (by omega) (by omega)
      omega
    · have := ofNat_ge (n := c.toNat % 64 + 128) (by omega) (by omega)
      omega
  split at h
  · simp only [List.mem_cons, List.not_mem_nil, or_false] at h
    rcases h with rfl | rfl | rfl
    · have := ofNat_ge (n := c.toNat / 4096 % 16 + 224) (by omega) (by omega)
      omega
    · have := ofNat_ge (n := c.toNat / 64 % 64 + 128) (by omega) (by omega)
      omega
    · have := ofNat_ge (n := c.toNat % 64 + 128) (by omega) (by omega)
      omega
  · simp only [List.mem_cons, List.not_mem_nil, or_false] at h
    rcases h with rfl | rfl | rfl | rfl
    · have := ofNat_ge (n := c.toNat / 262144 % 8 + 240) (by omega) (by omega)
      omega
    · have := ofNat_ge (n := c.toNat / 4096 % 64 + 128) (by omega) (by omega)
      omega
    · have := ofNat_ge (n := c.toNat / 64 % 64 + 128) (by omega) (by omega)
      omega
    · have := ofNat_ge (n := c.toNat % 64 + 128) (by omega) (by omega)
      omega

theorem utf8_cons (c : Char) (cs : List Char) :
    utf8 (c :: cs) = String.utf8EncodeChar c ++ utf8 cs := rfl

/-- Different texts have different bytes. -/
theorem utf8_injective {cs ds : List Char} (h : utf8 cs = utf8 ds) : cs = ds := by
  have hencode : cs.utf8Encode = ds.utf8Encode := congrArg List.toByteArray h
  have hdecode := congrArg ByteArray.utf8Decode? hencode
  rw [List.utf8Decode?_utf8Encode, List.utf8Decode?_utf8Encode] at hdecode
  simpa using hdecode

/-! ## Decoding -/

/-- Stands for a byte that makes no sense. -/
def replacementChar : Char := Char.ofNat 0xFFFD

/-- The character that starts at the front. -/
def firstChar? (bytes : List UInt8) : Option Char := bytes.toByteArray.utf8DecodeChar? 0

/-- The characters behind the first `skip` bytes. -/
def decodeUtf8From : ℕ → List UInt8 → List Char
  | _, [] => []
  | skip + 1, _ :: rest => decodeUtf8From skip rest
  | 0, b :: rest =>
    match firstChar? (b :: rest) with
    | some c => c :: decodeUtf8From (c.utf8Size - 1) rest
    | none => replacementChar :: decodeUtf8From 0 rest

/-- The characters of a sequence of bytes; what is no character is replaced. -/
def decodeUtf8 (bytes : List UInt8) : List Char := decodeUtf8From 0 bytes

/-- What is skipped is not read. -/
theorem decodeUtf8From_skip (l rest : List UInt8) :
    decodeUtf8From l.length (l ++ rest) = decodeUtf8 rest := by
  induction l with
  | nil => rfl
  | cons b l ih => exact ih

/-- The first character is read whatever stands behind it. -/
theorem firstChar?_encode_append (c : Char) (rest : List UInt8) :
    firstChar? (String.utf8EncodeChar c ++ rest) = some c := by
  unfold firstChar?
  rw [List.toByteArray_append]
  exact ByteArray.utf8DecodeChar?_utf8EncodeChar_append

theorem decodeUtf8_encodeChar_append (c : Char) (rest : List UInt8) :
    decodeUtf8 (String.utf8EncodeChar c ++ rest) = c :: decodeUtf8 rest := by
  have hfirst := firstChar?_encode_append c rest
  have hlength := String.length_utf8EncodeChar c
  have hpos := c.utf8Size_pos
  cases hencode : String.utf8EncodeChar c with
  | nil =>
    rw [hencode, List.length_nil] at hlength
    omega
  | cons b l =>
    rw [hencode, List.cons_append] at hfirst
    rw [hencode, List.length_cons] at hlength
    have hskip : c.utf8Size - 1 = l.length := by omega
    rw [List.cons_append]
    unfold decodeUtf8
    rw [decodeUtf8From, hfirst]
    simp only [hskip]
    rw [decodeUtf8From_skip]
    rfl

/-- **What was encoded is decoded.** -/
theorem decodeUtf8_encode_append (cs : List Char) (rest : List UInt8) :
    decodeUtf8 (utf8 cs ++ rest) = cs ++ decodeUtf8 rest := by
  induction cs with
  | nil => rfl
  | cons c cs ih =>
    rw [utf8_cons, List.append_assoc, decodeUtf8_encodeChar_append, ih, List.cons_append]

/-- **The bytes of a text** are read as that text. -/
theorem decodeUtf8_encode (cs : List Char) : decodeUtf8 (utf8 cs) = cs := by
  have hdecode := decodeUtf8_encode_append cs []
  rw [List.append_nil] at hdecode
  rw [hdecode]
  exact List.append_nil cs

end Lib
